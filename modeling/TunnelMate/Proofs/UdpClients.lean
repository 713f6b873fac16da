import TunnelMate.Proofs.ClientMoves
import TunnelMate.UdpWorld

/-!
# What the clients of a UDP plane say

The agent sends its secret and, under the id of a flow, what the service sends on the socket of that
flow.
-/

namespace TunnelMate

open List Option Nat

variable {env : Bytes} {e : Env} {s : Ref} {S S' : Bytes → Prop} {B B' : Ref → Prop}

/-! ## The wire -/

namespace AgentUdp

/-- The envelopes that wait or were sent meet `S`, and the session at the other end meets `B`. -/
structure Wire (S : Bytes → Prop) (B : Ref → Prop) (outq : List Bytes) (ssl : Option Ssl)
    (sent : List (Option Bytes)) : Prop where
  outq : ∀ env ∈ outq, S env
  wbio : ∀ x, ssl = some x → ∀ env, some env ∈ x.wbio → S env
  sent : ∀ env, some env ∈ sent → S env
  session : ∀ s, ssl.bind Ssl.session = some s → B s

namespace Wire

variable {outq q : List Bytes} {ssl : Option Ssl} {sent : List (Option Bytes)} {x y : Ssl}

section

variable (h : Wire S B outq ssl sent)
include h

lemma mono (hS : ∀ env, S env → S' env) (hB : ∀ s, B s → B' s) : Wire S' B' outq ssl sent where
  outq env he := hS env (h.outq env he)
  wbio x hx env he := hS env (h.wbio x hx env he)
  sent env he := hS env (h.sent env he)
  session s hs := hB s (h.session s hs)

lemma stop : Wire S B [] none sent := ⟨nofun, nofun, h.sent, nofun⟩

lemma start (n : ℕ) : Wire S B outq (some { wbio := .replicate n none }) sent := by
  refine { h with wbio := ?_, session := ?_ }
  · rintro _ ⟨⟩ env he
    simp [mem_replicate] at he
  · rintro s ⟨⟩

lemma queue (he : S env) : Wire S B (outq ++ [env]) ssl sent := by
  refine { h with outq := fun env' hm => ?_ }
  rcases mem_append.1 hm with hm | hm
  · exact h.outq env' hm
  · exact mem_singleton.1 hm ▸ he

variable (hx : ssl = some x)
include hx

lemma flush : Wire S B outq (some { x with wbio := [] }) (x.wbio.reverse ++ sent) := by
  subst hx
  refine { h with wbio := ?_, sent := fun env he => ?_ }
  · rintro _ ⟨⟩ env he
    cases he
  · rcases mem_append.1 he with he | he
    · exact h.wbio x rfl env (mem_reverse.1 he)
    · exact h.sent env he

lemma write (hq : outq = env :: q) :
    Wire S B q (some { x with wbio := x.wbio ++ [some env] }) sent := by
  subst hx hq
  obtain ⟨he, hq⟩ := forall_mem_cons.1 h.outq
  refine { h with outq := hq, wbio := ?_ }
  rintro _ ⟨⟩ env' hm
  rcases mem_append.1 hm with hm | hm
  · exact h.wbio x rfl env' hm
  · cases (mem_singleton.1 hm)
    exact he

lemma shake {n : ℕ} (hy : y.wbio = x.wbio ++ replicate n none)
    (hs : y.session = x.session ∨ ∃ s, B s ∧ y.session = some s) : Wire S B outq (some y) sent := by
  subst hx
  refine { h with wbio := ?_, session := fun s hs' => ?_ }
  · rintro _ ⟨⟩ env he
    rw [hy] at he
    exact h.wbio x rfl env (by simpa [mem_replicate] using he)
  · obtain hs | ⟨s', hB, hs⟩ := hs
    · exact h.session s (hs.symm.trans hs')
    · cases hs.symm.trans hs'
      exact hB

end

end Wire

/-! ## The agent -/

/-- What the agent says, and the ids of its local flows are ids of envelopes. -/
structure Says (S : Bytes → Prop) (B : Ref → Prop) (a : App) : Prop extends
    Wire S B a.udpOutq a.ssl a.sent where
  flows : ∀ f ∈ a.udpFlows, f.flowId ≠ 0 ∧ f.flowId < 2 ^ 64

namespace Says

variable {a a' : App} {ans : List Udp.SslAns}

lemma init : Says S B {} := ⟨⟨nofun, nofun, nofun, nofun⟩, nofun⟩

lemma act (h : Says S B a) (ha : Act S B a a') : Says S B a' := by
  cases ha with
  | pump hp =>
    cases hp with
    | stop =>
      unfold udpStop
      split_ifs
      · exact h
      · exact ⟨h.stop, nofun⟩
    | flush hx => exact ⟨h.flush hx, h.flows⟩
    | write hx hq => exact ⟨h.write hx hq, h.flows⟩
  | queue he => exact ⟨h.queue he, h.flows⟩
  | shake hx _ hy hs => exact ⟨h.shake hx hy (hs.imp_left And.right), h.flows⟩
  | auth => exact { h with }
  | flows hf =>
    refine { h with flows := fun f hm => ?_ }
    obtain hf | ⟨g, hg, he⟩ := hf f hm
    · exact hf
    · exact he ▸ h.flows g hg

lemma acts (h : Says S B a) (ha : Acts S B a a') : Says S B a' := by
  induction ha with
  | refl => exact h
  | tail _ ha ih => exact ih.act ha

lemma udpStart (h : Says S B a) (addr : Addr) (ok : Bool) (recs : ℕ) (ended : List Ref) :
    Says S B (udpStart addr ok recs ended ans a) := by
  obtain he | ⟨-, he⟩ := udpStart_cases addr ok recs ended
  · exact he ▸ h
  · rw [he]
    refine acts ?_ acts_pumpOut
    exact ⟨h.start recs, h.flows⟩

end Says

end AgentUdp

/-! ## A peer -/

namespace PeerUdp

structure Numbered (next : ℕ) (created : List (ℕ × Addr)) : Prop where
  lt : next < 2 ^ 64
  ids : ∀ e ∈ created, e.1 ≠ 0 ∧ e.1 < 2 ^ 64
  counted : created.length < 2 ^ 64 →
    next = (if created = [] then 0 else (created.length + 1) % 2 ^ 64) ∧
      (created.map Prod.fst).Nodup ∧ ∀ e ∈ created, e.1 ≤ created.length

/-- A flow belongs to the application that its id was given to, as does what is taken and delivered
under it; what is delivered was read, and meets `R`; and what meets `T` has been taken. -/
structure Tabled (R : Udp.Queued → Prop) (T : Taken → Prop) (p : App) : Prop where
  flows : ∀ f ∈ p.udpFlows, (f.flowId, f.src) ∈ p.created
  taken : ∀ d ∈ p.taken, ∃ src, (d.flowId, src) ∈ p.created ∧
    (src = d.src ∨ tmAddrEq src d.src = true)
  old : ∀ d, T d → d ∈ p.taken
  delivered : ∀ d ∈ p.delivered, (d.flowId, d.dst) ∈ p.created ∧
    ∃ q, R q ∧ q.reply = d.reply ∧ tmEnvDecode q.env =
      some { flowId := d.flowId, flags := 0, payload := d.payload }
  ids : Numbered p.nextFlowId p.created

variable {cfg : Cfg} {R : Udp.Queued → Prop} {T : Taken → Prop} {p p' : App} {now : ℕ}

/-! ### Its flow ids -/

variable {n : ℕ} {flows : List Flow} {R' : Udp.Queued → Prop} {T' : Taken → Prop} {f : Flow}
variable {src : Addr} {q : Udp.Queued}

lemma nextId_lt (h : n < 2 ^ 64) :
    (nextId n).1 ≠ 0 ∧ (nextId n).1 < 2 ^ 64 ∧ (nextId n).2 < 2 ^ 64 := by
  unfold nextId
  dsimp only
  split_ifs with hn
  · subst hn
    decide
  · exact ⟨hn, h, mod_lt _ (by decide)⟩

lemma flowIdNew_lt (flows : List Flow) (k : ℕ) (h : n < 2 ^ 64) :
    (flowIdNew flows k n).1 ≠ 0 ∧ (flowIdNew flows k n).1 < 2 ^ 64 ∧
      (flowIdNew flows k n).2 < 2 ^ 64 := by
  induction k generalizing n with
  | zero => exact nextId_lt h
  | succ k ih =>
    unfold flowIdNew
    dsimp only
    split_ifs
    · exact ih (nextId_lt h).2.2
    · exact nextId_lt h

lemma flowIdNew_eq (h : ∀ f ∈ flows, f.flowId ≠ (nextId n).1)
    (k : ℕ) : flowIdNew flows k n = nextId n := by
  cases k with
  | zero => rfl
  | succ =>
    have hf : ¬ (flows.any (·.flowId = (nextId n).1)) = true := by simpa using h
    unfold flowIdNew
    dsimp only
    rw [if_neg hf]

lemma nextId_counted {m : ℕ} (hm : m + 1 < 2 ^ 64)
    (hn : n = if m = 0 then 0 else (m + 1) % 2 ^ 64) : nextId n = (m + 1, (m + 2) % 2 ^ 64) := by
  unfold nextId
  dsimp only
  split_ifs at hn with h0
  · subst hn h0
    rfl
  · rw [mod_eq_of_lt hm] at hn
    rw [if_neg (by omega), hn]

lemma Numbered.create {next : ℕ} {created : List (ℕ × Addr)}
    (h : Numbered next created) (hf : ∀ f ∈ flows, (f.flowId, f.src) ∈ created) (k : ℕ)
    (src : Addr) :
    Numbered (flowIdNew flows k next).2 (((flowIdNew flows k next).1, src) :: created) := by
  obtain ⟨h0, hlt, hn⟩ := flowIdNew_lt flows k h.lt
  refine ⟨hn, forall_mem_cons.2 ⟨⟨h0, hlt⟩, h.ids⟩, fun hl => ?_⟩
  rw [length_cons] at hl
  obtain ⟨hnext, hnd, hle⟩ := h.counted (by omega)
  have hid : nextId next = (created.length + 1, (created.length + 2) % 2 ^ 64) :=
    nextId_counted hl (by simpa [length_eq_zero_iff] using hnext)
  have hnew : ∀ f ∈ flows, f.flowId ≠ (nextId next).1 := by
    intro f hm
    have := hle _ (hf f hm)
    rw [hid]
    omega
  rw [flowIdNew_eq hnew, hid]
  refine ⟨rfl, ?_, ?_⟩
  · rw [map_cons, nodup_cons]
    refine ⟨fun hm => ?_, hnd⟩
    obtain ⟨e, he, hi⟩ := mem_map.1 hm
    have := hle e he
    omega
  · rw [length_cons]
    exact forall_mem_cons.2 ⟨le_rfl, fun e he => le_succ_of_le (hle e he)⟩

/-! ### Its table -/

namespace Tabled

lemma init {b : Backoff} : Tabled R (fun _ => False) { backoff := b } :=
  ⟨nofun, nofun, nofun, nofun, Nat.two_pow_pos 64, nofun, fun _ => by simp⟩

section

variable (h : Tabled R T p)
include h

lemma rebase (hR : ∀ q, R q → R' q) (hT : ∀ d, T' d → d ∈ p.taken) : Tabled R' T' p :=
  { h with
    old := hT
    delivered := fun d hd => ⟨(h.delivered d hd).1,
      (h.delivered d hd).2.imp fun q hq => ⟨hR q hq.1, hq.2⟩⟩ }

lemma touch (id now : ℕ) : Tabled R T (touch id now p) := by
  refine { h with flows := fun f hf => ?_ }
  obtain ⟨f', hf', rfl⟩ := mem_map.1 hf
  have := h.flows f' hf'
  split_ifs <;> exact this

lemma create (src : Addr) (now : ℕ) : Tabled R T (flowCreate src now p).2 where
  flows := forall_mem_cons.2 ⟨mem_cons_self, fun f hf => mem_cons_of_mem _ (h.flows f hf)⟩
  taken d hd := by
    obtain ⟨a, ha, he⟩ := h.taken d hd
    exact ⟨a, mem_cons_of_mem _ ha, he⟩
  old := h.old
  delivered d hd := ⟨mem_cons_of_mem _ (h.delivered d hd).1, (h.delivered d hd).2⟩
  ids := h.ids.create h.flows _ src

lemma take (hf : f ∈ p.udpFlows) (data : Bytes) (hs : f.src = src ∨ tmAddrEq f.src src = true) :
    Tabled R T { p with taken := { flowId := f.flowId, src := src, data := data } :: p.taken } :=
  { h with
    taken := forall_mem_cons.2 ⟨⟨f.src, h.flows f hf, hs⟩, h.taken⟩
    old := fun d hd => mem_cons_of_mem _ (h.old d hd) }

lemma deliver (now : ℕ) (hq : R q) (he : tmEnvDecode q.env = some e) (hf : e.flags = 0)
    (hm : f ∈ p.udpFlows) (hid : f.flowId = e.flowId) :
    Tabled R T { PeerUdp.touch e.flowId now p with
      delivered := { flowId := e.flowId, dst := f.src, payload := e.payload, reply := q.reply } ::
        p.delivered } := by
  have hc := h.flows f hm
  refine { h.touch e.flowId now with delivered := forall_mem_cons.2 ⟨⟨?_, q, hq, rfl, ?_⟩,
    h.delivered⟩ }
  · rw [hid] at hc
    exact hc
  · rw [he, ← hf]

end

end Tabled

/-! ### Its events -/

structure Kept (cfg : Cfg) (B : Ref → Prop) (R : Udp.Queued → Prop) (T : Taken → Prop) (p : App) :
    Prop where
  wire : AgentUdp.Wire (p.Said cfg) B (p.udpOutq.getD []) p.ssl p.sent
  tabled : Tabled R T p

namespace Kept

section

variable (h : Kept cfg B R T p)
include h

lemma rebase (hB : ∀ s, p.ssl.bind AgentUdp.Ssl.session = some s → B' s) (hR : ∀ q, R q → R' q)
    (hT : ∀ d, T' d → d ∈ p.taken) : Kept cfg B' R' T' p :=
  ⟨{ h.wire with session := hB }, h.tabled.rebase hR hT⟩

lemma setHandle (w : Which) (x : Handle) : Kept cfg B R T (p.setHandle w x) := by
  cases w <;> exact ⟨h.wire, { h.tabled with }⟩

lemma uvInit (w : Which) : Kept cfg B R T (p.uvInit w) :=
  ⟨(h.setHandle w .live).wire, { (h.setHandle w .live).tabled with }⟩

lemma uvClose (w : Which) : Kept cfg B R T (p.uvClose w) := by
  unfold App.uvClose
  split_ifs
  · exact h.setHandle _ _
  · exact h

lemma endSession : Kept cfg B R T (endSession p) := by
  have h' := (h.uvClose .brokerUdp).uvClose .localUdp
  exact ⟨h'.wire.stop, { h'.tabled with flows := nofun }⟩

lemma stop : Kept cfg B R T (tmPeerUdpStop p) := by
  unfold tmPeerUdpStop
  split_ifs
  · exact h
  · exact h.endSession
  · have h' := h.endSession.uvInit .reconnectTimer
    exact ⟨h'.wire, { h'.tabled with }⟩

lemma start (r : StartAns) (ended : List Ref) : Kept cfg B R T (tmPeerUdpStart r ended p) := by
  unfold tmPeerUdpStart
  split_ifs
  · exact h
  have hl := h.uvInit .localUdp
  cases r
  all_goals dsimp only
  case badListenHost => exact hl
  case bindFails => exact hl.uvClose _
  case badBrokerHost => exact hl.uvInit _
  case connectFails | sslFails | configureFails | bioFails => exact (hl.uvInit _).uvClose _
  case ok addr recs =>
    have hi := ((hl.uvInit .brokerUdp).uvInit .udpFlowTimer).uvInit .udpTimer
    exact ⟨(hi.wire.start recs).flush rfl, { hi.tabled with }⟩

lemma act (ha : Act cfg B R p p') : Kept cfg B R T p' := by
  cases ha with
  | stop => exact h.stop
  | flush hx => exact ⟨h.wire.flush hx, { h.tabled with }⟩
  | write hx hq => exact ⟨h.wire.write hx hq, { h.tabled with }⟩
  | queue _ he => exact ⟨h.wire.queue he, { h.tabled with }⟩
  | shake hx hy hs => exact ⟨h.wire.shake hx hy hs, { h.tabled with }⟩
  | auth => exact ⟨h.wire, { h.tabled with }⟩
  | create src now => exact ⟨h.wire, h.tabled.create src now⟩
  | take data now _ hf hs =>
    refine ⟨h.wire.mono (fun env => ?_) fun _ => id, (h.tabled.take hf data hs).touch _ now⟩
    exact .imp_right (.imp_right fun ⟨d, hd, he⟩ => ⟨d, mem_cons_of_mem _ hd, he⟩)
  | deliver now _ hq he hf hm hid => exact ⟨h.wire, h.tabled.deliver now hq he hf hm hid⟩
  | sweep =>
    exact ⟨h.wire, { h.tabled with flows := fun f hf => h.tabled.flows f (mem_filter.1 hf).1 }⟩

lemma acts (ha : Acts cfg B R p p') : Kept cfg B R T p' := by
  induction ha with
  | refl => exact h
  | tail _ ha ih => exact ih.act ha

end

lemma init {r : StartAns} (hi : Init r p) : Kept cfg B R (fun _ => False) p := by
  obtain ⟨ended, max, clock, rfl⟩ := hi
  have h : Kept cfg B R (fun _ => False)
      { backoff := { reconnectMaxDelayMs := max, clock := clock } } :=
    ⟨⟨nofun, nofun, nofun, nofun⟩, .init⟩
  exact h.start r ended

lemma handle {ended : List Ref} {ev : Event} (h : Kept cfg B R T p)
    (hs : handle cfg ended now p ev = some p')
    (hB : ∀ hs s reads ans, ev = .udpRecv hs s reads ans →
      ∀ x, p.ssl = some x → x.initFinished = false → B s)
    (hR : ∀ hs s reads ans, ev = .udpRecv hs s reads ans →
      ∀ x, p.ssl = some x → x.initFinished = true → ∀ q ∈ reads, R q) : Kept cfg B R T p' := by
  cases ev
  all_goals simp only [PeerUdp.handle] at hs
  case start r =>
    cases hs
    exact h.start r ended
  case stop =>
    cases hs
    exact h.stop
  case reconnect r =>
    split_ifs at hs
    cases hs
    have h' : Kept cfg B R T { p with reconnectTimerOn := false } := ⟨h.wire, { h.tabled with }⟩
    unfold udpReconnect
    dsimp only
    split_ifs
    · exact h'
    · exact (h'.uvClose .reconnectTimer).start r ended
  case closed w =>
    split_ifs at hs
    cases hs
    exact h.setHandle w _
  case shutdown =>
    cases hs
    unfold tmPeerShutdown
    split_ifs
    · exact h
    · exact stop ⟨h.wire, { h.tabled with }⟩
  case localRecv src data ans =>
    split_ifs at hs
    cases hs
    exact h.acts (acts_localRecv src data)
  case udpRecv hs' s reads ans =>
    split_ifs at hs
    cases hs
    exact h.acts (acts_udpRecv (hB _ _ _ _ rfl) (hR _ _ _ _ rfl))
  case flowSweep =>
    split_ifs at hs
    cases hs
    exact h.act (.sweep now)
  case keepalive ans =>
    split_ifs at hs
    cases hs
    exact h.acts acts_keepalive

end Kept

end PeerUdp

end TunnelMate
