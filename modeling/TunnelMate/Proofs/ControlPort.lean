import TunnelMate.ControlPort
import TunnelMate.Proofs.Owners
import TunnelMate.Proofs.PeerIso
import TunnelMate.Proofs.Reader
import TunnelMate.Proofs.Registry

/-!
# The read loops of the control port

A read of the control port is a run of the broker, one event for each frame (`Passes`), so what
holds of every run of the broker holds here.
-/

namespace TunnelMate

open List Option Table Nat

namespace ControlPort

variable {digest : Bytes → Digest} {b b' b₀ : Broker} {s s' : ControlPort} {c : Conn} {f : Frame}
  {w : Write} {k : Bool} {n : ℕ} {fed : Fed} {a : Ref} {data : Bytes}

/-! ## Streams and connections under a frame -/

lemma quiet_iff : b.quiet none = true ↔ ∀ x ∈ b.streams, x.relay.todo = [] := by
  simp [Broker.quiet]

lemma quiet_of_subset (h : b'.streams ⊆ b.streams) (hq : b.quiet none = true) :
    b'.quiet none = true :=
  quiet_iff.2 fun x hx => quiet_iff.1 hq x (h hx)

lemma subset_of_streams (h : b'.streams = b.streams) : b'.streams ⊆ b.streams :=
  fun _ hx => h ▸ hx

lemma streams_tmStreamClose (st : Ref) : (tmStreamClose st b).streams ⊆ b.streams :=
  fun _ hx => (mem_tmStreamClose.1 hx).1

/-! A frame either ends the pending connection or leaves every stream alone but one it closes. -/

lemma get_connUnlink (r : Ref) : get r (connUnlink r b).conns = none :=
  get_none.2 fun _ hx => (mem_del.1 hx).2

lemma get_connClose (r : Ref) : get r (connClose r b).conns = none := get_connUnlink r

lemma dataConnFirstFrame_ends (h : dataConnFirstFrame digest c f w b = some b') :
    get c.ref b'.conns = none := by
  have fails : ∀ {t : Sent} {b₁ : Broker}, t.conn = c.ref → some (sendAndClose t w b₁) = some b' →
      get c.ref b'.conns = none := by
    rintro t b₁ ht ⟨⟩
    exact ht ▸ get_connClose _
  unfold dataConnFirstFrame at h
  split_ifs at h
  · cases h
    exact get_connClose _
  split at h
  · exact fails rfl h
  split at h
  · cases h
  split_ifs at h
  · exact fails rfl h
  · exact fails rfl h
  · unfold dataConnAttach at h
    split at h
    · cases h
    · obtain ⟨b₁, -, rfl⟩ := map_eq_some_iff.1 h
      exact get_connUnlink _

variable {t : Tunnel} {l : Label} {r : Ref}

lemma peerOpenStream_ends (h : peerOpenStream c t w k b = some b') :
    get c.ref b'.conns = none := by
  have fails : ∀ {t : Sent}, t.conn = c.ref → some (sendAndClose t w b) = some b' →
      get c.ref b'.conns = none := by
    rintro t ht ⟨⟩
    exact ht ▸ get_connClose _
  unfold peerOpenStream at h
  split_ifs at h
  · exact fails rfl h
  · exact fails rfl h
  split at h
  · exact fails rfl h
  · obtain ⟨b₁, -, rfl⟩ := map_eq_some_iff.1 h
    exact get_connUnlink _

lemma agentRegister_ends (h : TunnelMate.agentRegister digest c f w b = some b') :
    get c.ref b'.conns = none := by
  unfold TunnelMate.agentRegister at h
  split at h
  · cases h
    exact get_connClose _
  split at h
  · cases h
    exact get_connClose _
  unfold TunnelMate.agentPromote at h
  split at h
  · cases h
    exact get_connUnlink _
  · cases h
    exact get_connUnlink _
  · cases h

lemma peerAuth_streams : (peerAuth digest c f w b).streams = b.streams := by
  unfold peerAuth
  split
  · exact streams_sendFrameRaw _
  split
  · exact streams_sendFrameRaw _
  · exact streams_sendFrameRaw _

lemma peerFrame_streams (h : peerFrame c f w k b = some b') :
    get c.ref b'.conns = none ∨ b'.streams ⊆ b.streams := by
  unfold peerFrame at h
  split at h
  · split_ifs at h
    · split at h
      · cases h
        exact .inl (get_connClose _)
      · obtain ⟨t, -, h⟩ := bind_eq_some_iff.1 h
        exact .inl (peerOpenStream_ends h)
    · cases h
      exact .inl (get_connClose _)
  · obtain ⟨t, -, rfl⟩ := map_eq_some_iff.1 h
    split
    · exact .inr (.refl _)
    · exact .inr (streams_tmStreamClose _)
  · cases h
    exact .inr (subset_of_streams (streams_sendFrameRaw _))
  · cases h
    exact .inl (get_connClose _)

lemma connFrame_streams (h : connFrame digest c f w k b = some b') :
    get c.ref b'.conns = none ∨ b'.streams ⊆ b.streams := by
  unfold connFrame at h
  split_ifs at h
  · split at h
    · cases h
      exact .inr (subset_of_streams (streams_sendFrameRaw _))
    · exact .inl (dataConnFirstFrame_ends h)
    · cases h
      exact .inl (get_connClose _)
  · exact peerFrame_streams h
  · split at h
    · exact .inl (agentRegister_ends h)
    · cases h
      exact .inr (subset_of_streams peerAuth_streams)
    · cases h
      exact .inr (subset_of_streams (streams_sendFrameRaw _))
    · cases h
      exact .inl (get_connClose _)

/-! ## Agents under a frame -/

lemma get_tmAgentDrop (a : Ref) : get a (tmAgentDrop a b).agents = none := by
  unfold tmAgentDrop
  split
  · assumption
  · exact get_none.2 fun _ hx => (mem_del.1 hx).2

variable {x : Agent} {e : BrokerEvent}

lemma agentSwitch_eq (hx : get a b.agents = some x) :
    ((agentSwitch a f w b).bind fun b' => (get a b'.agents).map fun _ => b') =
      agentFrame x f (w = .taken) b := by
  have hr : x.ref = a := key_of_get hx
  have closes : ∀ b' : Broker, b'.agents = b.agents →
      (get a b'.agents).map (fun _ => b') = some b' := by
    intro b' h
    rw [h, hx]
    rfl
  unfold agentSwitch agentFrame
  cases f.type
  case ping =>
    -- the agent is there after its PONG exactly if the write was taken
    simp only [hx, map_some, bind_some, hr, tmAgentSendFrame]
    cases w
    case taken => exact closes _ rfl
    all_goals
      simp only [reduceCtorEq, decide_false, Bool.false_eq_true, if_false]
      rw [get_tmAgentDrop]
      rfl
  case openStreamError | closeStream | killStream =>
    simp only [hx, map_some, bind_some]
    cases tmStreamFind x.tun f.streamId b with
    | none => exact closes _ rfl
    | some => exact closes _ (agents_tmStreamClose _)
  all_goals exact closes _ rfl

lemma agentFrame_streams (h : agentFrame x f k b = some b') : b'.streams ⊆ b.streams := by
  unfold agentFrame at h
  cases hf : f.type <;> simp only [hf] at h
  case ping =>
    split_ifs at h
    cases h
    exact .refl _
  case openStreamError | closeStream | killStream =>
    split at h <;> cases h
    · exact .refl _
    · exact streams_tmStreamClose _
  all_goals
    cases h
    exact .refl _

/-! ## Reads as runs of the broker -/

lemma conns_move (hm : Move digest b₀ e b b') (he : e ≠ .controlAccept) :
    ∀ c' ∈ b'.conns, ∃ c ∈ b.conns, c.ref = c'.ref := by
  have same : ∀ {b' : Broker}, b'.conns = b.conns →
      ∀ c' ∈ b'.conns, ∃ c ∈ b.conns, c.ref = c'.ref :=
    fun h c' hc' => ⟨c', h ▸ hc', rfl⟩
  have unlinked : ∀ {r : Ref}, ∀ c' ∈ del r b.conns, ∃ c ∈ b.conns, c.ref = c'.ref :=
    fun c' hc' => ⟨c', (mem_del.1 hc').1, rfl⟩
  have updated : ∀ {r : Ref} {g : Conn → Conn}, (∀ c, (g c).ref = c.ref) →
      ∀ c' ∈ upd r g b.conns, ∃ c ∈ b.conns, c.ref = c'.ref := by
    intro r g hg c' hc'
    obtain ⟨c, hc, rfl⟩ := mem_upd.1 hc'
    refine ⟨c, hc, ?_⟩
    split_ifs
    · exact (hg c).symm
    · rfl
  cases hm with
  | misc hc => exact same (Broker.core_eq.1 hc).2.2.2.1
  | accept ha => exact absurd ha he
  | closeConn | addAgent | peerStream | attach => exact unlinked
  | hello _ | auth _ _ _ => exact updated fun _ => rfl
  | _ =>
    exact same rfl

def Passes (digest : Bytes → Digest) : Broker → Broker → Prop :=
  Relation.ReflTransGen fun b b' => ∃ e, e ≠ .controlAccept ∧ brokerStep digest b e = some b'

lemma Passes.head {b₁ : Broker} (hs : brokerStep digest b e = some b₁)
    (he : e ≠ .controlAccept) (h : Passes digest b₁ b') : Passes digest b b' :=
  Relation.ReflTransGen.head ⟨e, he, hs⟩ h

lemma Passes.of_step (h : brokerStep digest b e = some b')
    (he : e ≠ .controlAccept) : Passes digest b b' :=
  .head h he .refl

structure Later (digest : Bytes → Digest) (b b' : Broker) : Prop where
  trace : ∃ tr, Trace (brokerStep digest) BrokerInit tr b'
  cfg : b'.cfg = b.cfg
  next : b.nextRef ≤ b'.nextRef
  conns : ∀ c' ∈ b'.conns, ∃ c ∈ b.conns, c.ref = c'.ref

lemma Passes.later (h : Passes digest b b')
    (ht : ∃ tr, Trace (brokerStep digest) BrokerInit tr b) : Later digest b b' := by
  induction h with
  | refl => exact ⟨ht, rfl, le_refl _, fun c' hc' => ⟨c', hc', rfl⟩⟩
  | @tail c d _ hs ih =>
    obtain ⟨e, he, hs⟩ := hs
    obtain ⟨tr, htr⟩ := ih.trace
    have hw := Wf.of_trace htr
    have hstep : d.cfg = c.cfg ∧ c.nextRef ≤ d.nextRef ∧
        ∀ x ∈ d.conns, ∃ y ∈ c.conns, y.ref = x.ref := by
      refine (step_moves hw hs).inv (I := fun d => d.cfg = c.cfg ∧ c.nextRef ≤ d.nextRef ∧
        ∀ x ∈ d.conns, ∃ y ∈ c.conns, y.ref = x.ref) hw
        ⟨rfl, le_refl _, fun x hx => ⟨x, hx, rfl⟩⟩ fun d d' _ hm hi => ?_
      obtain ⟨hcfg, hn, hc⟩ := hi
      refine ⟨hm.cfg_eq.trans hcfg, hn.trans hm.nextRef_le, fun x hx => ?_⟩
      obtain ⟨y, hy, hyx⟩ := conns_move hm he x hx
      obtain ⟨z, hz, hzy⟩ := hc y hy
      exact ⟨z, hz, hzy.trans hyx⟩
    refine ⟨⟨_, htr.next hs⟩, hstep.1.trans ih.cfg, ih.next.trans hstep.2.1, fun x hx => ?_⟩
    obtain ⟨y, hy, hyx⟩ := hstep.2.2 x hx
    obtain ⟨z, hz, hzy⟩ := ih.conns y hy
    exact ⟨z, hz, hzy.trans hyx⟩

def statuses (s : ControlPort) : List (Ref × Option ℕ × Bool) :=
  s.lines.map fun l => (l.ref, l.hsTimer, l.ready)

@[simp]
lemma statuses_feed (r : Ref) (data : Bytes) : (s.feed r data).1.statuses = s.statuses :=
  map_upd fun _ _ _ => rfl

lemma connLoop_passes (r : Ref) (ws : List FrameWrites) (hq : s.broker.quiet none = true)
    (hc : get r s.broker.conns ≠ none) (h : connLoop digest r n fed ws s = some s') :
    Passes digest s.broker s'.broker ∧ s'.statuses = s.statuses := by
  fun_induction connLoop digest r n fed ws s with
  | case1 =>
    cases h
    exact ⟨.refl, rfl⟩
  | case2 _ ws s =>
    cases h
    obtain ⟨x, hx⟩ := ne_none_iff_exists'.1 hc
    refine ⟨.of_step (e := .connEnd r true) ?_ (by simp), rfl⟩
    obtain rfl : x.ref = r := key_of_get hx
    simp [brokerStep, hq, handleEvent, hx]
  | case3 => cases h
  | case4 n f ws s w ih =>
    obtain ⟨x, hx, h⟩ := bind_eq_some_iff.1 h
    obtain ⟨b, hb, h⟩ := bind_eq_some_iff.1 h
    obtain rfl : x.ref = r := key_of_get hx
    have hs : brokerStep digest s.broker (.connFrame x.ref f w.1 w.2) = some b := by
      simp [brokerStep, hq, handleEvent, hx, hb]
    dsimp only at h
    split at h
    · cases h
      exact ⟨.of_step hs (by simp), rfl⟩
    · rename_i hg
      have hne : get x.ref b.conns ≠ none := by simp [hg]
      have hq' := quiet_of_subset ((connFrame_streams hb).resolve_left hne) hq
      obtain ⟨hp, hst⟩ := ih _ _ hq' hne h
      exact ⟨.head hs (by simp) hp, hst.trans (statuses_feed _ _)⟩

lemma agentLoop_passes (a : Ref) (ws : List Write) (hq : s.broker.quiet none = true)
    (ha : get a s.broker.agents ≠ none) (h : agentLoop a n fed ws s = some s') :
    Passes digest s.broker s'.broker ∧ s'.statuses = s.statuses := by
  fun_induction agentLoop a n fed ws s with
  | case1 =>
    cases h
    exact ⟨.refl, rfl⟩
  | case2 _ ws s =>
    obtain ⟨x, hx, rfl⟩ := map_eq_some_iff.1 h
    refine ⟨.of_step (e := .agentEnd x.ref) ?_ (by simp), rfl⟩
    simp [brokerStep, hq, handleEvent]
  | case3 => cases h
  | case4 n f ws s ih =>
    obtain ⟨b, hb, h⟩ := bind_eq_some_iff.1 h
    obtain ⟨y, hy, h⟩ := bind_eq_some_iff.1 h
    obtain ⟨x, hx⟩ := ne_none_iff_exists'.1 ha
    have hf : agentFrame x f (ws.headD .taken = .taken) s.broker = some b := by
      rw [← agentSwitch_eq hx, hb, bind_some, hy, map_some]
    have hs : brokerStep digest s.broker (.agentFrame a f (ws.headD .taken = .taken)) = some b := by
      simp only [brokerStep, hq, if_true, handleEvent, hx, bind_some, hf]
    have hne : get a b.agents ≠ none := by simp [hy]
    obtain ⟨hp, hst⟩ := ih _ _ (quiet_of_subset (agentFrame_streams hf) hq) hne h
    exact ⟨.head hs (by simp) hp, hst.trans (statuses_feed y.conn [])⟩

/-! ## Steps -/

inductive Turn (digest : Bytes → Digest) (s : ControlPort) : Label → ControlPort → Prop
  | accept : s.broker.quiet none = true → Turn digest s .accept s.onControlAccept
  | ready (c : Ref) : Turn digest s (.ready c) (s.connReady c)
  | timeout (c : Ref) : s.broker.quiet none = true → c ∈ s.broker.timers →
      Turn digest s (.hsTimeout c) (s.connHsTimeout c)
  | pass {l : Label} {s' : ControlPort} : Passes digest s.broker s'.broker →
      s'.statuses = s.statuses → l ≠ .accept → (∀ c, l ≠ .ready c) → Turn digest s l s'

lemma step_turn (h : step digest s l = some s') : Turn digest s l s' := by
  cases l with
  | other =>
    simp only [step] at h
    split_ifs at h with hr
    obtain ⟨b, hb, rfl⟩ := map_eq_some_iff.1 h
    refine .pass (.of_step hb ?_) rfl nofun nofun
    rintro rfl
    exact hr rfl
  | accept =>
    simp only [step] at h
    split_ifs at h with hq
    cases h
    exact .accept (by simpa using hq)
  | ready c =>
    simp only [step] at h
    split_ifs at h
    cases h
    exact .ready c
  | hsTimeout c =>
    simp only [step] at h
    split_ifs at h with hq hd
    cases h
    refine .timeout c (by simpa using hq) ?_
    by_contra hc
    simp [armed, hc] at hd
  | read c data ws =>
    simp only [step] at h
    split_ifs at h with hq hc
    have hq : s.broker.quiet none = true := by simpa using hq
    obtain ⟨hp, hst⟩ := connLoop_passes (s := (s.feed c data).1) c ws hq hc.1 h
    exact .pass hp (hst.trans (statuses_feed c data)) nofun nofun
  | agentRead a data ws =>
    simp only [step] at h
    split_ifs at h with hq
    have hq : s.broker.quiet none = true := by simpa using hq
    obtain ⟨x, hx, h⟩ := bind_eq_some_iff.1 h
    have hne : get a s.broker.agents ≠ none := by simp [hx]
    obtain ⟨hp, hst⟩ := agentLoop_passes (s := (s.feed x.conn data).1) a ws hq hne h
    exact .pass hp (hst.trans (statuses_feed x.conn data)) nofun nofun

lemma connHsTimeout_passes {tr : List (Broker × BrokerEvent)}
    (ht : Trace (brokerStep digest) BrokerInit tr s.broker) (hq : s.broker.quiet none = true)
    (hr : r ∈ s.broker.timers) : Passes digest s.broker (s.connHsTimeout r).broker := by
  rw [(Owned.of_trace ht).timers] at hr
  obtain ⟨x, hx, rfl⟩ := mem_map.1 hr
  have hg : get x.ref s.broker.conns = some x := get_of_mem (Wf.of_trace ht).conns.nodup hx
  refine .of_step (e := .connEnd x.ref false) ?_ nofun
  simp [brokerStep, hq, handleEvent, hg, connHsTimeout]

lemma onControlAccept_broker : s.onControlAccept.broker = TunnelMate.onControlAccept s.broker := by
  unfold ControlPort.onControlAccept TunnelMate.onControlAccept
  split_ifs <;> rfl

lemma Turn.later (h : Turn digest s l s')
    (ht : ∃ tr, Trace (brokerStep digest) BrokerInit tr s.broker) (hl : l ≠ .accept) :
    Later digest s.broker s'.broker := by
  cases h with
  | accept => exact absurd rfl hl
  | ready => exact Passes.later .refl ht
  | timeout c hq hc =>
    obtain ⟨tr, ht'⟩ := ht
    exact (connHsTimeout_passes ht' hq hc).later ⟨tr, ht'⟩
  | pass hp => exact hp.later ht

lemma broker_trace {tr : List (ControlPort × Label)} (h : Trace (step digest) Init tr s) :
    ∃ tr', Trace (brokerStep digest) BrokerInit tr' s.broker := by
  refine h.inv (I := fun s => ∃ tr', Trace (brokerStep digest) BrokerInit tr' s.broker)
    (fun s hi => ⟨[], .start hi.1⟩) fun s l s' hi hs => ?_
  have ht := step_turn hs
  by_cases hl : l = .accept
  · subst hl
    cases ht with
    | accept hq =>
      obtain ⟨tr', ht'⟩ := hi
      refine ⟨_, ht'.next (i := .controlAccept) ?_⟩
      simp [brokerStep, hq, handleEvent, onControlAccept_broker]
    | pass _ _ ha => exact absurd rfl ha
  · exact (ht.later hi hl).trace

/-! ## The handshake timer -/

section

variable {tr : List (ControlPort × Label)} {p : ControlPort × Label} {r : Ref} {d : Option ℕ}

/-- The timer of the connection `r` is due at `d`: it was started when the connection was accepted,
and runs until the TLS handshake is complete. -/
def Started (timeoutMs : ℤ) (tr : List (ControlPort × Label)) (r : Ref) (d : Option ℕ) : Prop :=
  (∃ p ∈ tr, p.2 = .ready r) ∨
    ∃ p ∈ tr, p.2 = .accept ∧ p.1.broker.nextRef = r ∧
      d = some (uvTimerDue p.1.broker.loop timeoutMs)

lemma Started.cons {timeoutMs : ℤ} (h : Started timeoutMs tr r d) :
    Started timeoutMs (p :: tr) r d :=
  h.imp (fun ⟨q, hq, h⟩ => ⟨q, mem_cons_of_mem _ hq, h⟩)
    fun ⟨q, hq, h⟩ => ⟨q, mem_cons_of_mem _ hq, h⟩

structure Timed (tr : List (ControlPort × Label)) (s : ControlPort) : Prop where
  fresh : Table.Fresh s.broker.nextRef s.lines
  timer : ∀ c ∈ s.broker.conns, ∃ l ∈ s.lines, l.ref = c.ref ∧
    Started s.broker.cfg.handshakeTimeoutMs tr c.ref l.hsTimer

namespace Timed

lemma init (h : Init s) : Timed [] s := by
  obtain ⟨⟨cfg, -, hb⟩, hl⟩ := h
  refine ⟨hl ▸ .nil, fun c hc => ?_⟩
  rw [hb] at hc
  cases hc

section

variable (h : Timed tr s)
include h

lemma accept : Timed ((s, .accept) :: tr) s.onControlAccept := by
  unfold ControlPort.onControlAccept
  split_ifs with hf
  · exact ⟨h.fresh, fun c hc => (h.timer c hc).imp fun l hl => ⟨hl.1, hl.2.1, hl.2.2.cons⟩⟩
  · have hb : TunnelMate.onControlAccept s.broker =
        { s.broker with
          conns := { ref := s.broker.nextRef } :: s.broker.conns
          nextRef := s.broker.nextRef + 1
          timers := s.broker.nextRef :: s.broker.timers
          ioMade := .ssl s.broker.nextRef :: s.broker.ioMade } := if_neg hf
    rw [hb]
    refine ⟨h.fresh.cons rfl, forall_mem_cons.2 ⟨?_, fun c hc => ?_⟩⟩
    · exact ⟨_, mem_cons_self, rfl, .inr ⟨_, mem_cons_self, rfl, rfl, rfl⟩⟩
    · obtain ⟨l, hl, hr, ht⟩ := h.timer c hc
      exact ⟨l, mem_cons_of_mem _ hl, hr, ht.cons⟩

lemma ready (r : Ref) : Timed ((s, .ready r) :: tr) (s.connReady r) := by
  refine ⟨h.fresh.upd fun _ _ he => he, fun c hc => ?_⟩
  obtain ⟨l, hl, hr, ht⟩ := h.timer c hc
  by_cases he : l.ref = r
  · exact ⟨_, mem_upd_self hl he, hr,
      .inl ⟨_, mem_cons_self, congrArg Label.ready (he.symm.trans hr)⟩⟩
  · exact ⟨l, mem_upd.2 ⟨l, hl, (if_neg he).symm⟩, hr, ht.cons⟩

lemma timeout (r : Ref) : Timed ((s, .hsTimeout r) :: tr) (s.connHsTimeout r) := by
  refine ⟨h.fresh.upd fun _ _ he => he, fun c hc => ?_⟩
  obtain ⟨hc, hne⟩ := mem_del.1 hc
  obtain ⟨l, hl, hr, ht⟩ := h.timer c hc
  have he : l.ref ≠ r := fun he => hne (hr.symm.trans he)
  exact ⟨l, mem_upd.2 ⟨l, hl, (if_neg he).symm⟩, hr, ht.cons⟩

lemma pass (hb : Later digest s.broker s'.broker)
    (hs : s'.statuses = s.statuses) : Timed (p :: tr) s' := by
  refine ⟨?_, fun c' hc' => ?_⟩
  · have hk : s'.lines.map Line.ref = s.lines.map Line.ref := by
      simpa [statuses, Function.comp_def] using congrArg (map Prod.fst) hs
    exact (h.fresh.mono hb.next).of_keys (.of_eq hk)
  · obtain ⟨c, hc, hcr⟩ := hb.conns c' hc'
    obtain ⟨l, hl, hr, ht⟩ := h.timer c hc
    have hm : (l.ref, l.hsTimer, l.ready) ∈ s'.statuses := hs ▸ mem_map_of_mem hl
    obtain ⟨l', hl', he⟩ := mem_map.1 hm
    simp only [Prod.mk.injEq] at he
    refine ⟨l', hl', he.1.trans (hr.trans hcr), ?_⟩
    rw [he.2.1, ← hcr, hb.cfg]
    exact ht.cons

end

lemma of_trace (h : Trace (step digest) Init tr s) : Timed tr s := by
  refine h.inv_hist (fun s hi => .init hi) fun tr s l s' ht hi hs => ?_
  have hturn := step_turn hs
  cases hturn with
  | accept => exact hi.accept
  | ready r => exact hi.ready r
  | timeout r => exact hi.timeout r
  | pass hp hst => exact hi.pass (hp.later (broker_trace ht)) hst

end Timed

/-- From its accept until its TLS handshake is complete, a pending connection has its timer armed
for at most `handshake_timeout_ms` after the accept, and a timer that is due closes it. -/
theorem hs_timer_armed (h : Trace (step digest) Init tr s)
    (ht : 0 ≤ s.broker.cfg.handshakeTimeoutMs) :
    ∀ c ∈ s.broker.conns, (∀ p ∈ tr, p.2 ≠ .ready c.ref) →
      ∃ p ∈ tr, p.2 = .accept ∧ p.1.broker.nextRef = c.ref ∧ ∃ d, s.armed c.ref = some d ∧
          (d : ℤ) ≤ p.1.broker.loop + s.broker.cfg.handshakeTimeoutMs ∧
          (s.broker.quiet none = true → d ≤ s.broker.loop →
            ∃ s', step digest s (.hsTimeout c.ref) = some s' ∧
              ∀ c' ∈ s'.broker.conns, c'.ref ≠ c.ref) := by
  intro c hc hr
  have hi := Timed.of_trace h
  obtain ⟨l, hl, hlr, hst⟩ := hi.timer c hc
  obtain ⟨p, hp, hpr⟩ | ⟨p, hp, ha, hn, hd⟩ := hst
  · exact absurd hpr (hr p hp)
  obtain ⟨tr', hb⟩ := broker_trace h
  have harm : s.armed c.ref =
      some (uvTimerDue p.1.broker.loop s.broker.cfg.handshakeTimeoutMs) := by
    have hm : c.ref ∈ s.broker.timers := by
      rw [(Owned.of_trace hb).timers]
      exact mem_map_of_mem hc
    have hg : get c.ref s.lines = some l := hlr ▸ get_of_mem hi.fresh.nodup hl
    rw [armed, if_pos hm, hg, bind_some, hd]
  refine ⟨p, hp, ha, hn, _, harm, ?_, fun hq hdue => ⟨s.connHsTimeout c.ref, ?_, fun c' hc' => ?_⟩⟩
  · unfold uvTimerDue toU64
    omega
  · simp [step, hq, harm, hdue]
  · exact (mem_del.1 hc').2

lemma smallPort_init : Init { broker := smallBroker } := ⟨smallBroker_init, rfl⟩

theorem hs_timer_armed_slow : ∃ tr s, Trace (step padDigest) Init tr s ∧
    s.broker.conns.map Conn.ref = [0] ∧ s.broker.loop = 15000 ∧
    ∃ s', step padDigest s (.hsTimeout 0) = some s' := by
  obtain ⟨tr, s, h, ht, hc, hl, hq, hr, ha⟩ := exists_trace (step padDigest) Init smallPort_init
    [.accept, .other (.tick 15000 15000)]
    (fun r => 0 ≤ r.2.broker.cfg.handshakeTimeoutMs ∧ r.2.broker.conns = [{ ref := 0 }] ∧
      r.2.broker.loop = 15000 ∧ r.2.broker.quiet none = true ∧ (∀ p ∈ r.1, p.2 ≠ .ready 0) ∧
      r.2.armed 0 = some 15000) (by decide)
  dsimp only at ht hc hl hq hr ha
  obtain ⟨p, -, -, -, d, hd, -, hfire⟩ := hs_timer_armed h ht { ref := 0 } (by simp [hc]) hr
  obtain rfl : d = 15000 := some.inj (hd.symm.trans ha)
  obtain ⟨s', hs', -⟩ := hfire hq (by rw [hl])
  exact ⟨tr, s, h, by simp [hc], hl, s', hs'⟩

/-- Half a minute after its accept a connection that has sent nothing since its TLS handshake is
still pending, with no timer. -/
theorem hs_timer_stopped : ∃ tr s, Trace (step padDigest) Init tr s ∧
    s.broker.cfg.handshakeTimeoutMs = 15000 ∧ (∃ p ∈ tr, p.2 = .accept ∧ p.1.broker.loop = 0) ∧
    s.broker.loop = 30000 ∧ s.broker.conns = [{ ref := 0, gotHello := false }] ∧
    s.armed 0 = none :=
  exists_run smallPort_init [.accept, .other (.tick 20 20), .ready 0, .other (.tick 30000 30000)]
    (by decide)

end

/-! ## Agents in use -/

lemma agentFrame_agents (h : agentFrame x f k b = some b') : b'.agents = b.agents := by
  unfold agentFrame at h
  cases hf : f.type <;> simp only [hf] at h
  case ping =>
    split_ifs at h
    cases h
    rfl
  case openStreamError | closeStream | killStream =>
    split at h <;> cases h
    · rfl
    · exact agents_tmStreamClose _
  all_goals
    cases h
    rfl

lemma agentFrame_isSome (x : Agent) (f : Frame) {k : Bool} (b : Broker) :
    (agentFrame x f k b).isSome = true ↔ (f.type = .ping → k = true) := by
  unfold agentFrame
  cases f.type
  case ping => cases k <;> simp
  case openStreamError | closeStream | killStream => cases tmStreamFind x.tun f.streamId b <;> simp
  all_goals simp

lemma reader_feed (r : Ref) : (s.feed r []).1.reader r = (tmFrameReaderNext (s.reader r)).1 := by
  have hg : get r (s.feed r []).1.lines =
      (get r s.lines).map fun l => { l with fr := (tmFrameReaderFeed (s.reader r) []).1 } :=
    get_upd fun _ => rfl
  rw [reader, hg, feed_nil, reader]
  cases get r s.lines with
  | none => rfl
  | some => rfl

/-- The frames of a loop that has been given `fed` and has `rest` in its buffer. -/
def framesOf (rest : Bytes) : Fed → List Frame
  | .frame f => f :: (framing.all rest).1
  | _ => []

lemma framesOf_feed (r : Ref) :
    framesOf ((s.feed r []).1.reader r) (s.feed r []).2 = (framing.all (s.reader r)).1 := by
  have hfed : (s.feed r []).2 = (tmFrameReaderNext (s.reader r)).2 := by
    rw [← feed_nil]
    rfl
  rw [reader_feed, hfed]
  rcases hn : tmFrameReaderNext (s.reader r) with ⟨rest, _ | _ | f⟩
  case frame => rw [Framing.all_some (nextFrame_eq_some.2 hn), framesOf]
  all_goals
    have : framing.next (s.reader r) = none := by simp [framing, nextFrame, hn]
    rw [Framing.all_none this]
    rfl

/-- The loop finds the agent at every frame if and only if the PONGs it writes are taken. -/
lemma agentLoop_isSome (ws : List Write) (hx : get a s.broker.agents = some x)
    (hn : ∀ f, fed = .frame f → (s.reader x.conn).length < n) :
    (agentLoop a n fed ws s).isSome = true ↔
      ∀ p ∈ (framesOf (s.reader x.conn) fed).zip ws, p.1.type = .ping → p.2 = .taken := by
  fun_induction agentLoop a n fed ws s with
  | case1 => simp [framesOf]
  | case2 => simp [framesOf, hx]
  | case3 => exact absurd (hn _ rfl) (not_lt_zero _)
  | case4 n f ws s ih =>
    have hws : (∀ p ∈ (framesOf (s.reader x.conn) (.frame f)).zip ws,
        p.1.type = .ping → p.2 = .taken) ↔ (f.type = .ping → ws.headD .taken = .taken) ∧
          ∀ p ∈ (framing.all (s.reader x.conn)).1.zip ws.tail, p.1.type = .ping → p.2 = .taken := by
      cases ws <;> simp [framesOf]
    have he := agentSwitch_eq (f := f) (w := ws.headD .taken) hx
    have hsome := agentFrame_isSome x f (k := decide (ws.headD .taken = .taken)) s.broker
    rw [decide_eq_true_eq] at hsome
    rw [hws, ← hsome, ← he]
    -- what the broker says of the frame is what the loop has done before it goes back to the reader
    cases hsw : agentSwitch a f (ws.headD .taken) s.broker with
    | none => simp
    | some b =>
      rw [bind_some, bind_some]
      cases hag : get a b.agents with
      | none => simp
      | some y =>
        obtain rfl : y = x := by
          rw [hsw, bind_some, hag, map_some] at he
          exact some.inj (hag.symm.trans (by rw [agentFrame_agents he.symm, hx]))
        have hr := reader_feed (s := { s with broker := b }) y.conn
        rw [bind_some, ih _ _ hag fun g hg => ?_, framesOf_feed]
        · exact (and_iff_right rfl).symm
        · have hlt : (s.reader y.conn).length < n + 1 := hn f rfl
          have hf : tmFrameReaderNext (s.reader y.conn) =
              ((tmFrameReaderNext (s.reader y.conn)).1, .frame g) := by
            rw [← feed_nil]
            exact Prod.ext rfl hg
          have hlen := framing.shorter (nextFrame_eq_some.2 hf)
          rw [hr]
          exact lt_of_lt_of_le hlen (le_of_lt_succ hlt)

lemma agentAnswer_eq (hx : get a b.agents = some x) : agentAnswer r a w b = match w with
      | .taken => some (connUnlink r (b.log { conn := x.conn, type := .registerOk }))
      | .refused => some (connUnlink r b.protocolError)
      | .broken => none := by
  obtain rfl : x.ref = a := key_of_get hx
  unfold agentAnswer
  rw [hx, bind_some]
  cases w with
  | taken => simp only [Broker.log, hx, map_some]
  | refused => simp only [Broker.protocolError, hx, map_some]
  | broken => simp only [get_tmAgentDrop, map_none]

lemma agentPromote_eq (hw : Wf b) (ht : t ∈ b.tunnels) :
    agentPromote c t w b = TunnelMate.agentPromote c t w b := by
  have answer : ∀ b₁ : Broker, agentAnswer c.ref b₁.nextRef w (agentAdd c.ref t.ref b₁) = _ :=
    fun b₁ => agentAnswer_eq (x := { ref := b₁.nextRef, tun := t.ref, conn := c.ref })
      (by simp [agentAdd, Table.get, Keyed.key])
  unfold agentPromote TunnelMate.agentPromote agentReplace
  cases ha : t.agent with
  | none => exact answer b
  | some old =>
    obtain ⟨x, hx, rfl, -⟩ := hw.tunAgent t ht old ha
    have hg : get x.ref b.agents = some x := get_of_mem hw.agents.nodup hx
    simp only [hg, map_some, bind_some]
    exact answer _

lemma agentRegister_eq (hw : Wf b) :
    agentRegister digest c f w b = TunnelMate.agentRegister digest c f w b := by
  unfold agentRegister registers TunnelMate.agentRegister
  cases credSplit f.payload with
  | none => rfl
  | some cr =>
    dsimp only [bind_some]
    cases hf : (tmTunnelFind (cStr cr.id) b).filter fun t =>
        t.enabled && tmCtEqHex (hexOf digest cr.secret) t.agentSecretHmac with
    | none => rfl
    | some =>
      exact agentPromote_eq hw (mem_tmTunnelFind (filter_eq_some_iff.1 hf).1).1

lemma agentRegister_isSome (hw : Wf b) (hb : w ≠ .broken) :
    (agentRegister digest c f w b).isSome = true := by
  rw [agentRegister_eq hw]
  unfold TunnelMate.agentRegister
  split
  · rfl
  split
  · rfl
  · cases w with
    | taken | refused => rfl
    | broken => exact absurd rfl hb

/-- In every run, a read from an agent finds the agent at every lookup if and only if the PONGs it
writes are taken, and so does a REGISTER whose answer does not break the connection. -/
theorem agents_alive {tr : List (ControlPort × Label)} (h : Trace (step digest) Init tr s) :
    (∀ x ∈ s.broker.agents, ∀ data ws, (s.agentConnRead x.ref data ws).isSome = true ↔
      ∀ p ∈ (framesOf ((s.feed x.conn data).1.reader x.conn) (s.feed x.conn data).2).zip ws,
        p.1.type = .ping → p.2 = .taken) ∧ ∀ c ∈ s.broker.conns, ∀ f w, w ≠ .broken →
      (agentRegister digest c f w s.broker).isSome = true := by
  obtain ⟨tr', hb⟩ := broker_trace h
  have hw := Wf.of_trace hb
  refine ⟨fun x hx data ws => ?_, fun c _ f w hne => agentRegister_isSome hw hne⟩
  have hg : get x.ref s.broker.agents = some x := get_of_mem hw.agents.nodup hx
  unfold agentConnRead
  rw [hg, bind_some]
  exact agentLoop_isSome ws hg fun _ _ => lt_succ_self _

def helloFrame : Bytes := [1, 1, 0, 0, 0, 0, 0, 0, 0, 0]

def registerFrame : Bytes := [1, 3, 0, 0, 0, 4, 0, 0, 0, 0, 0, 1, 65, 1]

def pingFrame : Bytes := [1, 6, 0, 0, 0, 0, 0, 0, 0, 0]

def registerRun : List Label :=
  [.other (creates [65] false), .accept, .ready 1, .read 1 (helloFrame ++ registerFrame) [],
    .accept, .ready 3, .read 3 helloFrame []]

theorem agents_alive_pings : ∃ tr s, Trace (step padDigest) Init tr s ∧
    s.broker.agents.map Agent.ref = [2] ∧
    (s.agentConnRead 2 (pingFrame ++ pingFrame) [.taken, .taken]).isSome = true := by
  obtain ⟨tr, s, h, ha⟩ := exists_trace (step padDigest) Init smallPort_init registerRun
    (fun r => r.2.broker.agents.map Agent.ref = [2]) (by decide)
  obtain ⟨x, hx, hr⟩ : ∃ x ∈ s.broker.agents, x.ref = 2 := mem_map.1 (ha ▸ mem_singleton_self 2)
  refine ⟨tr, s, h, ha, hr ▸ ((agents_alive h).1 x hx _ _).2 fun p hp _ => ?_⟩
  have : ∀ w ∈ [Write.taken, Write.taken], w = .taken := by decide
  exact this _ (of_mem_zip hp).2

/-- A PONG that is refused has dropped the agent when its frame reader is used again, and a
REGISTER_OK when it is logged. -/
theorem agents_dropped_in_use : ∃ tr s, Trace (step padDigest) Init tr s ∧
    (∃ x ∈ s.broker.agents, s.agentConnRead x.ref pingFrame [.refused] = none) ∧
    ∃ c ∈ s.broker.conns, agentRegister padDigest c
      { type := .register, streamId := 0, payload := [0, 1, 65, 1] } .broken s.broker = none :=
  exists_run smallPort_init registerRun (by decide)

end ControlPort

end TunnelMate
