import Mathlib.Logic.Relation
import TunnelMate.Udp

/-!
# What an event can do to a UDP plane

The relay of a datagram is a chain of acts, and every event is a chain of turns, each of which
changes one thing about the plane.
-/

namespace TunnelMate.Udp

open List Table

@[simp]
lemma key_session (x : Session) : Keyed.key x = x.ref := rfl

lemma handle_flowIdle {cfg : BrokerCfg} {digest : Bytes → Digest} {k : Creds} {p q : Plane}
    {f : Ref} (h : handle cfg digest k p (.flowIdle f) = some q) : tmUdpFlowExpire f p = q := by
  simp only [handle] at h
  split at h
  · cases h
  · exact (of_guard h).2

/-! ## `pump_out` -/

section Pumps

variable {cfg : BrokerCfg} {p : Plane} {s : Ref} {a : PumpAns} {x y : Session}

lemma encrypt_cases {ans : SslAns} (h : encrypt ans x = some y) :
    (y = x ∧ (x.outq ≠ [] → ans ≠ .whole)) ∨ ∃ q rest, x.outq = q :: rest ∧
        y = { x with outq := rest, wbio := x.wbio ++ [some q] } := by
  unfold encrypt at h
  split at h
  · rename_i hq
    exact .inl ⟨(Option.some.inj h).symm, fun hn => absurd hq hn⟩
  · rename_i q rest hq
    cases ans with
    | whole => exact .inr ⟨q, rest, hq, (Option.some.inj h).symm⟩
    | want => exact .inl ⟨(Option.some.inj h).symm, by simp⟩
    | fail => cases h

/-- What is left of a session when envelopes have gone from its queue to the BIO. -/
inductive Pumped (x : Session) : Session → Prop
  | mk {outq : List Queued} {wbio : List (Option Queued)} (v : Bool) : outq <:+ x.outq →
      (∀ q, some q ∈ wbio → q ∈ x.outq ∨ some q ∈ x.wbio) →
      Pumped x { x with outq := outq, wbio := wbio, inflight := v }

/-- `pump_out` does nothing, notes that it ran, or also takes envelopes from the queue of the
session, and it may then send a record that was in the BIO or in the queue. -/
lemma pumpOut_rule {I : Plane → Prop} (h : I p) (hp : ∀ l, I { p with pumps := l })
    (hu : ∀ x ∈ p.sessions, x.ref = s → ∀ y l, Pumped x y →
      I ({ p with pumps := l }.upd s fun _ => y))
    (hs : ∀ x ∈ p.sessions, x.ref = s → ∀ y l r, I ({ p with pumps := l }.upd s fun _ => y) →
      (∀ q, r = some q → q ∈ x.outq ∨ some q ∈ x.wbio) →
      I (udpSendRaw cfg (some s) x.peer (.record r) a.send
        ({ p with pumps := l }.upd s fun _ => y))) : I (pumpOut cfg s a p) := by
  unfold pumpOut
  split
  · exact h
  rename_i x hx
  have hm := mem_of_get hx
  have hk : x.ref = s := key_of_get hx
  split_ifs
  · exact h
  dsimp only
  split
  · exact hp _
  rename_i y hy
  obtain ⟨outq, wbio, hq, hb, rfl⟩ : ∃ outq wbio, outq <:+ x.outq ∧
      (∀ q, some q ∈ wbio → q ∈ x.outq ∨ some q ∈ x.wbio) ∧
      y = { x with outq := outq, wbio := wbio } := by
    obtain ⟨rfl, -⟩ | ⟨q, rest, hq, rfl⟩ := encrypt_cases hy
    · exact ⟨_, _, suffix_refl _, fun _ => .inr, rfl⟩
    · refine ⟨rest, _, hq ▸ suffix_cons _ _, fun q' hm => ?_, rfl⟩
      rcases mem_append.1 hm with hm | hm
      · exact .inr hm
      · rw [Option.some.inj (mem_singleton.1 hm), hq]
        exact .inl mem_cons_self
  split
  · exact hu x hm hk _ _ (.mk x.inflight hq hb)
  · rename_i r rest hr
    obtain rfl : wbio = r :: rest := hr
    refine hs x hm hk _ _ r (hu x hm hk _ _ (.mk true hq fun q hm => ?_)) fun q he => ?_
    · exact hb q (mem_cons_of_mem _ hm)
    · exact hb q (he ▸ mem_cons_self)

/-- What sends and pumps leave alone. -/
structure Still (p p' : Plane) : Prop where
  now : p'.now = p.now
  opened : p'.opened = p.opened
  flows : p'.flows = p.flows
  closing : p'.closing = p.closing
  assigned : p'.assigned = p.assigned
  agentSession : p'.agentSession = p.agentSession

lemma still_udpSendRaw {o : Option Ref} {dst : Addr} {body : Body} {send : Bool} :
    Still p (udpSendRaw cfg o dst body send p) := by
  unfold udpSendRaw
  split_ifs <;> exact ⟨rfl, rfl, rfl, rfl, rfl, rfl⟩

lemma still_pumpOut : Still p (pumpOut cfg s a p) := by
  refine pumpOut_rule ⟨rfl, rfl, rfl, rfl, rfl, rfl⟩ (fun l => ⟨rfl, rfl, rfl, rfl, rfl, rfl⟩)
    (fun x _ _ y l _ => ⟨rfl, rfl, rfl, rfl, rfl, rfl⟩) fun x _ _ y l r _ _ => ?_
  exact { still_udpSendRaw (p := { p with pumps := l }.upd s fun _ => y) with }

lemma sessionQueue_rule {I : Plane → Prop} {q : Queued} (h : I p) (hc : ∀ c, I { p with ctr := c })
    (hq : I (pumpOut cfg s a (p.upd s fun x => { x with outq := x.outq ++ [q] }))) :
    I (sessionQueue cfg s q a p) := by
  unfold sessionQueue
  split
  · exact h
  dsimp only
  split_ifs
  · exact hc _
  · exact hq

lemma still_sessionQueue {q : Queued} : Still p (sessionQueue cfg s q a p) :=
  sessionQueue_rule ⟨rfl, rfl, rfl, rfl, rfl, rfl⟩ (fun _ => ⟨rfl, rfl, rfl, rfl, rfl, rfl⟩)
    { still_pumpOut with }

end Pumps

/-! ## Acts and turns -/

def Endpoint.same : Endpoint → Endpoint → Bool
  | .client a, .client b => tmAddrEq a b
  | .peer s i, .peer s' i' => s = s' && i = i'
  | _, _ => false

/-- What the relay of a datagram is made of: payloads in `P` go to the agent, replies in `R` come
from it, and endpoints in `N` get a flow. -/
inductive Act (cfg : BrokerCfg) (P : Bytes → Prop) (R : Reply → Prop) (N : Endpoint → Prop) :
    Plane → Plane → Prop
  | count {p : Plane} (c : Counters) (w w' : Window) :
      Act cfg P R N p { p with ctr := c, pktWin := w, flowCreatedWin := w' }
  | touch {p : Plane} {f : Flow} (n : ℕ) : f ∈ p.flows → Act cfg P R N p (touch f.ref n p)
  | flow {p : Plane} {ep : Endpoint} : N ep → (∀ f ∈ p.flows, f.ep.same ep = false) →
      p.flows.length < toU64 cfg.udpMaxFlowsPerTunnel → Act cfg P R N p (flowNew ep p).2
  | toAgent {p : Plane} {s : Ref} {payload : Bytes} (flowId : ℕ) (a : PumpAns) : P payload →
      p.agentSession = some s →
      Act cfg P R N p (sessionQueue cfg s ⟨tmEnvEncode flowId 0 payload, none⟩ a p)
  | toPeer {p : Plane} {f : Flow} {s : Ref} {i : ℕ} {r : Reply} (a : PumpAns) : R r →
      f ∈ p.flows → f.flowId = r.flowId → f.ep = .peer s i →
      Act cfg P R N p (sessionQueue cfg s ⟨tmEnvEncode i 0 r.payload, some r⟩ a p)
  | toClient {p : Plane} {f : Flow} {dst : Addr} {r : Reply} (send : Bool) : R r →
      f ∈ p.flows → f.flowId = r.flowId → f.ep = .client dst →
      Act cfg P R N p (udpSendRaw cfg none dst (.raw r) send p)

abbrev Acts (cfg : BrokerCfg) (P : Bytes → Prop) (R : Reply → Prop) (N : Endpoint → Prop) :
    Plane → Plane → Prop :=
  Relation.ReflTransGen (Act cfg P R N)

def Event.source : Event → Option Addr
  | .packet addr _ _ _ _ => some addr
  | _ => none

def Session.Silent (cfg : BrokerCfg) (now : ℕ) (x : Session) : Prop :=
  now - x.lastRxMs > toU64 cfg.udpFlowIdleTimeoutMs * 2 % 2 ^ 64

/-- What an event is made of; `o` is the session of the datagram. -/
inductive Turn (cfg : BrokerCfg) (p₀ : Plane) (ev : Event) (o : Option Ref) : Plane → Plane → Prop
  | relay {p p' : Plane} : Act cfg (fun _ => True) (fun _ => True) (fun _ => True) p p' →
      Turn cfg p₀ ev o p p'
  | flags {p : Plane} {s : Ref} {f : Session → Session} :
      (∀ x, (f x).ref = x.ref ∧ (f x).peer = x.peer ∧ (f x).inflight = x.inflight ∧
        (f x).outq = x.outq ∧ ∀ q, some q ∈ (f x).wbio → some q ∈ x.wbio) →
      Turn cfg p₀ ev o p (p.upd s f)
  | pump {p : Plane} {s : Ref} {a : PumpAns} : Turn cfg p₀ ev o p (pumpOut cfg s a p)
  | answer {p : Plane} {s : Ref} {env : Bytes} {a : PumpAns} :
      Turn cfg p₀ ev o p (sessionQueue cfg s ⟨env, none⟩ a p)
  | become {p : Plane} {s : Ref} : o = some s → p.agentSession = none ∨ p.agentSession = some s →
      Turn cfg p₀ ev o p { p with agentSession := some s }
  | replace {p : Plane} {s old : Ref} : o = some s → (∃ x ∈ p.sessions, x.ref = s) →
      p.agentSession = some old → old ≠ s →
      Turn cfg p₀ ev o p { tmUdpSessionClose old p with agentSession := some s }
  | create {p : Plane} {addr : Addr} : ev.source = some addr → o = some p.nextRef →
      (∀ x ∈ p.sessions, tmAddrEq x.peer addr = false) →
      Turn cfg p₀ ev o p (sessionCreate addr p)
  | expire {p : Plane} {x : Session} {recs : ℕ} {a : PumpAns} : x ∈ p₀.sessions →
      ev = .sessionTimer x.ref recs a → x.Silent cfg p₀.now → o = none →
      Turn cfg p₀ ev o p (tmUdpSessionClose x.ref p)
  | done {p : Plane} {s : Option Ref} {a : PumpAns} : s ∈ p.pending →
      Turn cfg p₀ ev o p (sendDone cfg s a p)
  | timerClosed {p : Plane} {s : Ref} : Turn cfg p₀ ev o p (sessionTimerClosed s p)
  | flowIdle {p : Plane} {f : Ref} : Turn cfg p₀ ev o p (tmUdpFlowExpire f p)
  | stop {p : Plane} : ev = .stop → o = none → Turn cfg p₀ ev o p (tmUdpStop p)

abbrev Turns (cfg : BrokerCfg) (p₀ : Plane) (ev : Event) (o : Option Ref) : Plane → Plane → Prop :=
  Relation.ReflTransGen (Turn cfg p₀ ev o)

section Acts

variable {cfg : BrokerCfg} {digest : Bytes → Digest} {p p' p₀ q : Plane} {s : Ref} {a : PumpAns}
  {ev : Event} {o : Option Ref} {P : Bytes → Prop} {R : Reply → Prop} {N : Endpoint → Prop}
  {payload : Bytes} {e : Env} {x : Session}

lemma Turns.inv {I : Plane → Prop} (h : Turns cfg p₀ ev o p q)
    (hI : ∀ p p', Turn cfg p₀ ev o p p' → I p → I p') (hp : I p) : I q := by
  induction h with
  | refl => exact hp
  | tail _ hm ih => exact hI _ _ hm ih

lemma Acts.agentSession (h : Acts cfg P R N p q) : q.agentSession = p.agentSession := by
  induction h with
  | refl => rfl
  | tail _ ha ih =>
    rw [← ih]
    cases ha with
    | count | touch | flow => rfl
    | toAgent | toPeer => exact still_sessionQueue.agentSession
    | toClient => exact still_udpSendRaw.agentSession

lemma acts_forwardToAgent {flowId : ℕ} (hP : P payload) :
    Acts cfg P R N p (forwardToAgent cfg flowId payload a p) := by
  unfold forwardToAgent
  split
  · exact .single (.count _ _ _)
  rename_i s hs
  split_ifs
  · exact .single (.count _ _ _)
  · exact .single (.count _ _ _)
  · exact .single (.toAgent _ _ hP hs)

lemma acts_agentSessionEnv (hR : e.flowId ≠ 0 → R ⟨e.flowId, e.payload⟩) :
    Acts cfg P R N p (agentSessionEnv cfg e a p) := by
  unfold agentSessionEnv
  split_ifs with hi
  · exact .refl
  split
  · exact .single (.count _ _ _)
  rename_i f hf
  have hm := mem_of_find?_eq_some hf
  have hid : f.flowId = e.flowId := by simpa using find?_some hf
  refine .head (.touch e.payload.length hm) ?_
  unfold forwardToPeer
  split_ifs
  · exact .single (.count _ _ _)
  split
  · rename_i he
    exact .single (.toPeer a (hR hi) (mem_upd_self hm rfl) hid he)
  · rename_i he
    exact .single (.toClient a.send (hR hi) (mem_upd_self hm rfl) hid he)

lemma acts_relayToAgent {found : Option Flow} {ep : Endpoint} (hP : P payload)
    (hf : ∀ f ∈ found, f ∈ p.flows)
    (hn : found = none → N ep ∧ ∀ f ∈ p.flows, f.ep.same ep = false) :
    Acts cfg P R N p (relayToAgent cfg found ep payload a p) := by
  unfold relayToAgent
  split
  · exact .head (.touch payload.length (hf _ rfl)) (acts_forwardToAgent hP)
  dsimp only
  split_ifs with hc
  · exact .single (.count _ _ _)
  · simp only [Bool.or_eq_true, decide_eq_true_eq, not_or, not_le] at hc
    obtain ⟨hN, hn⟩ := hn rfl
    refine .head (.count p.ctr p.pktWin
      (rateCheck cfg.udpFlowCreationRate p.now p.flowCreatedWin).2) (.head (.flow hN hn hc.2) ?_)
    exact .head (.touch payload.length mem_cons_self) (acts_forwardToAgent hP)

lemma acts_openClientDatagram {addr : Addr} (hP : P payload) (hN : N (.client addr)) :
    Acts cfg P R N p (openClientDatagram cfg addr payload a p) := by
  unfold openClientDatagram
  dsimp only
  split_ifs
  · exact .single (.count _ _ _)
  refine .head (.count p.ctr _ p.flowCreatedWin)
    (acts_relayToAgent hP (fun f hf => mem_of_find?_eq_some hf) fun hn => ⟨hN, fun f hf => ?_⟩)
  have := find?_eq_none.1 hn f hf
  cases hep : f.ep with
  | client => simpa [hep, Endpoint.same] using this
  | peer => rfl

lemma acts_peerSessionEnv (hP : e.flowId ≠ 0 → P e.payload)
    (hN : e.flowId ≠ 0 → N (.peer x.ref e.flowId)) : Acts cfg P R N (p.upd x.ref fun y => { y with
      pktWin := (rateCheck cfg.udpMaxPacketsPerSource p.now x.pktWin).2 })
      (peerSessionEnv cfg x e a p) := by
  unfold peerSessionEnv
  dsimp only
  split_ifs with _ _ hi
  · exact .single (.count _ _ _)
  · exact .single (.count _ _ _)
  · exact .single (.count p.ctr _ p.flowCreatedWin)
  refine .head (.count p.ctr _ p.flowCreatedWin) (acts_relayToAgent (hP hi)
    (fun f hf => mem_of_find?_eq_some hf) fun hn => ⟨hN hi, fun f hf => ?_⟩)
  have := find?_eq_none.1 hn f hf
  cases hfe : f.ep with
  | client => rfl
  | peer => simpa [hfe, Endpoint.same] using this

lemma Acts.turns (h : Acts cfg (fun _ => True) (fun _ => True) (fun _ => True) p q) :
    Turns cfg p₀ ev o p q :=
  h.lift id fun _ _ => .relay

lemma turns_ctr (c : Counters) : Turns cfg p₀ ev o p { p with ctr := c } :=
  .single (.relay (.count _ _ _))

lemma turns_addRecs (recs : ℕ) : Turns cfg p₀ ev o p (addRecs s recs p) := by
  refine .single (.flags fun x => ⟨rfl, rfl, rfl, rfl, fun q hm => ?_⟩)
  simpa [mem_replicate] using hm

lemma turns_authAccept (isAgent : Bool) (hx : ∃ x ∈ p.sessions, x.ref = s) (ho : o = some s) :
    Turns cfg p₀ ev o p (authAccept s isAgent p) := by
  have hf : Turns cfg p₀ ev o p
      (p.upd s fun x => { x with authenticated := true, isAgent := isAgent }) :=
    .single (.flags fun _ => ⟨rfl, rfl, rfl, rfl, fun _ => id⟩)
  unfold authAccept
  dsimp only
  split_ifs
  · refine hf.tail ?_
    split
    · rename_i ha
      exact .become ho (.inl ha)
    · rename_i old ha
      split_ifs with he
      · exact .become ho (.inr (by rw [ha, he]))
      · exact .replace ho (exists_upd hx fun _ _ _ h => h) ha he
  · exact hf

lemma turns_sessionAppdata (k : Creds) (data : Bytes) (ho : o = some s) :
    Turns cfg p₀ ev o p (sessionAppdata cfg digest k s data a p) := by
  unfold sessionAppdata
  split
  · exact .refl
  rename_i x hx
  obtain rfl : x.ref = s := key_of_get hx
  have hm := mem_of_get hx
  split
  · split
    · exact turns_ctr _
    dsimp only
    split
    · exact .tail (turns_ctr _) .answer
    · exact .tail (turns_authAccept _ ⟨x, hm, rfl⟩ ho) .answer
  split
  · exact turns_ctr _
  split
  · exact turns_ctr _
  split
  · exact (acts_agentSessionEnv fun _ => trivial).turns
  · refine .trans ?_ (acts_peerSessionEnv (fun _ => trivial) fun _ => trivial).turns
    exact .single (.flags fun _ => ⟨rfl, rfl, rfl, rfl, fun _ => id⟩)

lemma turns_drainSsl (k : Creds) (reads : List (Bytes × PumpAns)) (ho : o = some s) :
    Turns cfg p₀ ev o p (drainSsl cfg digest k s reads p) := by
  unfold drainSsl
  induction reads generalizing p with
  | nil => exact .refl
  | cons r reads ih => exact .trans (turns_sessionAppdata k r.1 ho) ih

lemma turns_pumpIn (k : Creds) (hs : HsAns) (reads : List (Bytes × PumpAns)) (ho : o = some s) :
    Turns cfg p₀ ev o p (pumpIn cfg digest k s hs reads a p) := by
  unfold pumpIn
  split
  · exact .refl
  split_ifs
  · exact .tail (turns_drainSsl k reads ho) .pump
  split
  · refine .tail (.trans ?_ (turns_drainSsl k reads ho)) .pump
    exact .tail (turns_addRecs _) (.flags fun _ => ⟨rfl, rfl, rfl, rfl, fun _ => id⟩)
  · exact .tail (turns_addRecs _) .pump
  · exact turns_addRecs _

lemma turns_onUdpPacket (k : Creds) {addr : Addr} (data : Bytes) (hs : HsAns)
    (reads : List (Bytes × PumpAns)) (he : ev.source = some addr) :
    ∃ o, Turns cfg p₀ ev o p (onUdpPacket cfg digest k addr data hs reads a p) := by
  unfold onUdpPacket
  split_ifs
  · exact ⟨none, turns_ctr _⟩
  · exact ⟨none, (acts_openClientDatagram trivial trivial).turns⟩
  split
  · rename_i x hx
    refine ⟨some x.ref, .trans (.single ?_) (turns_pumpIn k hs reads rfl)⟩
    exact .flags fun _ => ⟨rfl, rfl, rfl, rfl, fun _ => id⟩
  · rename_i hn
    rw [find?_eq_none] at hn
    dsimp only
    split_ifs
    · exact ⟨none, .single (.relay (.count _ _ _))⟩
    · refine ⟨some p.nextRef, .trans ?_ (turns_pumpIn k hs reads rfl)⟩
      refine .tail (.single (.relay (.count p.ctr p.pktWin _))) (.create he rfl ?_)
      intro x hx
      simpa using hn x hx

lemma turns_sessionTimer (recs : ℕ) :
    Turns cfg p (.sessionTimer s recs a) none p (sessionTimer cfg s recs a p) := by
  unfold sessionTimer
  split
  · exact .refl
  rename_i x hx
  obtain rfl : x.ref = s := key_of_get hx
  split_ifs with hb
  · exact .single (.expire (mem_of_get hx) rfl hb rfl)
  · exact .refl
  · exact .tail (turns_addRecs recs) .pump

lemma step_turns {l : Label} (h : step cfg digest p l = some q) :
    (p.now ≤ l.now ∧ p.loop ≤ l.loop ∧ l.loop ≤ l.now) ∧
      ∃ o, let p₁ := { p with now := l.now, loop := l.loop }
        Turns cfg p₁ l.ev o p₁ q := by
  unfold step at h
  split_ifs at h with ht
  refine ⟨ht, ?_⟩
  dsimp only
  generalize { p with now := l.now, loop := l.loop } = r at h ⊢
  cases hev : l.ev <;> rw [hev] at h
  case packet addr data hs reads a =>
    cases h
    exact turns_onUdpPacket _ data hs reads rfl
  case sendDone =>
    obtain ⟨hs, rfl⟩ := of_guard h
    exact ⟨none, .single (.done hs)⟩
  case sessionTimer s recs a =>
    cases h
    exact ⟨none, turns_sessionTimer recs⟩
  case timerClosed =>
    obtain ⟨-, rfl⟩ := of_guard h
    exact ⟨none, .single .timerClosed⟩
  case flowIdle =>
    rw [← handle_flowIdle h]
    exact ⟨none, .single .flowIdle⟩
  case stop =>
    cases h
    exact ⟨none, .single (.stop rfl rfl)⟩

/-! ## The clock -/

lemma sessionMaybeFree_eq :
    sessionMaybeFree s p = { p with closing := (sessionMaybeFree s p).closing } := by
  unfold sessionMaybeFree
  split
  · rfl
  split_ifs <;> rfl

lemma now_tmUdpSessionClose : (tmUdpSessionClose s p).now = p.now := by
  unfold tmUdpSessionClose
  split <;> rfl

lemma now_sessionMaybeFree : (sessionMaybeFree s p).now = p.now := by
  rw [sessionMaybeFree_eq]

lemma now_sendDone : (sendDone cfg o a p).now = p.now := by
  unfold sendDone
  cases o with
  | none => rfl
  | some =>
    dsimp only
    split_ifs
    · exact now_sessionMaybeFree
    · exact still_pumpOut.now

lemma Turn.now (h : Turn cfg p₀ ev o p p') : p'.now = p.now := by
  cases h with
  | relay ha =>
    cases ha with
    | count | touch | flow => rfl
    | toAgent | toPeer => exact still_sessionQueue.now
    | toClient => exact still_udpSendRaw.now
  | flags => rfl
  | pump => exact still_pumpOut.now
  | answer => exact still_sessionQueue.now
  | become => rfl
  | replace | expire => exact now_tmUdpSessionClose
  | create => rfl
  | done => exact now_sendDone
  | timerClosed => exact now_sessionMaybeFree
  | flowIdle => rfl
  | stop => rfl

lemma Turns.now (h : Turns cfg p₀ ev o p p') : p'.now = p.now :=
  h.inv (I := fun q => q.now = p.now) (fun _ _ hm hq => hm.now.trans hq) rfl

end Acts

end TunnelMate.Udp
