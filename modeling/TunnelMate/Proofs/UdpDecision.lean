import TunnelMate.Proofs.UdpAuth
import TunnelMate.Proofs.UdpFlows

/-!
# What decides over a client's datagram

On an open tunnel a datagram that is not taken for a DTLS record is either queued for the agent or
dropped.
-/

namespace TunnelMate.Udp

open Option Table

inductive Drop
  | queueFull | oversize | rateLimit | noFlow

def Counters.bump (k : Counters) : Drop → Counters
  | .queueFull => { k with udpDroppedQueueFull := k.udpDroppedQueueFull + 1 }
  | .oversize => { k with udpDroppedOversize := k.udpDroppedOversize + 1 }
  | .rateLimit => { k with udpDroppedRateLimit := k.udpDroppedRateLimit + 1 }
  | .noFlow => { k with udpDroppedNoFlow := k.udpDroppedNoFlow + 1 }

inductive Decision
  | dropped (c : Drop) (q : Plane)
  | queued (s : Ref) (flowId : ℕ) (q : Plane)

namespace Decision

def plane : Decision → Plane
  | .dropped _ q | .queued _ _ q => q

/-- The counter of a drop, or the session and the flow id something is queued for. -/
def verdict : Decision → Drop ⊕ Ref × ℕ
  | .dropped c _ => .inl c
  | .queued s flowId _ => .inr (s, flowId)

def run (cfg : BrokerCfg) (a : PumpAns) (d : Bytes) : Decision → Plane
  | .dropped c q => { q with ctr := q.ctr.bump c }
  | .queued s flowId q =>
    pumpOut cfg s a (q.upd s fun x =>
      { x with outq := x.outq ++ [{ env := tmEnvEncode flowId 0 d, reply := none }] })

/-- It concerns a datagram of `addr` in the plane `p`: it finds the sessions and counters of `p`,
and what is queued is for the agent, under the id of a flow of that sender. -/
structure Of (addr : Addr) (p : Plane) (D : Decision) : Prop where
  sessions : D.plane.sessions = p.sessions
  ctr : D.plane.ctr = p.ctr
  sent : D.plane.sent = p.sent
  opened : D.plane.opened = p.opened
  agent : ∀ s flowId q, D = .queued s flowId q → p.agentSession = some s ∧
    ∃ f ∈ q.flows, f.flowId = flowId ∧ ∃ src, f.ep = .client src ∧
      (src = addr ∨ tmAddrEq src addr = true)

end Decision

/-! ## The decision, from the length -/

section

variable (cfg : BrokerCfg)

def queueDecision (x : Session) (flowId len : ℕ) (p : Plane) : Decision :=
  let queued := (x.outq.map fun q => 4 + q.env.length).sum
  let maxBytes := toU64 cfg.udpQueuePackets * (toU64 cfg.udpMaxDatagramSize + 15) % 2 ^ 64
  if x.outq.length ≥ toU64 cfg.udpQueuePackets ∨ tmEnvHdrLen + len > uint32Max ∨
      queued + 4 + (tmEnvHdrLen + len) > maxBytes then .dropped .queueFull p
  else .queued x.ref flowId p

def forwardDecision (flowId len : ℕ) (p : Plane) : Decision :=
  match (p.agentSession.bind fun s => get s p.sessions).filter (·.authenticated) with
  | none => .dropped .noFlow p
  | some x =>
    if len > toU32 cfg.udpMaxDatagramSize then .dropped .oversize p
    else queueDecision cfg x flowId len p

def clientDecision (addr : Addr) (len : ℕ) (p : Plane) : Decision :=
  let (ok, p) := tunnelPktLimit cfg p
  if !ok then .dropped .rateLimit p
  else
    match flowFindSrc addr p with
    | some f => forwardDecision cfg f.flowId len (touch f.ref len p)
    | none =>
      let (ok, w) := rateCheck cfg.udpFlowCreationRate p.now p.flowCreatedWin
      let p := { p with flowCreatedWin := w }
      if !ok || p.flows.length ≥ toU64 cfg.udpMaxFlowsPerTunnel then .dropped .rateLimit p
      else
        let (f, p) := flowNew (.client addr) p
        forwardDecision cfg f.flowId len (touch f.ref len p)

def packetDecision (addr : Addr) (len : ℕ) (p : Plane) : Decision :=
  if len > toU64 cfg.udpMaxDatagramSize then .dropped .oversize p
  else clientDecision cfg addr len p

/-- The sender has no session for a DTLS record, and the window admits no new one. -/
def Refused (addr : Addr) (p : Plane) : Prop :=
  p.sessions.find? (tmAddrEq ·.peer addr) = none ∧
    (rateCheck cfg.udpFlowCreationRate p.now p.flowCreatedWin).1 = false

instance (addr : Addr) (p : Plane) : Decidable (Refused cfg addr p) :=
  inferInstanceAs (Decidable (_ ∧ _))

/-- What is decided over a datagram; with `none` it goes to a DTLS session. -/
def decision (addr : Addr) (d : Bytes) (p : Plane) : Option Decision :=
  if looksLikeDtls d then
    if Refused cfg addr p then
      let w := (rateCheck cfg.udpFlowCreationRate p.now p.flowCreatedWin).2
      some (.dropped .rateLimit { p with flowCreatedWin := w })
    else none
  else some (packetDecision cfg addr d.length p)

end

section

variable {cfg : BrokerCfg} {digest : Bytes → Digest} {p : Plane} {addr : Addr} {a : PumpAns}

lemma sessionQueue_eq {x : Session} (hx : get x.ref p.sessions = some x) (flowId : ℕ)
    (d : Bytes) : sessionQueue cfg x.ref { env := tmEnvEncode flowId 0 d, reply := none } a p =
      (queueDecision cfg x flowId d.length p).run cfg a d := by
  unfold sessionQueue queueDecision
  simp only [hx, length_tmEnvEncode]
  split_ifs <;> rfl

lemma forwardToAgent_eq (flowId : ℕ) (d : Bytes) :
    forwardToAgent cfg flowId d a p = (forwardDecision cfg flowId d.length p).run cfg a d := by
  unfold forwardToAgent
  split
  · rename_i hs
    have hd : forwardDecision cfg flowId d.length p = .dropped .noFlow p := by
      simp [forwardDecision, hs]
    rw [hd]
    rfl
  rename_i s hs
  split_ifs with hu hl
  · have hd : forwardDecision cfg flowId d.length p = .dropped .noFlow p := by
      cases hx : get s p.sessions with
      | none => simp [forwardDecision, hs, hx]
      | some x =>
        rw [hx] at hu
        simp [forwardDecision, hs, hx, filter_some, (by simpa using hu : x.authenticated = false)]
    rw [hd]
    rfl
  all_goals
    obtain ⟨x, hx, hxu⟩ : ∃ x, get s p.sessions = some x ∧ x.authenticated = true := by
      cases hx : get s p.sessions with
      | none => simp [hx] at hu
      | some x => exact ⟨x, rfl, by simpa [hx] using hu⟩
    obtain rfl : x.ref = s := key_of_get hx
  · have hd : forwardDecision cfg flowId d.length p = .dropped .oversize p := by
      simp [forwardDecision, hs, hx, hxu, hl, filter_some]
    rw [hd]
    rfl
  · have hd : forwardDecision cfg flowId d.length p = queueDecision cfg x flowId d.length p := by
      simp [forwardDecision, hs, hx, hxu, hl, filter_some]
    rw [hd]
    exact sessionQueue_eq hx flowId d

lemma openClientDatagram_eq (d : Bytes) :
    openClientDatagram cfg addr d a p = (clientDecision cfg addr d.length p).run cfg a d := by
  unfold openClientDatagram clientDecision
  dsimp only
  by_cases hok : (!(tunnelPktLimit cfg p).1) = true
  · rw [if_pos hok, if_pos hok]
    rfl
  rw [if_neg hok, if_neg hok]
  generalize (tunnelPktLimit cfg p).2 = q
  unfold relayToAgent
  cases flowFindSrc addr q with
  | some => exact forwardToAgent_eq _ d
  | none =>
    dsimp only
    split
    · rfl
    · exact forwardToAgent_eq _ d

/-! ## What it leaves -/

namespace Decision.Of

variable {q : Plane} {flowId len : ℕ}

lemma dropped (h : (Decision.dropped .noFlow q).Of addr p) (c : Drop) :
    (Decision.dropped c q).Of addr p := { h with agent := by simp }

lemma forward (h : (Decision.dropped .noFlow q).Of addr p) (ha : q.agentSession = p.agentSession)
    (hf : ∃ f ∈ q.flows, f.flowId = flowId ∧ ∃ src, f.ep = .client src ∧
      (src = addr ∨ tmAddrEq src addr = true)) : (forwardDecision cfg flowId len q).Of addr p := by
  unfold forwardDecision
  split
  · exact h
  rename_i x hx
  obtain ⟨s, hs, hx⟩ := bind_eq_some_iff.1 (filter_eq_some_iff.1 hx).1
  obtain rfl : x.ref = s := key_of_get hx
  split_ifs
  · exact h.dropped _
  unfold queueDecision
  dsimp only
  split_ifs
  · exact h.dropped _
  · refine { h with agent := fun s i q' he => ?_ }
    obtain ⟨rfl, rfl, rfl⟩ := Decision.queued.inj he
    exact ⟨ha ▸ hs, hf⟩

lemma touch {f : Flow} (hf : f ∈ q.flows) (n : ℕ) {src : Addr} (he : f.ep = .client src)
    (hs : src = addr ∨ tmAddrEq src addr = true) :
    ∃ g ∈ (Udp.touch f.ref n q).flows, g.flowId = f.flowId ∧ ∃ src, g.ep = .client src ∧
      (src = addr ∨ tmAddrEq src addr = true) :=
  ⟨_, mem_upd_self hf rfl, rfl, src, he, hs⟩

lemma client : (clientDecision cfg addr len p).Of addr p := by
  unfold clientDecision
  dsimp only
  split
  · exact ⟨rfl, rfl, rfl, rfl, by simp⟩
  split
  · rename_i f hf
    have hm := List.mem_of_find?_eq_some hf
    have hsrc := List.find?_some hf
    cases he : f.ep with
    | peer => simp [he] at hsrc
    | client =>
      rw [he] at hsrc
      refine .forward ?_ ?_ (touch hm _ he (.inr hsrc))
      · exact ⟨rfl, rfl, rfl, rfl, by simp⟩
      · rfl
  · split
    · exact ⟨rfl, rfl, rfl, rfl, by simp⟩
    · refine .forward ?_ ?_ (touch List.mem_cons_self _ rfl (.inl rfl))
      · exact ⟨rfl, rfl, rfl, rfl, by simp⟩
      · rfl

lemma packet : (packetDecision cfg addr len p).Of addr p := by
  unfold packetDecision
  split_ifs
  · exact ⟨rfl, rfl, rfl, rfl, by simp⟩
  · exact client

end Decision.Of

section

variable (cfg digest addr a p) (k : Creds) (d : Bytes) (hs : HsAns) (reads : List (Bytes × PumpAns))
  (p' : Plane)

/-- The decision is carried out on the payload `d`, which leaves `p'`. -/
def Carried : Option Decision → Prop
  | some D => D.Of addr p ∧ p' = D.run cfg a d
  | none => ∃ q : Plane, ∃ x ∈ q.sessions, (x.peer = addr ∨ tmAddrEq x.peer addr = true) ∧
      p' = pumpIn cfg digest k x.ref hs reads a q

end

section

variable {now loop : ℕ} {k : Creds} {d d₁ d₂ : Bytes} {hs hs₁ hs₂ : HsAns} {len flowId : ℕ}
  {reads reads₁ reads₂ : List (Bytes × PumpAns)} {p' p₁ p₂ : Plane}

lemma carried_packet (hk : k.closed = false) :
    Carried cfg digest p addr a k d hs reads (onUdpPacket cfg digest k addr d hs reads a p)
      (decision cfg addr d p) := by
  unfold decision onUdpPacket
  cases looksLikeDtls d with
  | false =>
    refine ⟨.packet, ?_⟩
    rw [if_pos (by simp [hk]), packetDecision]
    split
    · rfl
    · exact openClientDatagram_eq d
  | true =>
    rw [if_neg (by simp), if_pos rfl]
    by_cases hr : Refused cfg addr p
    · rw [if_pos hr]
      obtain ⟨hx, hw⟩ := hr
      simp only [hx, hw]
      exact ⟨⟨rfl, rfl, rfl, rfl, nofun⟩, rfl⟩
    · rw [if_neg hr]
      cases hx : p.sessions.find? (tmAddrEq ·.peer addr) with
      | some x =>
        have hm : x ∈ p.sessions := List.mem_of_find?_eq_some hx
        have ha := List.find?_some hx
        exact ⟨p.upd x.ref fun x => { x with lastRxMs := p.now }, _, mem_upd_self hm rfl, .inr ha,
          rfl⟩
      | none =>
        have hw := Bool.eq_true_of_not_eq_false fun hw => hr ⟨hx, hw⟩
        simp only [hw, Bool.not_true, Bool.false_eq_true, if_false]
        exact ⟨sessionCreate addr { p with
          flowCreatedWin := (rateCheck cfg.udpFlowCreationRate p.now p.flowCreatedWin).2 }, _,
          List.mem_cons_self, .inl rfl, rfl⟩

lemma carried (hk : k.closed = false)
    (h : step cfg digest p ⟨now, loop, k, .packet addr d hs reads a⟩ = some p') :
    Carried cfg digest { p with now := now, loop := loop } addr a k d hs reads p'
      (decision cfg addr d { p with now := now, loop := loop }) := by
  unfold step at h
  split_ifs at h
  obtain rfl := some.inj h
  exact carried_packet hk

lemma verdict_forward : (forwardDecision cfg flowId len p).verdict ≠ .inl .rateLimit := by
  unfold forwardDecision queueDecision
  dsimp only
  split <;> [skip; split_ifs] <;> nofun

lemma verdict_packet (hm : len ≤ toU64 cfg.udpMaxDatagramSize) (hr : Refused cfg addr p) :
    (packetDecision cfg addr len p).verdict = .inl .rateLimit ↔
      (tunnelPktLimit cfg p).1 = false ∨ flowFindSrc addr p = none := by
  rw [packetDecision, if_neg (by omega), clientDecision]
  have hf : flowFindSrc addr (tunnelPktLimit cfg p).2 = flowFindSrc addr p := rfl
  dsimp only
  cases hl : (tunnelPktLimit cfg p).1 with
  | false => simp [Decision.verdict]
  | true =>
    rw [if_neg (by simp), hf]
    cases hf : flowFindSrc addr p with
    | some f => simpa using verdict_forward
    | none =>
      have hw : (rateCheck cfg.udpFlowCreationRate (tunnelPktLimit cfg p).2.now
        (tunnelPktLimit cfg p).2.flowCreatedWin).1 = false := hr.2
      simp [hw, Decision.verdict]

end

lemma opened_run (D : Decision) (d : Bytes) : (D.run cfg a d).opened = D.plane.opened := by
  cases D with
  | dropped => rfl
  | queued => exact still_pumpOut.opened

end

end TunnelMate.Udp
