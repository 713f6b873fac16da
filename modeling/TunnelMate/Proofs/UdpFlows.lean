import TunnelMate.Proofs.Udp

/-!
# Replies and idle flows of a UDP tunnel

A flow id stands for one endpoint in the whole life of a tunnel, so a late reply can be dropped but
never reaches anyone else.
-/

namespace TunnelMate.Udp

variable {cfg : BrokerCfg} {digest : Bytes → Digest} {tr : List (Plane × Label)} {p : Plane}

/-! ## Replies -/

/-- The datagram brings the payload of the agent envelope `r` to the endpoint, and to it only: to a
client's address as it is, or on a peer's session under the peer's own flow id. -/
def Out.Brings (opened : List (Ref × Addr)) (r : Reply) (o : Out) : Endpoint → Prop
  | .client src => o = { session := none, dst := src, body := .raw r }
  | .peer s srcFlowId => (s, o.dst) ∈ opened ∧
      o = { session := some s, dst := o.dst, body := .record (some
        { env := tmEnvEncode srcFlowId 0 r.payload, reply := some r }) }

lemma Delivered.brings {opened : List (Ref × Addr)} {assigned : List (ℕ × Endpoint)} {o : Out}
    (h : Delivered opened assigned o) {r : Reply} (hr : o.reply = some r) :
    ∃ ep, (r.flowId, ep) ∈ assigned ∧ o.Brings opened r ep := by
  obtain ⟨session, dst, body⟩ := o
  cases body with
  | raw r' =>
    obtain rfl : r' = r := Option.some.inj hr
    obtain ⟨rfl, hm⟩ := h
    exact ⟨_, hm, rfl⟩
  | record =>
    obtain ⟨q', rfl, hq⟩ := Option.bind_eq_some_iff.1 hr
    obtain ⟨s, rfl, ho, hc⟩ := h
    obtain ⟨i, hi, he⟩ := hc q' rfl r hq
    refine ⟨_, hi, ho, ?_⟩
    rw [← he, ← hq]

/-- In a run with fewer than `2 ^ 64` flows no flow id is given out twice, and the payload of an
agent envelope goes to the endpoint its flow id was given to, or nowhere. -/
theorem reply_routed (h : Trace (step cfg digest) Init tr p) (hn : p.assigned.length < 2 ^ 64) :
    (p.assigned.map Prod.fst).Nodup ∧ (p.opened.map Prod.fst).Nodup ∧
    (∀ o ∈ p.sent, ∀ r, o.reply = some r → ∃ ep, (r.flowId, ep) ∈ p.assigned ∧
      (∀ ep', (r.flowId, ep') ∈ p.assigned → ep' = ep) ∧ o.Brings p.opened r ep) ∧
    ∀ e a, (∀ f ∈ p.flows, f.flowId ≠ e.flowId) → agentSessionEnv cfg e a p = if e.flowId = 0 then p
      else { p with ctr.udpDroppedNoFlow := p.ctr.udpDroppedNoFlow + 1 } := by
  have hi := Inv.of_trace h
  obtain ⟨-, hd, -⟩ := hi.counted hn
  refine ⟨hd, hi.opened.1, fun o ho r hr => ?_, fun e a he => ?_⟩
  · obtain ⟨ep, hm, hb⟩ := (hi.sent o ho).brings hr
    refine ⟨ep, hm, fun ep' hm' => ?_, hb⟩
    exact congrArg Prod.snd (List.inj_on_of_nodup_map hd hm' hm rfl)
  · have hf : flowFind e.flowId p = none := by
      simpa [flowFind] using he
    rw [agentSessionEnv, hf]

section Runs

def zeroDigest : Bytes → Digest := fun _ => .replicate 32 0

def zeroCreds : Creds :=
  { closed := false, agentSecretHmac := .replicate 64 48, sharedTokenHmac := [] }

def client : Addr := { family := .inet, ip := [10, 0, 0, 1], port := 5000 }

def whole : PumpAns := { ssl := .whole, send := true }

def clientAt (ms : ℕ) : Label :=
  { now := ms, loop := ms, creds := zeroCreds, ev := .packet client [7] (.want 0) [] whole }

def agentSends (env : Bytes) : Label :=
  { now := 0, loop := 0, creds := zeroCreds,
    ev := .packet { family := .inet, ip := [10, 0, 0, 2], port := 6000 }
      (22 :: 0xfe :: .replicate 11 0xfd) (.done 0) [(env, whole)] whole }

def idleAt (ms : ℕ) : Label :=
  { now := ms, loop := ms, creds := zeroCreds, ev := .flowIdle 0 }

theorem reply_routed_client : ∃ tr p, Trace (step {} zeroDigest) Init tr p ∧
    p.assigned.length < 2 ^ 64 ∧ ∃ o ∈ p.sent, o.reply = some ⟨1, [9]⟩ ∧
      ∃ ep, (1, ep) ∈ p.assigned ∧ o.Brings p.opened ⟨1, [9]⟩ ep := by
  obtain ⟨tr, p, h, hn, hr⟩ := exists_trace (step {} zeroDigest) Init rfl
    [agentSends (tmEnvEncode 0 2 [1]), clientAt 0, agentSends (tmEnvEncode 1 0 [9])]
    (fun r => r.2.assigned.length < 2 ^ 64 ∧ ∃ o ∈ r.2.sent, o.reply = some ⟨1, [9]⟩) (by decide)
  obtain ⟨o, ho, hor⟩ := hr
  obtain ⟨ep, hm, -, hb⟩ := (reply_routed h hn).2.2.1 o ho _ hor
  exact ⟨tr, p, h, hn, o, ho, hor, ep, hm, hb⟩

end Runs

/-! ## Idle flows -/

def Inactive (cfg : BrokerCfg) (p : Plane) (l : Label) : Prop :=
  ∀ f, l.ev = .flowIdle f → ∀ t, (f, t) ∈ p.seen → t + toU64 cfg.udpFlowIdleTimeoutMs ≤ l.now

def IdleOk (p : Plane) (l : Label) : Prop :=
  ∀ x ∈ p.flows, l.ev = .flowIdle x.ref → x.lastSeenMs ≤ x.armedMs

instance (p : Plane) (l : Label) : Decidable (IdleOk p l) :=
  inferInstanceAs (Decidable (∀ x ∈ p.flows, l.ev = .flowIdle x.ref → x.lastSeenMs ≤ x.armedMs))

lemma step_flowIdle {l : Label} {q : Plane} {f : Ref} (hs : step cfg digest p l = some q)
    (hl : l.ev = .flowIdle f) : l.loop ≤ l.now ∧
      ∃ x ∈ p.flows, x.ref = f ∧ x.armedMs + toU64 cfg.udpFlowIdleTimeoutMs ≤ l.loop := by
  unfold step at hs
  split_ifs at hs with ht
  rw [hl] at hs
  simp only [handle] at hs
  split at hs
  · simp at hs
  · rename_i x hx
    split_ifs at hs with ha
    exact ⟨ht.2.2, x, Table.mem_of_get hx, Table.key_of_get hx, ha⟩

lemma Inv.inactive_iff (h : Inv p) {l : Label} {x : Flow} (hx : x ∈ p.flows)
    (hl : l.ev = .flowIdle x.ref) (ht : l.now = x.armedMs + toU64 cfg.udpFlowIdleTimeoutMs) :
    Inactive cfg p l ↔ x.lastSeenMs ≤ x.armedMs := by
  obtain ⟨hm, hle⟩ := h.last x hx
  constructor
  · intro hi
    have := hi x.ref hl _ hm
    omega
  · intro ha f hf t hs
    obtain rfl : x.ref = f := by
      rw [hl] at hf
      exact Event.flowIdle.inj hf
    have := hle _ hs rfl
    dsimp only at this
    omega

/-- In a run in which every flow that an idle timer removes had its last datagram no later than the
timer was started, none of them was active; the condition is also necessary. -/
theorem flow_idle (h : Trace (step cfg digest) Init tr p) :
    ((∀ q ∈ tr, IdleOk q.1 q.2) → ∀ q ∈ tr, Inactive cfg q.1 q.2) ∧
    ∀ q ∈ tr, ∀ x ∈ q.1.flows, q.2.ev = .flowIdle x.ref →
      q.2.now = x.armedMs + toU64 cfg.udpFlowIdleTimeoutMs →
      (Inactive cfg q.1 q.2 ↔ IdleOk q.1 q.2) := by
  refine ⟨fun hok q hq f hl t hs => ?_, fun q hq x hx hl ht => ?_⟩
  · obtain ⟨_, _, htr, hst, -⟩ := h.of_mem hq
    obtain ⟨hn, x, hx, rfl, ha⟩ := step_flowIdle hst hl
    have hle := ((Inv.of_trace htr).last x hx).2 _ hs rfl
    have := hok q hq x hx hl
    dsimp only at hle
    omega
  · obtain ⟨_, _, htr, -⟩ := h.of_mem hq
    have hi := Inv.of_trace htr
    rw [hi.inactive_iff hx hl ht]
    refine ⟨fun hle y hy hl' => ?_, fun hok => hok x hx hl⟩
    rw [hl] at hl'
    have : x = y := Table.eq_of_key hi.flows.nodup hx hy (Event.flowIdle.inj hl')
    rwa [← this]

theorem flow_idle_silent : ∃ tr p, Trace (step {} zeroDigest) Init tr p ∧
    (∀ q ∈ tr, IdleOk q.1 q.2) ∧ (∃ q ∈ tr, q.2.ev = .flowIdle 0) ∧
      ∀ q ∈ tr, Inactive {} q.1 q.2 := by
  obtain ⟨tr, p, h, hok, hi⟩ := exists_trace (step {} zeroDigest) Init rfl
    [clientAt 0, idleAt 30000]
    (fun r => (∀ q ∈ r.1, IdleOk q.1 q.2) ∧ ∃ q ∈ r.1, q.2.ev = .flowIdle 0) (by decide)
  exact ⟨tr, p, h, hok, hi, (flow_idle h).1 hok⟩

/-- Datagrams at 0 ms and at 29999 ms: the timer removes the flow at 30000 ms, one millisecond after
the second one. -/
theorem flow_idle_active : ∃ tr p, Trace (step {} zeroDigest) Init tr p ∧
    ∃ q ∈ tr, ¬ Inactive {} q.1 q.2 := by
  obtain ⟨tr, p, h, q, hq, hl, hs, hn⟩ := exists_trace (step {} zeroDigest) Init rfl
    [clientAt 0, clientAt 29999, idleAt 30000]
    (fun r => ∃ q ∈ r.1, q.2.ev = .flowIdle 0 ∧ (0, 29999) ∈ q.1.seen ∧ q.2.now = 30000)
    (by decide)
  refine ⟨tr, p, h, q, hq, fun hi => ?_⟩
  have ht : toU64 ({} : BrokerCfg).udpFlowIdleTimeoutMs = 30000 := by decide
  have := hi 0 hl 29999 hs
  omega

end TunnelMate.Udp
