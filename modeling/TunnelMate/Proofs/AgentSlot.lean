import TunnelMate.Proofs.Steps

/-!
# The agent of a tunnel

A tunnel is online just while it has an agent, which is one of its own and its only one.
-/

namespace TunnelMate

open Option Table

variable {digest : Bytes → Digest} {b₀ b b' : Broker} {e : BrokerEvent}

structure AgentSlots (b : Broker) : Prop where
  online : ∀ t ∈ b.tunnels, t.agentOnline = t.agent.isSome
  own : ∀ t ∈ b.tunnels, ∀ a, t.agent = some a → ∃ x ∈ b.agents, x.ref = a ∧ x.tun = t.ref
  distinct : ∀ t ∈ b.tunnels, ∀ u ∈ b.tunnels, ∀ a, t.agent = some a → u.agent = some a → t = u
  single : ∀ x ∈ b.agents, ∀ y ∈ b.agents, x.tun = y.tun → x = y

def OnlineOk (b : Broker) : Prop := ∀ t ∈ b.tunnels, t.agentOnline = t.agent.isSome

lemma Wf.agentSlots (hw : Wf b) (ho : OnlineOk b) : AgentSlots b where
  online := ho
  own := hw.tunAgent
  distinct t ht u hu a hta hua := by
    obtain ⟨x, hx, hxa, hxt⟩ := hw.tunAgent t ht a hta
    obtain ⟨y, hy, hya, hyu⟩ := hw.tunAgent u hu a hua
    have hxy : x = y := eq_of_key hw.agents.nodup hx hy (hxa.trans hya.symm)
    exact hw.tunnel_eq hu ht (by rw [← hxt, hxy, hyu])
  single x hx y hy hxy := by
    obtain ⟨t, ht, -, htx, hta⟩ := hw.agentTun x hx
    obtain ⟨u, hu, -, huy, hua⟩ := hw.agentTun y hy
    have htu : t = u := hw.tunnel_eq hu ht (by rw [htx, hxy, huy])
    rw [htu, hua] at hta
    exact eq_of_key hw.agents.nodup hx hy (some.inj hta).symm

lemma OnlineOk.updTun {T : Ref} {f : Tunnel → Tunnel} (h : OnlineOk b)
    (hf : ∀ t ∈ b.tunnels, t.agentOnline = t.agent.isSome →
      (f t).agentOnline = (f t).agent.isSome) : OnlineOk (b.updTun T f) :=
  forall_upd (fun t ht _ => h t ht) fun t ht _ => hf t ht (h t ht)

lemma OnlineOk.move (hm : Move digest b₀ e b b') (h : OnlineOk b) : OnlineOk b' := by
  cases hm with
  | misc he =>
    intro t ht
    exact h t ((Broker.core_eq.1 he).2.2.1 ▸ ht)
  | tunnel hf hk =>
    refine forall_upd (fun t ht _ => h t ht) fun t ht he => ?_
    rw [(hk t ht he).online, (hf t ht he).agent]
    exact h t ht
  | dropAgent =>
    refine .updTun h fun t _ ho => ?_
    split_ifs
    · rfl
    · exact ho
  | addAgent => exact .updTun h fun _ _ _ => rfl
  | openStream | peerStream | closeStream | unregister => exact .updTun h fun _ _ ho => ho
  | addTunnel hc => exact List.forall_mem_cons.2 ⟨by simp [hc.online, hc.agent], h⟩
  | free => exact fun t ht => h t (mem_del.1 ht).1
  | _ =>
    exact h

lemma OnlineOk.of_trace {tr : List (Broker × BrokerEvent)}
    (h : Trace (brokerStep digest) BrokerInit tr b) : OnlineOk b := by
  refine inv_of_moves (fun b hi => ?_) (fun _ _ _ _ (_ : True) _ hm ho => ho.move hm) h
    fun _ _ => trivial
  obtain ⟨cfg, -, rfl⟩ := hi
  simp [OnlineOk]

/-! ## Late events -/

def BrokerEvent.toAgent : BrokerEvent → Option Ref
  | .agentFrame a _ _ => some a
  | .agentEnd a => some a
  | .agentPing a _ => some a
  | _ => none

def SlotsKept (a : Ref) (b b' : Broker) : Prop :=
  ∀ t ∈ b.tunnels, t.agent ≠ some a →
    ∃ t' ∈ b'.tunnels, t'.ref = t.ref ∧ t'.agent = t.agent ∧ t'.agentOnline = t.agentOnline

lemma SlotsKept.of_tunnels {a : Ref} (h : b'.tunnels = b.tunnels) : SlotsKept a b b' :=
  fun t ht _ => ⟨t, h ▸ ht, rfl, rfl, rfl⟩

lemma SlotsKept.drop (a : Ref) : SlotsKept a b (tmAgentDrop a b) := by
  refine tmAgentDrop_rule (I := SlotsKept a b) (.of_tunnels rfl) fun x _ hx t ht ha => ?_
  refine exists_upd ⟨t, ht, rfl, rfl, rfl⟩ fun u _ _ hu => ?_
  have hn : u.agent ≠ some x.ref := by
    rw [hu.2.1, hx]
    exact ha
  rw [if_neg hn, if_neg hn]
  exact hu

lemma SlotsKept.closeStream (a st : Ref) : SlotsKept a b (tmStreamClose st b) :=
  tmStreamClose_rule (I := SlotsKept a b) (.of_tunnels rfl) fun _ _ _ t ht _ =>
    exists_upd ⟨t, ht, rfl, rfl, rfl⟩ fun _ _ _ hu => hu

lemma SlotsKept.agentFrame {a : Agent} {f : Frame} {k : Bool}
    (h : agentFrame a f k b = some b') : SlotsKept a.ref b b' := by
  unfold TunnelMate.agentFrame at h
  split at h
  · split_ifs at h
    cases h
    exact .of_tunnels rfl
  case h_2 | h_3 | h_4 =>
    split at h <;> cases h
    · exact .of_tunnels rfl
    · exact .closeStream _ _
  · cases h
    exact .of_tunnels rfl

lemma SlotsKept.step {a : Ref} (ha : e.toAgent = some a) (h : brokerStep digest b e = some b') :
    SlotsKept a b b' := by
  unfold brokerStep at h
  dsimp only at h
  split_ifs at h
  cases e with
  | agentFrame r f k =>
    obtain rfl := some.inj ha
    obtain ⟨x, hx, hf⟩ := bind_eq_some_iff.1 h
    obtain rfl : x.ref = r := key_of_get hx
    exact .agentFrame hf
  | agentEnd r =>
    obtain rfl := some.inj ha
    cases h
    exact .drop r
  | agentPing r k =>
    obtain rfl := some.inj ha
    cases h
    unfold tmAgentSendFrame
    split
    · exact .of_tunnels rfl
    · split_ifs
      · exact .of_tunnels rfl
      · exact .drop r
  | _ => cases ha

/-- In every run each tunnel has at most one agent, its own, and is online just then; an event of an
agent that was replaced does not touch the new one. -/
theorem agent_slot {tr : List (Broker × BrokerEvent)}
    (h : Trace (brokerStep digest) BrokerInit tr b) :
    AgentSlots b ∧ ∀ e a b', e.toAgent = some a → brokerStep digest b e = some b' →
      SlotsKept a b b' :=
  ⟨(Wf.of_trace h).agentSlots (.of_trace h), fun _ _ _ ha hs => .step ha hs⟩

theorem agent_slot_replaced : ∃ tr b, Trace (brokerStep padDigest) BrokerInit tr b ∧
    AgentSlots b ∧ (∃ t ∈ b.tunnels, t.agent = some 4) ∧
    ∃ b', brokerStep padDigest b (.agentEnd 2) = some b' ∧
      ∃ t' ∈ b'.tunnels, t'.agent = some 4 := by
  obtain ⟨tr, b, h, ⟨t, ht, ha⟩, hq⟩ := smallBroker_trace
    [creates [65] false, .controlAccept, sends 1 .hello 0 [], sends 1 .register 0 [0, 1, 65, 1],
      .controlAccept, sends 3 .hello 0 [], sends 3 .register 0 [0, 1, 65, 1]]
    (fun r => (∃ t ∈ r.2.tunnels, t.agent = some 4) ∧
      (brokerStep padDigest r.2 (.agentEnd 2)).isSome = true) (by decide)
  obtain ⟨b', hb'⟩ := isSome_iff_exists.1 hq
  obtain ⟨hs, hk⟩ := agent_slot h
  obtain ⟨t', ht', -, ha', -⟩ := hk _ _ _ rfl hb' t ht (by rw [ha]; decide)
  exact ⟨tr, b, h, hs, ⟨t, ht, ha⟩, b', hb', t', ht', ha'.trans ha⟩

end TunnelMate
