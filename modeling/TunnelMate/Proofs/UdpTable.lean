import Mathlib.Data.List.Pairwise
import TunnelMate.Proofs.UdpAuth
import TunnelMate.Proofs.UdpGate

/-!
# The sessions and flows of a UDP plane

A flow of a peer refers to a listed session, the agent's slot holds one that has authenticated as
the agent, and no two flows have the same endpoint.
-/

namespace TunnelMate.Udp

open List Table Udp.Flow

def Flow.entry (f : Flow) : ℕ × Endpoint := (f.flowId, f.ep)

structure Tidy (cfg : BrokerCfg) (p : Plane) : Prop where
  entries : (p.flows.map entry).Sublist p.assigned
  single : (p.flows.map ep).Pairwise fun e e' => e'.same e = false
  few : (p.flows.map ep).length ≤ toU64 cfg.udpMaxFlowsPerTunnel

variable {f : Flow}

namespace Tidy

variable {cfg : BrokerCfg} {digest : Bytes → Digest} {p p' : Plane} {s : Ref} {a : PumpAns}

lemma init : Tidy cfg {} := ⟨by simp, by simp, by simp⟩

section

variable (h : Tidy cfg p)
include h

lemma keep (he : (p'.flows.map entry).Sublist (p.flows.map entry))
    (hg : p'.assigned = p.assigned) : Tidy cfg p' := by
  have heps : (p'.flows.map ep).Sublist (p.flows.map ep) := by
    have := he.map Prod.snd
    rwa [map_map, map_map] at this
  exact ⟨hg ▸ he.trans h.entries, h.single.sublist heps, heps.length_le.trans h.few⟩

lemma still (hs : Still p p') : Tidy cfg p' := h.keep (by rw [hs.flows]) hs.assigned

lemma touch {f : Ref} {plen : ℕ} : Tidy cfg (touch f plen p) := by
  have he : (Udp.touch f plen p).flows.map entry = p.flows.map entry := map_upd fun _ _ _ => rfl
  exact h.keep (by rw [he]) rfl

lemma flowNew {ep : Endpoint} (hnew : ∀ f ∈ p.flows, f.ep.same ep = false)
    (hfew : p.flows.length < toU64 cfg.udpMaxFlowsPerTunnel) : Tidy cfg (flowNew ep p).2 where
  entries := h.entries.cons_cons _
  single := pairwise_cons.2 ⟨forall_mem_map.2 hnew, h.single⟩
  few := by
    have hl : (p.flows.map Flow.ep).length < toU64 cfg.udpMaxFlowsPerTunnel := by
      rwa [length_map]
    exact hl

lemma act {P : Bytes → Prop} {R : Reply → Prop} {N : Endpoint → Prop}
    (ha : Act cfg P R N p p') : Tidy cfg p' := by
  cases ha with
  | count => exact { h with }
  | touch => exact h.touch
  | flow _ hnew hfew => exact h.flowNew hnew hfew
  | toAgent | toPeer => exact h.still still_sessionQueue
  | toClient => exact h.still still_udpSendRaw

lemma tmUdpSessionClose : Tidy cfg (tmUdpSessionClose s p) := by
  unfold Udp.tmUdpSessionClose
  split
  · exact h
  · exact h.keep (filter_sublist.map _) rfl

lemma sendDone {s : Option Ref} : Tidy cfg (sendDone cfg s a p) := by
  unfold Udp.sendDone
  dsimp only
  split
  · exact { h with }
  split_ifs
  · rw [sessionMaybeFree_eq]
    exact { h with }
  · refine still ?_ still_pumpOut
    exact { h with }

lemma turn {p₀ : Plane} {ev : Event} {o : Option Ref} (ht : Turn cfg p₀ ev o p p') :
    Tidy cfg p' := by
  cases ht with
  | relay ha => exact h.act ha
  | flags | become => exact { h with }
  | pump => exact h.still still_pumpOut
  | answer => exact h.still still_sessionQueue
  | replace => exact { h.tmUdpSessionClose with }
  | create => exact { h with }
  | expire => exact h.tmUdpSessionClose
  | done => exact h.sendDone
  | timerClosed =>
    rw [sessionTimerClosed, sessionMaybeFree_eq]
    exact { h with }
  | flowIdle => exact h.keep (filter_sublist.map _) rfl
  | stop => exact h.keep (nil_sublist _) rfl

end

lemma of_trace {tr : List (Plane × Label)} (h : Trace (step cfg digest) Init tr p) :
    Tidy cfg p := by
  refine h.inv (fun _ hp => ?_) fun p l q ht hs => ?_
  · rw [hp]
    exact init
  · obtain ⟨-, o, hq⟩ := step_turns hs
    exact hq.inv (fun _ _ hm ht => ht.turn hm) { ht with }

end Tidy

/-! ## The tables -/

section Table

variable {cfg : BrokerCfg} {digest : Bytes → Digest} {tr : List (Plane × Label)} {p : Plane}

lemma tmAddrEq_comm (a b : Addr) : tmAddrEq a b = tmAddrEq b a := by
  rw [Bool.eq_iff_iff]
  simp only [tmAddrEq, Bool.and_eq_true, decide_eq_true_eq]
  constructor
  · rintro ⟨⟨⟨hf, hu⟩, hp⟩, hip⟩
    exact ⟨⟨⟨hf.symm, hf ▸ hu⟩, hp.symm⟩, hip.symm⟩
  · rintro ⟨⟨⟨hf, hu⟩, hp⟩, hip⟩
    exact ⟨⟨⟨hf.symm, hf ▸ hu⟩, hp.symm⟩, hip.symm⟩

lemma Endpoint.same_comm (e e' : Endpoint) : e.same e' = e'.same e := by
  cases e with
  | client a =>
    cases e' with
    | client b => exact tmAddrEq_comm a b
    | peer => rfl
  | peer =>
    cases e' with
    | client => rfl
    | peer => simp only [Endpoint.same, eq_comm]

lemma Tidy.eq_of_same (h : Tidy cfg p) {g : Flow} (hf : f ∈ p.flows) (hg : g ∈ p.flows)
    (he : f.ep.same g.ep = true) : f = g := by
  by_contra hne
  have : Std.Symm fun f g : Flow => g.ep.same f.ep = false :=
    ⟨fun f g hfg => (Endpoint.same_comm _ _).trans hfg⟩
  have hd := (pairwise_map.1 h.single).forall hg hf (.symm hne)
  exact Bool.false_ne_true (hd.symm.trans he)

lemma toU64_le {v : ℤ} (h : 0 ≤ v) : (toU64 v : ℤ) ≤ v := by
  unfold toU64
  omega

lemma Tidy.flowIds (h : Tidy cfg p) (hi : Inv p) (hn : p.assigned.length < 2 ^ 64) :
    (∀ f ∈ p.flows, f.flowId ≠ 0) ∧ (p.flows.map flowId).Nodup := by
  obtain ⟨-, hd, hr⟩ := hi.counted hn
  refine ⟨fun f hf => ?_, ?_⟩
  · have := hr _ (hi.ids f hf)
    exact Nat.one_le_iff_ne_zero.1 this.1
  · have hs := h.entries.map Prod.fst
    rw [map_map] at hs
    exact hd.sublist hs

/-- In a run with fewer than `2 ^ 64` flows the tables of a plane agree, and the flows are no more
than the limit as the code reads it: a negative limit becomes a huge unsigned one. -/
theorem tables_consistent (h : Trace (step cfg digest) Init tr p)
    (hn : p.assigned.length < 2 ^ 64) :
    (∀ f ∈ p.flows, f.flowId ≠ 0) ∧ (p.flows.map flowId).Nodup ∧
    (∀ f ∈ p.flows, ∀ g ∈ p.flows, ∀ a b, f.ep = .client a → g.ep = .client b →
      tmAddrEq a b = true → f = g) ∧
    (∀ f ∈ p.flows, ∀ g ∈ p.flows, ∀ s i, f.ep = .peer s i → g.ep = .peer s i → f = g) ∧
    (∀ f ∈ p.flows, ∀ s i, f.ep = .peer s i →
      (∃ x ∈ p.sessions, x.ref = s) ∧ ∀ c ∈ p.closing, c.ref ≠ s) ∧
    (∀ x ∈ p.sessions, ∀ c ∈ p.closing, c.ref ≠ x.ref) ∧ (∀ s, p.agentSession = some s →
      ∃ x ∈ p.sessions, x.ref = s ∧ x.authenticated = true ∧ x.isAgent = true) ∧
    p.flows.length ≤ toU64 cfg.udpMaxFlowsPerTunnel ∧
    (0 ≤ cfg.udpMaxFlowsPerTunnel → (p.flows.length : ℤ) ≤ cfg.udpMaxFlowsPerTunnel) := by
  have ht := Tidy.of_trace h
  have hr := (RunOk.of_trace h).1
  obtain ⟨hz, hd⟩ := ht.flowIds (.of_trace h) hn
  have hopen : ∀ x ∈ p.sessions, ∀ c ∈ p.closing, c.ref ≠ x.ref := fun x hx c hc =>
    (ref_ne (Gated.of_trace h).1.fresh hx hc).symm
  have hfew : p.flows.length ≤ toU64 cfg.udpMaxFlowsPerTunnel := by
    simpa using ht.few
  refine ⟨hz, hd, fun f hf g hg a b ha hb he => ht.eq_of_same hf hg ?_,
    fun f hf g hg s i ha hb => ht.eq_of_same hf hg ?_, fun f hf s i he => ?_, hopen,
    fun s hs => ?_, hfew, fun h0 => ?_⟩
  · rw [ha, hb]
    exact he
  · rw [ha, hb]
    simp [Endpoint.same]
  · obtain ⟨x, hx, hxr⟩ := mem_map.1 (hr.flows f hf s i he)
    obtain rfl : x.ref = s := congrArg Role.ref hxr
    exact ⟨⟨x, hx, rfl⟩, hopen x hx⟩
  · obtain ⟨x, hx, he⟩ := mem_map.1 (hr.current s hs)
    exact ⟨x, hx, congrArg Role.ref he, congrArg Role.authenticated he, congrArg Role.isAgent he⟩
  · have hle := toU64_le h0
    omega

theorem tables_consistent_client : ∃ tr p, Trace (step {} zeroDigest) Init tr p ∧
    p.flows.length = 1 ∧ p.agentSession.isSome = true ∧ (p.flows.map flowId).Nodup ∧
      (p.flows.length : ℤ) ≤ ({} : BrokerCfg).udpMaxFlowsPerTunnel := by
  obtain ⟨tr, p, h, hn, hl, ha⟩ := exists_trace (step {} zeroDigest) Init rfl
    [agentSends (tmEnvEncode 0 2 [1]), clientAt 0]
    (fun r => r.2.assigned.length < 2 ^ 64 ∧ r.2.flows.length = 1 ∧ r.2.agentSession.isSome = true)
    (by decide)
  obtain ⟨-, hd, -, -, -, -, -, -, hle⟩ := tables_consistent h hn
  exact ⟨tr, p, h, hl, ha, hd, hle (by decide)⟩

/-- With the limit `-1` one flow is already more than the limit. -/
theorem flows_over_negative_limit : ¬ ∀ (cfg : BrokerCfg) (digest : Bytes → Digest)
    (tr : List (Plane × Label)) (p : Plane), Trace (step cfg digest) Init tr p →
    p.assigned.length < 2 ^ 64 → (p.flows.length : ℤ) ≤ cfg.udpMaxFlowsPerTunnel := by
  intro hall
  obtain ⟨tr, p, h, hn, hl⟩ := exists_trace
    (step { udpMaxFlowsPerTunnel := -1 } zeroDigest) Init rfl [clientAt 0]
    (fun r => r.2.assigned.length < 2 ^ 64 ∧ r.2.flows.length = 1) (by decide)
  have hle := hall _ _ tr p h hn
  rw [hl] at hle
  exact absurd hle (by decide)

end Table

end TunnelMate.Udp
