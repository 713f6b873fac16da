import TunnelMate.Proofs.Parts
import TunnelMate.Proofs.Registry
import TunnelMate.Proofs.UdpTable

/-!
# The flows of all tunnels

A tunnel's flows are limited by `udp_max_flows_per_tunnel` and the tunnels by `max_tunnels`; nothing
else limits the flows there are.
-/

namespace TunnelMate

open List

def Broker.flowTotal (b : Broker) : ℕ := (b.tunnels.map fun t => t.udp.flows.length).sum

variable {digest : Bytes → Digest} {b₀ b b' : Broker} {e : BrokerEvent}

structure RegistryCapped (b : Broker) : Prop where
  count : (b.entries.length : ℤ) ≤ b.tunnelCount
  limit : b.tunnelCount ≤ max 0 b.cfg.maxTunnels

lemma RegistryCapped.move (hm : Move digest b₀ e b b') (hw : Wf b) (h : RegistryCapped b) :
    RegistryCapped b' := by
  have hc := h.count
  have hl := h.limit
  have hf := hm.cfg_eq
  cases hm.onRegistry hw with
  | same hn hes | noPort hn hes => exact ⟨by rw [hn, hes]; exact hc, by rw [hn, hf]; exact hl⟩
  | add hcr hn hes =>
    have hlt := hcr.count
    refine ⟨?_, by rw [hn, hf]; omega⟩
    rw [hn, hes, length_cons]
    push_cast
    omega
  | remove ht hes _ hg =>
    obtain ⟨hr, hn⟩ | ⟨-, hn⟩ := hg
    · have hlt : b'.entries.length < b.entries.length := by
        rw [hes]
        refine length_filter_lt_length_iff_exists.2 ⟨_, mem_entries.2 ⟨_, ht, hr, rfl⟩, ?_⟩
        simp
      exact ⟨by rw [hn]; omega, by rw [hn, hf]; omega⟩
    · have hle : b'.entries.length ≤ b.entries.length := by
        rw [hes]
        exact length_filter_le _ _
      exact ⟨by rw [hn]; omega, by rw [hn, hf]; exact hl⟩

lemma RegistryCapped.of_trace {tr : List (Broker × BrokerEvent)}
    (h : Trace (brokerStep digest) BrokerInit tr b) : RegistryCapped b := by
  refine inv_of_moves ?_ (fun _ _ _ _ (_ : True) hw hm hc => hc.move hm hw) h fun _ _ => trivial
  rintro b ⟨cfg, -, rfl⟩
  exact ⟨le_rfl, by simp⟩

lemma flows_le {n : ℕ} {ts : List Tunnel} (hn : ∀ t ∈ ts, t.udp.flows.length ≤ n)
    (hu : ∀ t ∈ ts, t.registered = false → t.udp.flows = []) :
    (ts.map fun t => t.udp.flows.length).sum ≤ (ts.filterMap Tunnel.held).length * n := by
  induction ts with
  | nil => simp
  | cons t ts ih =>
    have hi := ih (fun x hx => hn x (mem_cons_of_mem _ hx)) fun x hx => hu x (mem_cons_of_mem _ hx)
    rw [map_cons, sum_cons, filterMap_cons]
    cases hr : t.registered with
    | false =>
      rw [hu t mem_cons_self hr, Tunnel.held, hr]
      simpa using hi
    | true =>
      have ht := hn t mem_cons_self
      rw [Tunnel.held, hr]
      simp only [if_true, length_cons]
      rw [Nat.succ_mul]
      omega

/-- In every run the flows of all tunnels stay within `udp_max_flows`, if that is enough for the
tunnels there are, which are at most `max_tunnels`. -/
theorem flows_capped {tr : List (Broker × BrokerEvent)}
    (h : Trace (brokerStep digest) BrokerInit tr b) (h0 : 0 ≤ b.cfg.udpMaxFlowsPerTunnel) :
    (b.entries.length : ℤ) ≤ max 0 b.cfg.maxTunnels ∧
    (b.entries.length * b.cfg.udpMaxFlowsPerTunnel ≤ b.cfg.udpMaxFlows →
      (b.flowTotal : ℤ) ≤ b.cfg.udpMaxFlows) := by
  have hparts := Parts.of_trace h
  have hok := (Wf.of_trace h).ok
  have hc := RegistryCapped.of_trace h
  have hsum : b.flowTotal ≤ b.entries.length * toU64 b.cfg.udpMaxFlowsPerTunnel := by
    refine flows_le (fun t ht => ?_) fun t ht hr => ((hok t ht).unregistered hr).plane.2
    obtain ⟨_, hr⟩ := hparts.planes t ht
    simpa using (Udp.Tidy.of_trace hr).few
  refine ⟨hc.count.trans hc.limit, fun hp => ?_⟩
  calc (b.flowTotal : ℤ)
      ≤ b.entries.length * toU64 b.cfg.udpMaxFlowsPerTunnel := by exact_mod_cast hsum
    _ ≤ b.entries.length * b.cfg.udpMaxFlowsPerTunnel :=
      Int.mul_le_mul_of_nonneg_left (Udp.toU64_le h0) (Int.natCast_nonneg _)
    _ ≤ b.cfg.udpMaxFlows := hp

def oneFlowBroker (n : ℤ) : Broker :=
  { cfg := { publicPortStart := 1, publicPortEnd := 2, maxTunnels := n, udpMaxFlowsPerTunnel := 1,
             udpMaxFlows := 1 }
    ports := { tcp := [false, false], udp := [false, false] } }

lemma oneFlowBroker_init (n : ℤ) : BrokerInit (oneFlowBroker n) := ⟨_, Nat.le_succ 1, rfl⟩

def createsOpenUdp (id : Bytes) : BrokerEvent :=
  .ipc (.createTunnel { tunnelId := id, proto := .udp, closed := false } [] [] true)

def clientSends (T : Ref) : BrokerEvent :=
  .udp T (.packet { family := .inet, ip := [10, 0, 0, 1], port := 5000 } [7] (.want 0) []
    { ssl := .want, send := true })

theorem flows_capped_one : ∃ tr b, Trace (brokerStep padDigest) BrokerInit tr b ∧
    b.flowTotal = 1 ∧ (b.flowTotal : ℤ) ≤ b.cfg.udpMaxFlows := by
  obtain ⟨tr, b, h, hf, h0, hp⟩ := exists_trace (brokerStep padDigest) BrokerInit
    (oneFlowBroker_init 2) [createsOpenUdp [65], clientSends 0]
    (fun r => r.2.flowTotal = 1 ∧ 0 ≤ r.2.cfg.udpMaxFlowsPerTunnel ∧
      r.2.entries.length * r.2.cfg.udpMaxFlowsPerTunnel ≤ r.2.cfg.udpMaxFlows) (by decide)
  exact ⟨tr, b, h, hf, (flows_capped h h0).2 hp⟩

/-- Two tunnels have a flow each, where one is configured for both. -/
theorem flows_above_cap : ∃ tr b, Trace (brokerStep padDigest) BrokerInit tr b ∧
    b.flowTotal = 2 ∧ b.cfg.udpMaxFlows = 1 :=
  exists_run (oneFlowBroker_init 2)
    [createsOpenUdp [65], createsOpenUdp [66], clientSends 0, clientSends 1] (by decide)

end TunnelMate
