import TunnelMate.Proofs.Steps
import TunnelMate.Proofs.UdpGate

/-!
# The broker's streams and planes run as they do alone

Whatever the broker does, each of its live streams is in a state that a run of `Relay` reaches, and
the UDP plane of each of its tunnels in one that a run of `Udp` reaches.
-/

namespace TunnelMate

open Table

variable {digest : Bytes → Digest} {b₀ b b' : Broker} {e : BrokerEvent} {cfg : BrokerCfg}

def RelayRun (c : Duplex.Config Relay.Tail) : Prop := ∃ tr, Trace Relay.step Relay.Init tr c

def PlaneRun (cfg : BrokerCfg) (digest : Bytes → Digest) (p : Udp.Plane) : Prop :=
  ∃ tr, Trace (Udp.step cfg digest) Udp.Init tr p

lemma RelayRun.step {c c' : Duplex.Config Relay.Tail} {l : Relay.Label}
    (h : RelayRun c) (hs : Relay.step c l = some c') : RelayRun c' := by
  obtain ⟨tr, h⟩ := h
  exact ⟨_, h.next hs⟩

lemma PlaneRun.stop {p : Udp.Plane} (h : PlaneRun cfg digest p) :
    PlaneRun cfg digest (Udp.tmUdpStop p) := by
  obtain ⟨tr, h⟩ := h
  let l : Udp.Label := { now := p.now, loop := p.loop, creds := ⟨false, [], []⟩, ev := .stop }
  have hs : Udp.step cfg digest p l = some (Udp.tmUdpStop p) :=
    if_pos ⟨Nat.le_refl _, Nat.le_refl _, (Udp.Inv.of_trace h).clock⟩
  exact ⟨_, h.next hs⟩

lemma PlaneRun.tunnel {t t' : Tunnel} {reuse : Prop} (h : PlaneRun cfg digest t.udp)
    (hs : t.Step cfg digest reuse t') : PlaneRun cfg digest t'.udp := by
  rcases hs.udp with he | he | ⟨l, hl⟩
  · rw [he]
    exact h
  · rw [he]
    exact h.stop
  · obtain ⟨tr, h⟩ := h
    exact ⟨_, h.next hl⟩

structure Parts (digest : Bytes → Digest) (b : Broker) : Prop where
  streams : ∀ st ∈ b.streams, RelayRun st.relay
  planes : ∀ t ∈ b.tunnels, PlaneRun b.cfg digest t.udp

lemma Parts.init (h : BrokerInit b) : Parts digest b := by
  obtain ⟨cfg, -, rfl⟩ := h
  exact ⟨by simp, by simp⟩

lemma Parts.setRelay {x : Stream} {l : Relay.Label} {c : Duplex.Config Relay.Tail}
    {g : Stream → Option Ref} (h : Parts digest b) (hx : x ∈ b.streams)
    (hs : Relay.step x.relay l = some c) :
    Parts digest (b.updStream x.ref fun x => { x with relay := c, sockB := g x }) :=
  ⟨forall_upd (fun y hy _ => h.streams y hy) fun _ _ _ => (h.streams x hx).step hs, h.planes⟩

lemma Parts.unlink (h : Parts digest b) (c : Ref) : Parts digest (connUnlink c b) :=
  ⟨h.streams, h.planes⟩

lemma Parts.link {t : Ref} {id : ℕ} {sock : Sock} {s : Duplex.Stream} (h : Parts digest b)
    (hs : RelayRun { s := s }) : Parts digest (streamLink t id sock s b).2 :=
  ⟨List.forall_mem_cons.2 ⟨hs, h.streams⟩,
    forall_upd (fun u hu _ => h.planes u hu) fun u hu _ => h.planes u hu⟩

lemma Parts.move (hm : Move digest b₀ e b b') (h : Parts digest b) : Parts digest b' := by
  cases hm with
  | misc he =>
    obtain ⟨hf, -, ht, -, -, hs, -⟩ := Broker.core_eq.1 he
    exact ⟨hs ▸ h.streams, by rw [hf, ht]; exact h.planes⟩
  | tunnel hf =>
    exact ⟨h.streams, forall_upd (fun t ht _ => h.planes t ht) fun t ht he =>
      (h.planes t ht).tunnel (hf t ht he)⟩
  | dropAgent | addAgent | unregister =>
    exact ⟨h.streams, forall_upd (fun t ht _ => h.planes t ht) fun t ht _ => h.planes t ht⟩
  | openStream => exact h.link ⟨[], .start ⟨rfl, .inl rfl⟩⟩
  | peerStream => exact (h.link ⟨[], .start ⟨rfl, .inr ⟨_, rfl⟩⟩⟩).unlink _
  | closeStream =>
    exact ⟨fun x hx => h.streams x (mem_del.1 hx).1,
      forall_upd (fun t ht _ => h.planes t ht) fun t ht _ => h.planes t ht⟩
  | relay hx hs =>
    have h' := h.setRelay (g := Stream.sockB) hx hs
    exact ⟨h'.streams, h'.planes⟩
  | @attach x conn c hx _ hs =>
    have h' := h.setRelay (g := fun _ => some conn) hx hs
    exact ⟨h'.streams, h'.planes⟩
  | addTunnel hc =>
    exact ⟨h.streams, List.forall_mem_cons.2 ⟨⟨[], .start hc.udp⟩, h.planes⟩⟩
  | free => exact ⟨h.streams, fun t ht => h.planes t (mem_del.1 ht).1⟩
  | _ => exact ⟨h.streams, h.planes⟩

lemma Parts.of_trace {tr : List (Broker × BrokerEvent)}
    (h : Trace (brokerStep digest) BrokerInit tr b) : Parts digest b :=
  inv_of_moves (fun _ => .init) (fun _ _ _ _ (_ : True) _ hm hp => hp.move hm) h fun _ _ => trivial

end TunnelMate
