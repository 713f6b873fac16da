import TunnelMate.Proofs.RefInt

/-!
# The handles of a tunnel's sockets

`uv_tcp_init` and `uv_udp_init` want a handle that was never used or is fully closed, and so does
the release of a tunnel.
-/

namespace TunnelMate

open List Option Table

variable {digest : Bytes → Digest} {b₀ b b' : Broker} {e : BrokerEvent}

structure HandlesOk (b : Broker) : Prop where
  inits : ∀ t ∈ b.tunnels ++ b.released, ∀ h ∈ t.inits, h = .closed
  released : ∀ t ∈ b.released, t.listener = .closed ∧ t.udpSock = .closed

structure HandlesInv (b : Broker) : Prop where
  tunnels : ∀ t ∈ b.tunnels, t.Handles
  released : ∀ t ∈ b.released,
    t.listener = .closed ∧ t.udpSock = .closed ∧ ∀ h ∈ t.inits, h = .closed

lemma HandlesInv.ok (h : HandlesInv b) : HandlesOk b where
  inits t ht := (mem_append.1 ht).elim (fun ht => (h.tunnels t ht).inits)
    fun ht => (h.released t ht).2.2
  released t ht := ⟨(h.released t ht).1, (h.released t ht).2.1⟩

variable {t : Tunnel} {bound : Bool} {id : Bytes}

lemma Tunnel.Handles.closed (h : t.Handles) (hok : t.Ok) (hd : t.deleting = true)
    (hr : t.closeRefs = 0) : t.listener = .closed ∧ t.udpSock = .closed := by
  have hs := hok.unregistered (hok.deleting hd)
  have hf := h.deleting hd
  have hrefs := h.refs
  have hn := h.udpClosing
  constructor
  · cases hl : t.listener with
    | closed => rfl
    | live => exact absurd (.inl ⟨hl, hs.listener⟩) hf
    | closing => rw [hl, if_pos rfl] at hrefs; omega
  · cases hu : t.udpSock with
    | closed => rfl
    | live => exact absurd (.inr ⟨hu, hs.udpOpen⟩) hf
    | closing =>
      rw [hu, if_pos rfl] at hn
      split_ifs at hrefs <;> omega

lemma HandlesInv.upd {T : Ref} {f : Tunnel → Tunnel} (h : HandlesInv b)
    (hf : ∀ t ∈ b.tunnels, t.ref = T → t.Handles → (f t).Handles) :
    ∀ t ∈ upd T f b.tunnels, t.Handles :=
  forall_upd (fun t ht _ => h.tunnels t ht) fun t ht he => hf t ht he (h.tunnels t ht)

lemma HandlesInv.move (hok : ReuseOk b₀ e) (hw : Wf b) (hm : Move digest b₀ e b b')
    (h : HandlesInv b) : HandlesInv b' := by
  cases hm with
  | misc hc =>
    obtain ⟨-, -, ht, -, -, -, -, hr, -⟩ := Broker.core_eq.1 hc
    exact ⟨ht ▸ h.tunnels, hr ▸ h.released⟩
  | tunnel hf => exact ⟨h.upd fun t ht he => (hf t ht he).handles hok, h.released⟩
  | dropAgent | addAgent | openStream | peerStream | closeStream =>
    exact ⟨h.upd fun _ _ _ hh => { hh with }, h.released⟩
  | addTunnel hc => exact ⟨forall_mem_cons.2 ⟨hc.handles, h.tunnels⟩, h.released⟩
  | unregister d ht _ _ _ hg =>
    refine ⟨h.upd fun x hx he hh => ?_, h.released⟩
    rw [hw.tunnel_eq ht hx he] at hh ⊢
    refine { hh with deleting := fun hd => ?_ }
    obtain ⟨-, -, -, -, hf⟩ | ⟨rfl, -⟩ := hg
    · exact hf hok
    · exact hh.deleting hd
  | free ht hd hr =>
    obtain ⟨hl, hu⟩ := (h.tunnels _ ht).closed (hw.ok _ ht) hd hr
    exact ⟨fun x hx => h.tunnels x (mem_del.1 hx).1,
      forall_mem_cons.2 ⟨⟨hl, hu, (h.tunnels _ ht).inits⟩, h.released⟩⟩
  | _ =>
    exact ⟨h.tunnels, h.released⟩

lemma HandlesInv.step (hok : ReuseOk b e) (hw : Wf b) (h : HandlesInv b)
    (hs : brokerStep digest b e = some b') : HandlesInv b' :=
  (step_moves hw hs).inv hw h fun _ _ hw hm h => h.move hok hw hm

/-! ## A handle that is not closed -/

lemma Tunnel.Handles.reusable (h : t.Handles)
    (hd : t.deleting = false) (hi : ∀ x ∈ (tunnelStart bound t).inits, x = .closed) :
    t.Reusable := by
  refine ⟨?_, fun hp => ?_⟩
  · rintro (⟨hl, ho⟩ | ⟨hl, ho⟩)
    · have hc : ¬ (t.proto = .udp ∨ t.closed = true) := fun hc => by
        rw [h.listener hc] at hl
        cases hl
      have hcl : t.listenerClosing ≠ true := fun hc => by
        rw [h.listenerClosing.1 hc] at hl
        cases hl
      rw [not_or] at hc
      have hp : t.proto = .tcp := by
        cases hp : t.proto with
        | tcp => rfl
        | udp => exact absurd hp hc.1
      have := hi t.listener (by simp [tunnelStart, tmTunnelListenerStart, hp, ho, hc.2, hd, hcl])
      rw [hl] at this
      cases this
    · have hp : t.proto = .udp := by
        cases hp : t.proto with
        | tcp => rw [h.udpSock hp] at hl; cases hl
        | udp => rfl
      have := hi t.udpSock (by simp [tunnelStart, tmUdpStart, hp, ho])
      rw [hl] at this
      cases this
  · have hn := h.udpClosing
    split_ifs at hn with hl
    · have ho : t.udpOpen ≠ true := fun ho => by
        rw [h.udpOpen ho] at hl
        cases hl
      have := hi t.udpSock (by simp [tunnelStart, tmUdpStart, hp, ho])
      rw [hl] at this
      cases this
    · exact hn

lemma Tunnel.Handles.stale (h : t.Handles) (hs : t.Stale) : (t.stopSockets t.proto).closeRefs = 0 ∧
      ¬ ((t.stopSockets t.proto).listener = .closed ∧
        (t.stopSockets t.proto).udpSock = .closed) := by
  have hr := h.refs
  have hn := h.udpClosing
  obtain ⟨hl, ho⟩ | ⟨hl, ho⟩ := hs
  · have hp : t.proto = .tcp := by
      cases hp : t.proto with
      | tcp => rfl
      | udp => rw [h.listener (.inl hp)] at hl; cases hl
    rw [h.udpSock hp] at hn
    simp [hl, hn] at hr
    simp [Tunnel.stopSockets, tmTunnelListenerStop, hp, ho, hl, hr]
  · have hp : t.proto = .udp := by
      cases hp : t.proto with
      | tcp => rw [h.udpSock hp] at hl; cases hl
      | udp => rfl
    rw [h.listener (.inl hp)] at hr
    simp [hl, hn] at hr
    simp [Tunnel.stopSockets, tmUdpStop, hp, ho, hl, hr]

lemma HandlesInv.enable (hw : Wf b) (h : HandlesInv b)
    (hs : brokerStep digest b (.ipc (.enableTunnel id bound)) = some b') (hok : HandlesOk b') :
    ReuseOk b (.ipc (.enableTunnel id bound)) := by
  intro t ht hen
  obtain ⟨hm, hr, -⟩ := mem_tmTunnelFind ht
  have hd := (hw.ok t hm).live hr
  have hb : b' = enableTunnel t bound b := by
    simp only [brokerStep, handleEvent, ipcHandleOp, withTunnel, mem_def.1 ht, hen,
      Bool.false_eq_true, if_false] at hs
    split_ifs at hs
    exact (some.inj hs).symm
  have hx : tunnelStart bound { t with enabled := true } ∈ b'.tunnels := by
    rw [hb]
    exact mem_upd_self (f := fun t => tunnelStart bound { t with enabled := true }) hm rfl
  have hh : ({ t with enabled := true } : Tunnel).Handles := { h.tunnels t hm with }
  exact { hh.reusable hd (hok.inits _ (mem_append_left _ hx)) with }

lemma HandlesInv.delete (hw : Wf b) (h : HandlesInv b)
    (hs : brokerStep digest b (.ipc (.deleteTunnel id)) = some b') (hok : HandlesOk b') :
    ReuseOk b (.ipc (.deleteTunnel id)) := by
  intro t ht hst
  obtain ⟨hm, hb⟩ := step_deletedBy ht hs
  obtain ⟨h0, hn⟩ := (h.tunnels t hm).stale hst
  obtain ⟨⟨o, n, hx⟩, -⟩ := closeDown_spec hw hm
  let f (t : Tunnel) : Tunnel := { t with deleting := true, registered := false }
  let y : Tunnel := f { t.stopSockets t.proto with
    agent := none, agentOnline := o, streamsActive := n }
  have hr : y.ref = t.ref := (Tunnel.Mild.stopSockets t.proto).ref
  have hy : y ∈ Table.upd t.ref f (closeDown t b).tunnels := mem_upd_self hx hr
  have hcl : Wf (closeDown t b) := by
    have hm : Moves digest b .cleanup b (closeDown t b) := moves_closeDown t trivial
    exact Moves.wf hm hw
  have hfresh := hcl.tunnels.upd (k := t.ref) (f := f) fun _ _ he => he
  have hg : Table.get t.ref (Table.upd t.ref f (closeDown t b).tunnels) = some y := by
    rw [← get_of_mem hfresh.nodup hy, key_tunnel, hr]
  have hrel : y ∈ b'.released := by
    rw [hb]
    change y ∈ (freeTunnel t.ref _).released
    unfold freeTunnel
    split
    · rename_i hnone
      exact absurd (hnone.symm.trans hg) (by simp)
    · rename_i z hz
      cases (hz.symm.trans hg)
      rw [if_pos]
      · exact mem_cons_self
      · exact Bool.and_eq_true_iff.2 ⟨rfl, decide_eq_true h0⟩
  exact hn (hok.released y hrel)

/-- In a run that neither starts nor deletes a tunnel with such a handle, every initialisation and
every release finds its handles closed; the first event that does breaks that. -/
theorem handle_typestate {tr : List (Broker × BrokerEvent)}
    (h : Trace (brokerStep digest) BrokerInit tr b) (hok : ∀ p ∈ tr, ReuseOk p.1 p.2) :
    HandlesOk b ∧ ∀ e b', brokerStep digest b e = some b' → (HandlesOk b' ↔ ReuseOk b e) := by
  have hw := Wf.of_trace h
  have hi : HandlesInv b := by
    refine inv_of_moves (fun b hi => ?_) (fun _ _ _ _ hok hw hm hi => hi.move hok hw hm) h hok
    obtain ⟨cfg, -, rfl⟩ := hi
    exact ⟨by simp, by simp⟩
  refine ⟨hi.ok, fun e b' hs => ⟨fun ho => ?_, fun hok => (hi.step hok hw hs).ok⟩⟩
  unfold ReuseOk
  split
  · exact hi.enable hw hs ho
  · exact hi.delete hw hs ho
  · trivial

instance : Decidable (ReuseOk b e) := by
  unfold ReuseOk
  split <;> infer_instance

def createsWith (id : Bytes) (proto : Proto) (bound : Bool) : BrokerEvent :=
  .ipc (.createTunnel { tunnelId := id, proto := proto, closed := false } [] [] bound)

theorem handle_typestate_waits : ∃ tr b, Trace (brokerStep padDigest) BrokerInit tr b ∧
    b.tunnels = [] ∧ b.released.map Tunnel.inits = [[.closed, .closed], [.closed, .closed]] ∧
    HandlesOk b := by
  obtain ⟨tr, b, h, hok, hn, hr⟩ := smallBroker_trace
    [createsWith [65] .udp true, createsWith [66] .tcp true, .ipc (.disableTunnel [65]),
      .ipc (.disableTunnel [66]), .ipc (.enableTunnel [66] true), .udpClosed 0,
      .ipc (.enableTunnel [65] true), .listenerClosed 1 true, .ipc (.deleteTunnel [65]),
      .ipc (.deleteTunnel [66]), .udpClosed 0, .listenerClosed 1 true]
    (fun r => (∀ p ∈ r.1, ReuseOk p.1 p.2) ∧ r.2.tunnels = [] ∧
      r.2.released.map Tunnel.inits = [[.closed, .closed], [.closed, .closed]]) (by decide)
  exact ⟨tr, b, h, hn, hr, (handle_typestate h hok).1⟩

/-- `udp_sock` is initialised while it is being closed, and a listener that could not be bound is
freed with its tunnel. -/
theorem handle_typestate_broken : (∃ tr b, Trace (brokerStep padDigest) BrokerInit tr b ∧
      b.tunnels.map Tunnel.inits = [[.closing, .closed]] ∧ ¬ HandlesOk b) ∧
    ∃ tr b, Trace (brokerStep padDigest) BrokerInit tr b ∧
      b.released.map Tunnel.listener = [.live] ∧ ¬ HandlesOk b := by
  constructor
  · obtain ⟨tr, b, h, hi⟩ := smallBroker_trace
      [createsWith [65] .udp true, .ipc (.disableTunnel [65]), .ipc (.enableTunnel [65] true)]
      (fun r => r.2.tunnels.map Tunnel.inits = [[.closing, .closed]]) (by decide)
    refine ⟨tr, b, h, hi, fun ho => ?_⟩
    obtain ⟨t, ht, he⟩ := mem_map.1 (hi ▸ mem_singleton_self _)
    have := ho.inits t (mem_append_left _ ht) .closing (he ▸ mem_cons_self)
    cases this
  · obtain ⟨tr, b, h, hr⟩ := smallBroker_trace
      [createsWith [65] .tcp false, .ipc (.deleteTunnel [65])]
      (fun r => r.2.released.map Tunnel.listener = [.live]) (by decide)
    refine ⟨tr, b, h, hr, fun ho => ?_⟩
    obtain ⟨t, ht, he⟩ := mem_map.1 (hr ▸ mem_singleton_self _)
    rw [(ho.released t ht).1] at he
    cases he

end TunnelMate
