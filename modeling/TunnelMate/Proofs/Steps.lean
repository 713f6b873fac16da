import TunnelMate.Proofs.Requests

/-!
# Every event is a chain of moves
-/

namespace TunnelMate

open Option Table

variable {digest : Bytes → Digest} {b₀ b b' : Broker} {e : BrokerEvent}

lemma moves_agentFrame {a : Agent} {f : Frame} {k : Bool} (h : agentFrame a f k b = some b') :
    Moves digest b₀ e b b' := by
  have hsame (h : some b = some b') : Moves digest b₀ e b b' := by
    cases h
    exact .refl
  have hclose (st : Ref) (h : some (tmStreamClose st b) = some b') : Moves digest b₀ e b b' := by
    cases h
    exact moves_tmStreamClose st
  unfold agentFrame at h
  split at h
  · split_ifs at h
    cases h
    exact moves_log _
  case h_2 | h_3 | h_4 =>
    split at h
    · exact hsame h
    · exact hclose _ h
  · exact hsame h

variable {ev : Udp.Event} {t : Tunnel}

lemma udpEvent_spec (hok : t.Ok) (h : udpEvent digest t ev b = some b') :
    ∃ p, b' = b.updTun t.ref (fun t => { t with udp := p }) ∧
      Udp.step b.cfg digest t.udp { now := b.now, loop := b.loop, creds := t.creds, ev := ev } =
        some p ∧
      ({ t with udp := p } : Tunnel).Ok ∧
      (t.Stopped → ({ t with udp := p } : Tunnel).Stopped) := by
  cases ev with
  | stop => cases h
  | packet =>
    simp only [udpEvent] at h
    split_ifs at h with hc
    obtain ⟨p, hp, rfl⟩ := map_eq_some_iff.1 h
    simp only [Bool.or_eq_true, not_or, Bool.not_eq_eq_eq_not, Bool.not_true,
      Bool.not_eq_false] at hc
    exact ⟨p, rfl, hp, hok.setUdp (.inl hc.1.1), fun hst => by simp [hst.udpOpen] at hc⟩
  | _ =>
    obtain ⟨p, hp, rfl⟩ := map_eq_some_iff.1 h
    exact ⟨p, rfl, hp, hok.setUdp (.inr fun he => he.step hp (by simp)),
      fun hst => { hst with plane := hst.plane.step hp (by simp) }⟩

lemma moves_udpEvent (hw : Wf b) (ht : t ∈ b.tunnels)
    (he : AtPlane e) (h : udpEvent digest t ev b = some b') : Moves digest b₀ e b b' := by
  obtain ⟨p, rfl, hs, hok, hst⟩ := udpEvent_spec (hw.ok t ht) h
  refine (Move.tunnel (fun x hx hr => ?_) (fun x hx hr => ?_) (.inr ?_)).moves
  · rw [hw.tunnel_eq ht hx hr]
    exact ⟨⟨⟨rfl, rfl, rfl, rfl, rfl, rfl, rfl⟩, fun _ => hok⟩, .inr (.inr ⟨_, hs⟩),
      fun _ h => { h with }⟩
  · rw [hw.tunnel_eq ht hx hr]
    exact ⟨rfl, rfl, .inr rfl, .inr hst, .inr rfl, .inr rfl, .inl he⟩
  · exact fun _ _ _ => rfl

lemma moves_handleEvent (hw : Wf b) (h : handleEvent digest b e = some b') :
    Moves digest b e b b' := by
  cases e with
  | tick =>
    obtain ⟨-, rfl⟩ := of_guard h
    exact moves_misc rfl (Nat.le_refl _)
  | controlAccept =>
    cases h
    unfold onControlAccept
    split_ifs
    · exact .refl
    · exact (Move.accept rfl).moves
  | connFrame c =>
    obtain ⟨x, hx, hf⟩ := bind_eq_some_iff.1 h
    obtain rfl : x.ref = c := key_of_get hx
    exact moves_connFrame hw (mem_of_get hx) hf
  | connEnd =>
    obtain ⟨x, -, rfl⟩ := map_eq_some_iff.1 h
    refine .trans ?_ (moves_connClose _)
    split_ifs
    · exact moves_protocolError
    · exact .refl
  | agentFrame =>
    obtain ⟨x, -, h⟩ := bind_eq_some_iff.1 h
    exact moves_agentFrame h
  | agentEnd a =>
    cases h
    exact moves_tmAgentDrop a
  | agentPing =>
    cases h
    exact moves_agentSend _ _ _ _
  | publicAccept t peer k =>
    obtain ⟨x, hx, h⟩ := bind_eq_some_iff.1 h
    split_ifs at h with ho
    cases h
    obtain rfl : x.ref = t := key_of_get hx
    exact moves_onPublicAccept (mem_of_get hx) ho ⟨peer, k, rfl⟩ _ _
  | relay =>
    simp only [handleEvent] at h
    split_ifs at h with hl
    exact moves_relayStep (fun io he => by simp [he, Relay.Label.callback] at hl) h
  | listenerClosed =>
    obtain ⟨x, hx, h⟩ := bind_eq_some_iff.1 h
    split_ifs at h with hc
    cases h
    exact moves_updTun_free (fun y hy he => hw.tunnel_eq (mem_of_get hx) hy he ▸
      .listenerClosed hc) (fun _ _ _ => .listenerClosed) trivial
  | udpClosed =>
    obtain ⟨x, hx, h⟩ := bind_eq_some_iff.1 h
    split_ifs at h with hc
    cases h
    exact moves_updTun_free
      (fun y hy he => hw.tunnel_eq (mem_of_get hx) hy he ▸ .udpClosed hc)
      (fun _ _ _ => .udpClosed) trivial
  | udp t ev =>
    obtain ⟨x, hx, h⟩ := bind_eq_some_iff.1 h
    exact moves_udpEvent hw (mem_of_get hx) ⟨t, ev, rfl⟩ h
  | ipc op =>
    cases h
    exact moves_ipcHandleOp hw op
  | shutdown refused =>
    cases h
    unfold tmBrokerShutdown
    split_ifs
    · exact .refl
    · refine .trans ?_ (moves_goawayAll refused)
      exact moves_misc rfl (Nat.le_refl _)
  | cleanup =>
    obtain ⟨-, rfl⟩ := of_guard h
    exact moves_brokerCleanup hw

lemma step_moves (hw : Wf b) (h : brokerStep digest b e = some b') : Moves digest b e b b' := by
  unfold brokerStep at h
  dsimp only at h
  split_ifs at h
  exact moves_handleEvent hw h

variable {tr : List (Broker × BrokerEvent)}

lemma Wf.of_trace (h : Trace (brokerStep digest) BrokerInit tr b) : Wf b :=
  h.inv (fun _ => .init) fun _ _ _ hw hs => (step_moves hw hs).wf hw

lemma inv_of_moves {I : Broker → Prop} {ok : Broker → BrokerEvent → Prop}
    (h0 : ∀ b, BrokerInit b → I b)
    (hs : ∀ b₀ e b b', ok b₀ e → Wf b → Move digest b₀ e b b' → I b → I b')
    (h : Trace (brokerStep digest) BrokerInit tr b) (hok : ∀ p ∈ tr, ok p.1 p.2) : I b := by
  refine (h.inv_of_ok (I := fun b => Wf b ∧ I b) (fun b hi => ⟨.init hi, h0 b hi⟩) ?_ hok).2
  rintro b e b' ⟨hw, hi⟩ hok hst
  have hm := step_moves hw hst
  exact ⟨Moves.wf hm hw, Moves.inv hm hw hi fun _ _ => hs b e _ _ hok⟩

/-! ## A small broker -/

def padDigest (s : Bytes) : Digest := ⟨((s ++ .replicate 32 0).take 32).toArray, by simp⟩

def smallBroker : Broker :=
  { cfg := { publicPortStart := 1, publicPortEnd := 2 }
    ports := { tcp := [false, false], udp := [false, false] } }

lemma smallBroker_init : BrokerInit smallBroker := ⟨_, by decide, rfl⟩

lemma smallBroker_trace (es : List BrokerEvent) (P : List (Broker × BrokerEvent) × Broker → Prop)
    [DecidablePred P]
    (h : (replay (brokerStep padDigest) smallBroker es []).any (fun r => decide (P r)) = true) :
    ∃ tr b, Trace (brokerStep padDigest) BrokerInit tr b ∧ P (tr, b) :=
  exists_trace _ _ smallBroker_init es P h

def creates (id : Bytes) (closed : Bool) : BrokerEvent :=
  let r : CreateReq := { tunnelId := id, proto := .tcp, closed := closed }
  .ipc (.createTunnel { r with agentSecret := some [1], sharedToken := some [2] } [] [] true)

def sends (c : Ref) (type : MsgType) (sid : ℕ) (payload : Bytes) : BrokerEvent :=
  .connFrame c { type := type, streamId := sid, payload := payload } .taken true

/-- A tunnel gets its agent, and then a peer that opens a stream. -/
def peerOpens : List BrokerEvent :=
  [creates [65] true, .controlAccept, sends 1 .hello 0 [], sends 1 .register 0 [0, 1, 65, 1],
    .controlAccept, sends 3 .hello 0 [], sends 3 .auth 0 [0, 1, 65, 2], sends 3 .dataBind 0 []]

end TunnelMate
