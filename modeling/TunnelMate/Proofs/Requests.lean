import TunnelMate.Proofs.Chains

/-!
# What is asked of the broker, as chains of moves

The IPC operations, the frames of a pending connection, and shutdown.
-/

namespace TunnelMate

open Bool hiding and_assoc not_or
open List Option Table Nat Tunnel.Rest

variable {digest : Bytes → Digest} {b₀ b b' : Broker} {e : BrokerEvent}

/-! ## Operations -/

variable {id : Bytes} {t : Tunnel}

lemma mem_tmTunnelFind (h : tmTunnelFind id b = some t) :
    t ∈ b.tunnels ∧ t.registered = true ∧ t.id = id := by
  have := find?_some h
  simp only [and_eq_true, decide_eq_true_eq] at this
  exact ⟨mem_of_find?_eq_some h, this⟩

variable {ah th s : Bytes} {closed bound : Bool} {proto : Proto}

lemma Tunnel.Ok.fresh {r : Ref} {port : ℕ} : Tunnel.Ok
      { ref := r, id := id, proto := proto, closed := closed, publicPort := port,
        agentSecretHmac := ah, sharedTokenHmac := th } where
  tcp _ := ⟨⟨rfl, rfl⟩, rfl⟩
  listener _ := ⟨rfl, rfl⟩
  unregistered h := by cases h
  deleting h := by cases h

lemma Creates.fresh (id : Bytes) (proto : Proto) (closed : Bool) (ah th : Bytes) (bound : Bool)
    (port : ℕ) (ports : Ports) (hid : tmTunnelFind id b = none)
    (hc : b.tunnelCount < b.cfg.maxTunnels)
    (hp : if closed = true ∧ proto = .tcp then port = 0 ∧ ports = b.ports
      else port ≠ 0 ∧ ∃ n, tmPortAlloc b.cfg proto n b.ports = (port, ports)) :
    Creates b (tunnelStart bound
      { ref := b.nextRef, id := id, proto := proto, closed := closed, publicPort := port,
        agentSecretHmac := ah, sharedTokenHmac := th }) ports where
  ref := start.ref
  ok := .start .fresh rfl
  handles := .start .fresh ⟨by simp [Tunnel.Stale], fun _ => rfl⟩ rfl
  agent := start.agent
  online := start.online
  active := start.active
  enabled := start.enabled
  udp := start.udp
  registered := start.registered
  id := by rw [start.id]; exact hid
  count := hc
  port := by
    rw [start.closed, start.proto, start.port]
    exact hp

lemma tmTunnelCreate_cases {n : ℕ} {r : Option Tunnel × Broker}
    (h : tmTunnelCreate id proto closed ah th n bound b = r) : r = (none, b) ∨
    ((tmPortAlloc b.cfg proto n b.ports).1 = 0 ∧
      r = (none, { b with ports := (tmPortAlloc b.cfg proto n b.ports).2 })) ∨
    ∃ t ports, Creates b t ports ∧ (∃ port, t = tunnelStart bound
        { ref := b.nextRef, id := id, proto := proto, closed := closed, publicPort := port,
          agentSecretHmac := ah.take 64, sharedTokenHmac := th.take 64 }) ∧
      t.id = id ∧ t.proto = proto ∧ t.closed = closed ∧
      t.agentSecretHmac = ah.take 64 ∧ t.sharedTokenHmac = th.take 64 ∧
      (¬ (closed = true ∧ proto = .tcp) →
        tmPortAlloc b.cfg proto n b.ports = (t.publicPort, ports)) ∧
      r = (some t, { b with
        ports := ports
        tunnels := t :: b.tunnels
        tunnelCount := b.tunnelCount + 1
        nextRef := b.nextRef + 1 }) := by
  rw [← h]
  unfold tmTunnelCreate
  split
  · exact .inl rfl
  split
  · exact .inl rfl
  rename_i hcount
  split
  · exact .inl rfl
  rename_i hid
  split
  · exact .inl rfl
  have hnew port ports := Creates.fresh id proto closed (ah.take 64) (th.take 64) bound port ports
    (by simpa using hid) (Int.not_le.1 hcount)
  by_cases hc : closed = true ∧ proto = .tcp
  · refine .inr (.inr ⟨_, b.ports, hnew 0 _ (by rw [if_pos hc]; exact ⟨rfl, rfl⟩), ⟨_, rfl⟩,
      start.id, start.proto, start.closed,
      start.agentSecretHmac, start.sharedTokenHmac,
      fun hn => absurd hc hn, ?_⟩)
    simp [hc.1, hc.2]
  · have hn : (!(closed && decide (proto = .tcp))) = true := by simpa [imp_iff_not_or] using hc
    rw [hn]
    cases ha : tmPortAlloc b.cfg proto n b.ports with
    | mk port ports =>
      by_cases h0 : port = 0
      · exact .inr (.inl ⟨h0, by simp [h0]⟩)
      · refine .inr (.inr ⟨_, ports, hnew port _ (by rw [if_neg hc]; exact ⟨h0, n, ha⟩),
          ⟨_, rfl⟩, start.id, start.proto, start.closed,
          start.agentSecretHmac, start.sharedTokenHmac, fun _ => ?_, ?_⟩)
        · rw [start.port]
        · simp [h0]

section Hmacs

variable (digest : Bytes → Digest) (r : CreateReq)

def agentHmacOf (rand : Bytes) : Bytes :=
  (r.agentSecretHmac.filter (·.length = 64)).getD (hexOf digest (secretOr r.agentSecret rand))

def tokenHmacOf (rand' : Bytes) : Bytes :=
  let token := if r.closed then secretOr r.sharedToken rand' else []
  (r.sharedTokenHmac.filter (·.length = 64)).getD (if token ≠ [] then hexOf digest token else [])

lemma length_hexOf (secret : Bytes) : (hexOf digest secret).length = 64 := by
  have h : ∀ d : Bytes, (toHex d).length = 2 * d.length := by
    intro d
    induction d with
    | nil => rfl
    | cons v d ih =>
      rw [toHex_cons, length_cons, length_cons, ih, length_cons]
      omega
  simp [hexOf, h]

lemma take_agentHmacOf (rand : Bytes) :
    (agentHmacOf digest r rand).take 64 = agentHmacOf digest r rand := by
  refine take_of_length_le (le_of_eq ?_)
  unfold agentHmacOf
  cases h : r.agentSecretHmac.filter (·.length = 64) with
  | none => exact length_hexOf digest _
  | some => simpa using (filter_eq_some_iff.1 h).2

lemma take_tokenHmacOf (rand' : Bytes) :
    (tokenHmacOf digest r rand').take 64 = tokenHmacOf digest r rand' := by
  refine take_of_length_le ?_
  unfold tokenHmacOf
  cases h : r.sharedTokenHmac.filter (·.length = 64) with
  | none =>
    dsimp only [getD_none]
    generalize (if r.closed = true then secretOr r.sharedToken rand' else []) = token
    split_ifs
    · exact le_of_eq (length_hexOf digest _)
    · exact zero_le _
  | some => exact le_of_eq (by simpa using (filter_eq_some_iff.1 h).2)

end Hmacs

/-- A create request fails and changes nothing, or fails for want of a port, or has set up the
tunnel that it answers with. -/
def CreateOutcome (b : Broker) (r : CreateReq) (bound : Bool) (ah th : Bytes)
    (res : Broker × IpcReply) : Prop :=
  let alloc := tmPortAlloc b.cfg r.proto (r.preferPort % 2 ^ 16) b.ports
  (∃ msg, res = (b, .error msg)) ∨
  (alloc.1 = 0 ∧ ∃ msg, res = ({ b with ports := alloc.2 }, .error msg)) ∨
  ∃ t ports, Creates b t ports ∧ (∃ port, t = tunnelStart bound
      { ref := b.nextRef, id := r.tunnelId, proto := r.proto, closed := r.closed,
        publicPort := port, agentSecretHmac := ah, sharedTokenHmac := th }) ∧
    t.id = r.tunnelId ∧ t.proto = r.proto ∧ t.closed = r.closed ∧
    t.agentSecretHmac = ah ∧ t.sharedTokenHmac = th ∧
    (¬ (r.closed = true ∧ r.proto = .tcp) → alloc = (t.publicPort, ports)) ∧
    ∃ s s', res = ({ b with
      ports := ports
      tunnels := t :: b.tunnels
      tunnelCount := b.tunnelCount + 1
      nextRef := b.nextRef + 1 }, .created t.id t.publicPort s ah s' th)

lemma create_answer {r : CreateReq} {s' : Bytes} {res : Broker × IpcReply}
    (hah : ah.take 64 = ah) (hth : th.take 64 = th)
    (hn : ∀ b', tmTunnelCreate r.tunnelId r.proto r.closed ah th (r.preferPort % 2 ^ 16) bound b =
      (none, b') → res = (b', .error "create failed"))
    (hs : ∀ t b', tmTunnelCreate r.tunnelId r.proto r.closed ah th (r.preferPort % 2 ^ 16) bound b =
      (some t, b') → res = (b', .created t.id t.publicPort s ah s' th)) :
    CreateOutcome b r bound ah th res := by
  obtain h | ⟨h0, h⟩ | ⟨t, ports, hc, hu, hid, hp, hcl, h1, h2, ha, h⟩ := tmTunnelCreate_cases
    (rfl : tmTunnelCreate r.tunnelId r.proto r.closed ah th (r.preferPort % 2 ^ 16) bound b = _)
  · exact .inl ⟨_, hn _ h⟩
  · exact .inr (.inl ⟨h0, _, hn _ h⟩)
  · rw [hah, hth] at hu
    exact .inr (.inr ⟨t, ports, hc, hu, hid, hp, hcl, h1.trans hah, h2.trans hth, ha, _, _,
      hs _ _ h⟩)

lemma createTunnel_cases (digest : Bytes → Digest) (r : CreateReq) (rand rand' : Bytes)
    (bound : Bool) (b : Broker) :
    CreateOutcome b r bound (agentHmacOf digest r rand) (tokenHmacOf digest r rand')
      (createTunnel digest r rand rand' bound b) := by
  have hah := take_agentHmacOf digest r rand
  have hth := take_tokenHmacOf digest r rand'
  unfold createTunnel
  split
  · exact .inl ⟨_, rfl⟩
  split
  · exact .inl ⟨_, rfl⟩
  unfold agentHmacOf at hah ⊢
  unfold tokenHmacOf at hth ⊢
  generalize (if r.closed = true then secretOr r.sharedToken rand' else []) = token at hth ⊢
  cases ha : r.agentSecretHmac.filter (·.length = 64) <;>
    cases ht : r.sharedTokenHmac.filter (·.length = 64) <;>
    simp only [ha, ht, getD_none, getD_some] at hah hth ⊢
  case none.none | some.none =>
    split_ifs at hth ⊢
    · exact create_answer hah hth (fun b' h => by rw [h]) fun t b' h => by rw [h]
    · exact create_answer hah hth (fun b' h => by rw [h]) fun t b' h => by rw [h]
  case none.some | some.some =>
    exact create_answer hah hth (fun b' h => by rw [h]) fun t b' h => by rw [h]

lemma moves_createTunnel (he : CreatesTunnel e) (r : CreateReq) (rand rand' : Bytes)
    (bound : Bool) : Moves digest b₀ e b (createTunnel digest r rand rand' bound b).1 := by
  obtain ⟨_, h⟩ | ⟨h0, _, h⟩ | ⟨t, ports, hc, -, -, -, -, -, -, -, _, _, h⟩ :=
    createTunnel_cases digest r rand rand' bound b <;> rw [h]
  · exact (Move.noPort h0).moves
  · exact (Move.addTunnel hc he).moves

lemma moves_unregister (d : Bool) (hw : Wf b) (ht : t ∈ b.tunnels)
    (hg : d = true ∧ t.registered = true ∧ Deletes b₀ e t.ref ∧ b.conns = b₀.conns ∧
        (ReuseOk b₀ e → ¬ t.Stale) ∨ d = false ∧ e = .cleanup ∧ b.conns = []) :
    let b' := (tmTunnelTeardown t b).updTun t.ref fun t =>
      { t with deleting := d || t.deleting, registered := false }
    Moves digest b₀ e b
      { b' with tunnelCount := if d then b'.tunnelCount - 1 else b'.tunnelCount } := by
  obtain ⟨⟨o, n, hx⟩, hst⟩ := closeDown_spec hw ht
  have hs : TouchesSockets e := by
    obtain ⟨-, -, hd, -⟩ | ⟨-, rfl, -⟩ := hg
    · exact hd.touches
    · trivial
  have hsame : t.Mild (t.stopSockets t.proto) := .stopSockets t.proto
  have hu : Move digest b₀ e (closeDown t b) _ :=
    .unregister d hx { (hw.ok t ht).stopped with } rfl (by rwa [hsame.ref]) (by
      rw [conns_closeDown, hsame.ref, hsame.registered]
      exact hg.imp (fun h => ⟨h.1, h.2.1, h.2.2.1, h.2.2.2.1, fun hk hx =>
        h.2.2.2.2 hk (.of_stopSockets hx)⟩) id)
  rw [hsame.ref, hsame.proto, hsame.port] at hu
  exact (moves_closeDown t hs).tail hu

lemma moves_tmTunnelDelete (hw : Wf b) (ht : tmTunnelFind id b = some t) :
    Moves digest b (.ipc (.deleteTunnel id)) b (tmTunnelDelete t b) := by
  obtain ⟨hm, hr, -⟩ := mem_tmTunnelFind ht
  have hu : Moves digest b (.ipc (.deleteTunnel id)) b _ :=
    moves_unregister true hw hm (.inl ⟨rfl, hr, ⟨t, ht, rfl⟩, rfl, fun hk => hk t ht⟩)
  exact hu.trans (moves_freeTunnel _)

lemma moves_disableTunnel (he : Switches e) (t : Tunnel) :
    Moves digest b₀ e b (disableTunnel t b) := by
  refine .head (.tunnel (fun _ _ _ => .set) (fun _ _ _ => .setEnabled he) (.inl he.touches))
    ((moves_dropAgentOf t.ref).tail (.tunnel (fun _ _ _ => ?_) (fun _ _ _ => ?_) (.inl he.touches)))
  · exact Tunnel.Step.listenerStop.trans listenerStop.udp .udpStop
  · exact Tunnel.Kept.listenerStop.trans .udpStop

lemma moves_enableTunnel (hw : Wf b) (ht : tmTunnelFind id b = some t) (hen : t.enabled = false) :
    Moves digest b (.ipc (.enableTunnel id bound)) b (enableTunnel t bound b) := by
  obtain ⟨hm, hr, -⟩ := mem_tmTunnelFind ht
  have hd := (hw.ok t hm).live hr
  have hsw : Switches (.ipc (.enableTunnel id bound)) := .inl ⟨id, bound, rfl⟩
  refine (Move.tunnel (fun x hx he => ?_) (fun x hx he => ?_) (.inl hsw.touches)).moves
  swap
  · exact (Tunnel.Kept.setEnabled hsw).trans (.start hsw)
  rw [hw.tunnel_eq hm hx he]
  have hs : t.Step b.cfg digest (ReuseOk b (.ipc (.enableTunnel id bound)))
      { t with enabled := true } := .set
  exact hs.trans rfl (.start hr hd fun hk => { hk t ht hen with })

lemma moves_ipcHandleOp (hw : Wf b) (op : IpcOp) :
    Moves digest b (.ipc op) b (ipcHandleOp digest b op).1 := by
  cases op with
  | createTunnel r rand rand' bound => exact moves_createTunnel ⟨_, _, _, _, rfl⟩ r rand rand' bound
  | deleteTunnel =>
    simp only [ipcHandleOp, withTunnel]
    split
    · exact .refl
    · exact moves_tmTunnelDelete hw ‹_›
  | disableTunnel =>
    simp only [ipcHandleOp, withTunnel]
    split
    · exact .refl
    · split_ifs
      · exact .refl
      · exact moves_disableTunnel (.inr ⟨_, rfl⟩) _
  | enableTunnel =>
    simp only [ipcHandleOp, withTunnel]
    split
    · exact .refl
    · rename_i ht
      split_ifs with hen
      · exact .refl
      · exact moves_enableTunnel hw ht (by simpa using hen)
  | rotateAgentSecret =>
    simp only [ipcHandleOp, withTunnel]
    split
    · exact .refl
    · refine .head (.tunnel (fun _ _ _ => .set) (fun _ _ _ => .setHmacs (.inl ⟨_, _, _, rfl⟩))
        (.inr ?_)) (moves_dropAgentOf _)
      exact fun _ _ _ => rfl
  | rotateSharedToken =>
    simp only [ipcHandleOp, withTunnel]
    split
    · exact .refl
    · refine (Move.tunnel (fun _ _ _ => .set) (fun _ _ _ => .setHmacs (.inr ⟨_, _, _, rfl⟩))
        (.inr ?_)).moves
      exact fun _ _ _ => rfl
  | killStream =>
    simp only [ipcHandleOp, withTunnel]
    split
    · exact .refl
    · split
      · exact .refl
      · exact moves_tmStreamClose _

/-! ## Frames of a pending connection -/

lemma tmCtEqHex_hexOf {secret : Bytes} (h : tmCtEqHex (hexOf digest secret) s = true) :
    fromHex s = some (digest secret).toList :=
  (tmCtEqHex_toHex _ _).1 h

section Frames

variable {c : Conn} {f : Frame} {w : Write} {k : Bool} {t : Tunnel}

lemma agentReplace_spec (hw : Wf b) (ht : t ∈ b.tunnels) (hr : t.registered = true) :
    (∀ x ∈ (agentReplace t b).tunnels, x.ref = t.ref → x.agent = none) ∧
      Registered (agentReplace t b) t.ref := by
  have hreg : Registered b t.ref := ⟨t, ht, hr, rfl⟩
  unfold agentReplace
  split
  · rename_i ha
    exact ⟨fun x hx he => by rw [hw.tunnel_eq ht hx he, ha], hreg⟩
  · rename_i a ha
    let b₁ : Broker := { b with agentReconnects := b.agentReconnects + 1 }
    have hw₁ : Wf b₁ := hw.misc rfl (le_refl _)
    exact ⟨agent_dropAgent hw₁ ht ha, .dropAgent (b := b₁) hreg a⟩

lemma moves_agentReplace : Moves digest b₀ e b (agentReplace t b) := by
  unfold agentReplace
  split
  · exact .refl
  · refine .trans ?_ (moves_tmAgentDrop _)
    exact moves_misc rfl (le_refl _)

lemma conns_agentReplace : (agentReplace t b).conns = b.conns := by
  unfold agentReplace
  split
  · rfl
  · exact conns_tmAgentDrop _

-- nothing between the promotion and the end of the pending connection looks at the connections
lemma moves_agentPromote (hw : Wf b) (hc : c ∈ b.conns) (ht : t ∈ b.tunnels)
    (ht' : t.registered = true) (hr : Registers digest b₀ e c.ref t.ref)
    (h : agentPromote c t w b = some b') : Moves digest b₀ e b b' := by
  obtain ⟨hn, hreg⟩ := agentReplace_spec hw ht ht'
  have hp : Moves digest b₀ e b (connUnlink c.ref (agentAdd c.ref t.ref (agentReplace t b))) :=
    moves_agentReplace.tail (.addAgent hr hreg hn ⟨c, by rwa [conns_agentReplace], rfl⟩)
  unfold agentPromote at h
  split at h
  · cases h
    exact hp.trans (moves_misc rfl (le_refl _))
  · cases h
    exact hp.trans (moves_misc rfl (le_refl _))
  · cases h

lemma moves_agentRegister (hw : Wf b) (hc : c ∈ b.conns) (hh : c.gotHello = true)
    (hf : f.type = .register) (h : agentRegister digest c f w b = some b') :
    Moves digest b (.connFrame c.ref f w k) b b' := by
  unfold agentRegister at h
  split at h
  · cases h
    exact moves_sendAndClose _ _
  · rename_i cr hcr
    split at h
    · cases h
      exact moves_failedAuth.trans (moves_sendAndClose _ _)
    · rename_i t ht
      obtain ⟨ht, hp⟩ := filter_eq_some_iff.1 ht
      obtain ⟨hm, hr, hid⟩ := mem_tmTunnelFind ht
      rw [and_eq_true] at hp
      exact moves_agentPromote hw hc hm hr ⟨f, w, k, rfl, hf, ⟨c, hc, rfl, hh⟩, t, hm, hr, rfl,
        hp.1, cr, hcr, hid.symm, tmCtEqHex_hexOf hp.2⟩ h

lemma moves_peerAuth (hw : Wf b) (hc : c ∈ b.conns) (hh : c.gotHello = true) (hf : f.type = .auth) :
    Moves digest b (.connFrame c.ref f w k) b (peerAuth digest c f w b) := by
  unfold peerAuth
  split
  · exact moves_failedAuth.trans (moves_sendAndClose _ _)
  · rename_i cr hcr
    split
    · exact moves_failedAuth.trans (moves_sendAndClose _ _)
    · rename_i t ht
      obtain ⟨ht, hp⟩ := filter_eq_some_iff.1 ht
      obtain ⟨hm, hr, hid⟩ := mem_tmTunnelFind ht
      simp only [and_eq_true, Tunnel.usable] at hp
      refine .head (.auth ⟨f, w, k, rfl, hf, ⟨c, hc, rfl, hh⟩, t, hm, hr, rfl, hp.1.1.1, hp.1.1.2,
        cr, hcr, hid.symm, tmCtEqHex_hexOf hp.2⟩ ⟨t, hm, hr, rfl⟩ fun x hx he => ?_)
        (moves_sendFrameRaw _ _)
      rw [eq_of_key hw.conns.nodup hx hc he]
      exact hh

lemma Wf.registered_of_agent {a : Ref} (hw : Wf b) (ht : t ∈ b.tunnels) (ha : t.agent = some a) :
    t.registered = true := by
  obtain ⟨x, hx, -, hxt⟩ := hw.tunAgent t ht a ha
  obtain ⟨t', ht', hr, he, -⟩ := hw.agentTun x hx
  rw [← hw.tunnel_eq ht ht' (he.trans hxt)]
  exact hr

variable {st : Stream}

lemma moves_peerBindOk (h : peerBindOk c st w b = some b') : Moves digest b₀ e b b' := by
  unfold peerBindOk at h
  split at h
  · cases h
    exact moves_log _
  · cases h
    exact moves_protocolError
  · exact moves_relayStep (by simp) h

section Unlink

variable {r : Ref}

lemma tmAgentSendFrame_unlink (a : Ref) (type : MsgType) (sid : ℕ) :
    tmAgentSendFrame a type sid k (connUnlink r b) =
      connUnlink r (tmAgentSendFrame a type sid k b) := by
  unfold tmAgentSendFrame tmAgentDrop
  cases h : get a b.agents with
  | none => simp only [connUnlink, h]
  | some =>
    simp only [connUnlink, h]
    split_ifs <;> rfl

lemma relayStep_unlink {st : Ref} {l : Relay.Label} :
    relayStep st l (connUnlink r b) = (relayStep st l b).map (connUnlink r) := by
  unfold relayStep tmStreamClose
  cases h : get st b.streams with
  | none => simp only [connUnlink, h, map_none]
  | some =>
    simp only [connUnlink, h, Option.map_map]
    congr 1
    funext y
    simp only [Function.comp]
    split_ifs <;> rfl

lemma peerBindOk_unlink :
    peerBindOk c st w (connUnlink r b) = (peerBindOk c st w b).map (connUnlink r) := by
  cases w with
  | taken => rfl
  | refused => rfl
  | broken => exact relayStep_unlink

end Unlink

lemma moves_peerHandOver (st : Stream) :
    Moves digest b₀ e (connUnlink c.ref b) (peerHandOver c t st k b) := by
  unfold peerHandOver
  split
  · exact .refl
  · rw [← tmAgentSendFrame_unlink]
    exact moves_agentSend _ _ _ _

lemma moves_peerOpenStream (hw : Wf b) (hc : c ∈ b.conns) (ht : t ∈ b.tunnels)
    (ho : Opens b e c.ref t.ref)
    (h : peerOpenStream c t w k b = some b') : Moves digest b e b b' := by
  unfold peerOpenStream at h
  split at h
  · cases h
    exact moves_sendAndClose _ _
  · rename_i ha
    split at h
    · cases h
      exact moves_sendAndClose _ _
    · rename_i hn
      split at h
      · cases h
        exact moves_sendAndClose _ _
      · rename_i st b₁ hcr
        obtain ⟨b₃, hb₃, rfl⟩ := map_eq_some_iff.1 h
        have hta : t.agent ≠ none := by
          intro hn
          simp [hn] at ha
        obtain ⟨a, hs⟩ := ne_none_iff_exists'.1 hta
        have hr := hw.registered_of_agent ht hs
        have hb : peerBindOk c st w (connUnlink c.ref b₁) = some (connUnlink c.ref b₃) := by
          rw [peerBindOk_unlink, hb₃, map_some]
        obtain ⟨hf, rfl⟩ := tmStreamCreateClosed_eq hcr
        refine .head ?_ (.head (.peerStream (b := { b with
          sidCounter2 := (b.sidCounter2 + 1) % 2 ^ 64 }) ho (lt_of_not_ge hn) ht hta
          ⟨t, ht, hr, rfl⟩ ⟨c, hc, rfl⟩ hf (sidOf b.sidCounter2)) ?_)
        · exact .misc rfl le_rfl
        exact (moves_peerBindOk hb).trans (moves_peerHandOver st)

lemma moves_peerFrame (hw : Wf b) (hc : c ∈ b.conns) (hp : c.peerAuthed = true)
    (h : peerFrame c f w k b = some b') : Moves digest b (.connFrame c.ref f w k) b b' := by
  unfold peerFrame at h
  split at h
  · rename_i hf
    split_ifs at h with hs
    · split at h
      · cases h
        exact moves_sendAndClose _ _
      · rename_i T hT
        obtain ⟨t, ht, h⟩ := bind_eq_some_iff.1 h
        have he : t.ref = T := key_of_get ht
        exact moves_peerOpenStream hw hc (mem_of_get ht)
          ⟨f, w, k, rfl, hf, hs, c, hc, rfl, hp, he ▸ hT⟩ h
    · cases h
      exact moves_protocolEnd _
  · obtain ⟨t, -, rfl⟩ := map_eq_some_iff.1 h
    split
    · exact .refl
    · exact moves_tmStreamClose _
  · cases h
    exact moves_sendFrameRaw _ _
  · cases h
    exact moves_protocolEnd _

variable {id : ℕ}

lemma mem_tmStreamFind {T : Ref} (h : tmStreamFind T id b = some st) :
    st ∈ b.streams ∧ st.tun = T ∧ st.id = id := by
  have := find?_some h
  simp only [and_eq_true, decide_eq_true_eq] at this
  exact ⟨mem_of_find?_eq_some h, this⟩

lemma mem_findStream (h : findStream id b = some st) :
    st ∈ b.streams ∧ st.id = id ∧ Registered b st.tun := by
  obtain ⟨t, ht, hst⟩ := exists_of_findSome?_eq_some h
  obtain ⟨ht, hr⟩ := mem_filter.1 ht
  obtain ⟨hm, he, hid⟩ := mem_tmStreamFind hst
  exact ⟨hm, hid, t, ht, hr, he.symm⟩

lemma moves_attach (hw : Wf b) (hc : c ∈ b.conns) (hst : st ∈ b.streams)
    (hb : Binds digest b₀ e c.ref st) (h : relayStep st.ref (.attach (.ssl c.ref)) b = some b') :
    Moves digest b₀ e b
      (connUnlink c.ref (b'.updStream st.ref fun x => { x with sockB := some c.ref })) := by
  have hg : get st.ref b.streams = some st := get_of_mem hw.streams.nodup hst
  rw [relayStep, hg] at h
  obtain ⟨r, hr, rfl⟩ := map_eq_some_iff.1 h
  rw [if_neg]
  · have hu : upd st.ref (fun x : Stream => { x with sockB := some c.ref })
        (upd st.ref (fun x => { x with relay := r }) b.streams) =
        upd st.ref (fun x => { x with relay := r, sockB := some c.ref }) b.streams :=
      upd_upd fun _ _ he => he
    simp only [Broker.updStream, hu]
    exact (Move.attach hst hb hr ⟨c, hc, rfl⟩).moves
  · rw [(Relay.step_attach hr).1, hw.live st hst]
    simp

lemma moves_dataConnAttach (hw : Wf b) (hc : c ∈ b.conns) (hst : st ∈ b.streams)
    (hb : Binds digest b₀ e c.ref st) (h : dataConnAttach c st w b = some b') :
    Moves digest b₀ e b b' := by
  unfold dataConnAttach at h
  split at h
  · cases h
  · obtain ⟨b₁, hb₁, rfl⟩ := map_eq_some_iff.1 h
    split_ifs at hb₁
    · exact (moves_log _).trans (moves_attach (hw.misc rfl (le_refl _)) hc hst hb hb₁)
    · exact moves_protocolError.trans (moves_attach (hw.misc rfl (le_refl _)) hc hst hb hb₁)

lemma moves_dataConnFirstFrame (hw : Wf b) (hc : c ∈ b.conns) (hf : f.type = .dataBind)
    (h : dataConnFirstFrame digest c f w b = some b') :
    Moves digest b (.connFrame c.ref f w k) b b' := by
  unfold dataConnFirstFrame at h
  split at h
  · cases h
    exact moves_protocolEnd _
  · split at h
    · cases h
      exact moves_sendAndClose _ _
    · rename_i st hst
      obtain ⟨hm, hid, t', ht', hr, he⟩ := mem_findStream hst
      split at h
      · cases h
      · rename_i t ht
        have htm := mem_of_get ht
        have htr : t.ref = st.tun := key_of_get ht
        obtain rfl := hw.tunnel_eq htm ht' (he.trans htr.symm)
        split at h
        · cases h
          exact moves_sendAndClose _ _
        · rename_i hbe
          simp only [or_eq_true, not_eq_eq_eq_not, Bool.not_true, not_or,
            not_eq_true, not_eq_false] at hbe
          split at h
          · cases h
            exact moves_failedAuth.trans (moves_sendAndClose _ _)
          · rename_i hct
            refine moves_dataConnAttach hw hc hm ⟨f, w, k, rfl, hf, hid.symm, hm, hbe.1, t', ht',
              hr, he, hbe.2, tmCtEqHex_hexOf ?_⟩ h
            simpa using hct

lemma moves_connFrame (hw : Wf b) (hc : c ∈ b.conns) (h : connFrame digest c f w k b = some b') :
    Moves digest b (.connFrame c.ref f w k) b b' := by
  unfold connFrame at h
  split_ifs at h with hh hp
  · split at h
    · rename_i hf
      cases h
      exact .head (.hello ⟨f, w, k, rfl, hf⟩) (moves_sendFrameRaw _ _)
    · rename_i hf
      exact moves_dataConnFirstFrame hw hc hf h
    · cases h
      exact moves_protocolEnd _
  · exact moves_peerFrame hw hc hp h
  · simp only [not_eq_eq_eq_not, Bool.not_true, not_eq_false] at hh
    split at h
    · rename_i hf
      exact moves_agentRegister hw hc hh hf h
    · rename_i hf
      cases h
      exact moves_peerAuth hw hc hh hf
    · cases h
      exact moves_sendFrameRaw _ _
    · cases h
      exact moves_protocolEnd _

end Frames

/-! ## Shutdown -/

lemma moves_goawayAll (refused : List Ref) :
    Moves digest b₀ e b (tmControlGoawayAll refused b) := by
  unfold tmControlGoawayAll
  generalize b.tunnels.filter (·.registered) = ts
  induction ts generalizing b with
  | nil => exact .refl
  | cons t ts ih =>
    refine .trans ?_ ih
    dsimp only
    split
    · exact .refl
    · exact moves_agentSend _ _ _ _

lemma moves_closeConns (cs : List Conn) :
    Moves digest b₀ e b (cs.foldl (fun b c => connClose c.ref b) b) := by
  induction cs generalizing b with
  | nil => exact .refl
  | cons c cs ih => exact (moves_connClose c.ref).trans ih

lemma mem_closeConns {x : Conn} (cs : List Conn) :
    x ∈ (cs.foldl (fun b c => connClose c.ref b) b).conns ↔
      x ∈ b.conns ∧ ∀ c ∈ cs, x.ref ≠ c.ref := by
  induction cs generalizing b with
  | nil => simp
  | cons c cs ih =>
    rw [foldl_cons, ih, forall_mem_cons, ← and_assoc]
    exact and_congr_left' mem_del

lemma conns_tmControlCloseAll : (tmControlCloseAll b).conns = [] := by
  refine eq_nil_iff_forall_not_mem.2 fun x hx => ?_
  obtain ⟨hx, hne⟩ := (mem_closeConns _).1 hx
  exact hne x hx rfl

lemma moves_controlCloseAll : Moves digest b₀ e b (tmControlCloseAll b) := by
  refine .trans ?_ (moves_closeConns _)
  generalize b.tunnels.filter (·.registered) = ts
  induction ts generalizing b with
  | nil => exact .refl
  | cons t ts ih => exact (moves_dropAgentOf t.ref).trans ih

lemma moves_cleanupTunnels (rs : List Ref) : ∀ {b : Broker}, Wf b → b.conns = [] →
    Moves digest b₀ .cleanup b (rs.foldl cleanupTunnel b) := by
  induction rs with
  | nil => exact fun _ _ => .refl
  | cons r rs ih =>
    intro b hw hc
    have hm : Moves digest b₀ .cleanup b (cleanupTunnel b r) ∧ (cleanupTunnel b r).conns = [] := by
      unfold cleanupTunnel
      split
      · exact ⟨.refl, hc⟩
      · rename_i t ht
        have ht' := mem_of_get ht
        exact ⟨moves_unregister false hw ht' (.inr ⟨rfl, rfl, hc⟩), (conns_closeDown t).trans hc⟩
    exact hm.1.trans (ih (Moves.wf hm.1 hw) hm.2)

lemma moves_brokerCleanup (hw : Wf b) : Moves digest b₀ .cleanup b (brokerCleanup b) := by
  unfold brokerCleanup
  split_ifs
  · exact .refl
  · have hm : Moves digest b₀ .cleanup b (tmControlCloseAll { b with cleanedUp := true }) := by
      refine .trans ?_ moves_controlCloseAll
      exact moves_misc rfl (le_refl _)
    exact hm.trans (moves_cleanupTunnels _ (Moves.wf hm hw) conns_tmControlCloseAll)

end TunnelMate
