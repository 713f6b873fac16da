import TunnelMate.Proofs.Moves

/-!
# Chains of moves

What the broker's own functions do, as chains of moves: those of connections and agents, of streams,
of tunnels and their sockets.
-/

namespace TunnelMate

open List Option Table Nat Tunnel

open Relation

abbrev Moves (digest : Bytes → Digest) (b₀ : Broker) (e : BrokerEvent) : Broker → Broker → Prop :=
  ReflTransGen (Move digest b₀ e)

variable {digest : Bytes → Digest} {b₀ b b' : Broker} {e : BrokerEvent}

lemma Move.moves (h : Move digest b₀ e b b') : Moves digest b₀ e b b' := .single h

lemma Moves.wf (h : Moves digest b₀ e b b') (hw : Wf b) : Wf b' := by
  induction h with
  | refl => exact hw
  | tail _ hm ih => exact hm.wf ih

lemma Moves.inv {I : Broker → Prop} (h : Moves digest b₀ e b b') (hw : Wf b) (h0 : I b)
    (hs : ∀ b b', Wf b → Move digest b₀ e b b' → I b → I b') : I b' := by
  induction h with
  | refl => exact h0
  | tail hm hl ih => exact hs _ _ (Moves.wf hm hw) hl ih

lemma moves_misc (he : b'.core = b.core) (hn : b.nextRef ≤ b'.nextRef) : Moves digest b₀ e b b' :=
  (Move.misc he hn).moves

/-! ## Connections and writes -/

lemma moves_log (s : Sent) : Moves digest b₀ e b (b.log s) :=
  moves_misc rfl (le_refl _)

lemma moves_protocolError : Moves digest b₀ e b b.protocolError :=
  moves_misc rfl (le_refl _)

lemma moves_failedAuth : Moves digest b₀ e b b.failedAuth :=
  moves_misc rfl (le_refl _)

lemma moves_connClose (c : Ref) : Moves digest b₀ e b (connClose c b) :=
  (Move.closeConn c).moves

lemma moves_sendFrameRaw (s : Sent) (w : Write) : Moves digest b₀ e b (sendFrameRaw s w b) := by
  cases w with
  | taken => exact moves_log s
  | refused => exact moves_protocolError
  | broken => exact moves_connClose _

lemma moves_sendAndClose (s : Sent) (w : Write) : Moves digest b₀ e b (sendAndClose s w b) :=
  (moves_sendFrameRaw s w).trans (moves_connClose _)

lemma moves_protocolEnd (c : Ref) : Moves digest b₀ e b (connClose c b.protocolError) :=
  moves_protocolError.trans (moves_connClose c)

lemma moves_tmAgentDrop (a : Ref) : Moves digest b₀ e b (tmAgentDrop a b) :=
  tmAgentDrop_rule .refl fun _ hx _ => (Move.dropAgent hx).moves

lemma moves_tmStreamClose (st : Ref) : Moves digest b₀ e b (tmStreamClose st b) :=
  tmStreamClose_rule .refl fun _ hx _ => (Move.closeStream hx).moves

lemma moves_agentSend (a : Ref) (type : MsgType) (sid : ℕ) (taken : Bool) :
    Moves digest b₀ e b (tmAgentSendFrame a type sid taken b) := by
  unfold tmAgentSendFrame
  split
  · exact .refl
  · split_ifs
    · exact moves_log _
    · exact moves_tmAgentDrop a

/-! ## Agents -/

variable {T a st : Ref} {f : Broker → α} {α : Type*}

lemma Registered.dropAgent (h : Registered b T) (a : Ref) : Registered (tmAgentDrop a b) T :=
  tmAgentDrop_rule (I := fun b => Registered b T) h fun _ _ _ => exists_upd h fun _ _ _ ht => ht

variable {t : Tunnel}

lemma agent_dropAgent (hw : Wf b) (ht : t ∈ b.tunnels) (ha : t.agent = some a) :
    ∀ t' ∈ (tmAgentDrop a b).tunnels, t'.ref = t.ref → t'.agent = none := by
  obtain ⟨x, hx, hxa, hxt⟩ := hw.tunAgent t ht a ha
  have hg : get a b.agents = some x := hxa ▸ get_of_mem hw.agents.nodup hx
  have key : ∀ t' ∈ b.tunnels, t'.ref = t.ref → t' = t := fun t' ht' he =>
    eq_of_key hw.tunnels.nodup ht' ht he
  rw [tmAgentDrop, hg]
  refine forall_upd (fun t' _ hne he => absurd (he.trans hxt.symm) hne) fun t' ht' he _ => ?_
  rw [key t' ht' (he.trans hxt), if_pos ha]

lemma conns_tmAgentDrop (a : Ref) : (tmAgentDrop a b).conns = b.conns :=
  tmAgentDrop_rule (I := fun b' => b'.conns = b.conns) rfl fun _ _ _ => rfl

lemma streams_tmAgentDrop (a : Ref) : (tmAgentDrop a b).streams = b.streams :=
  tmAgentDrop_rule (I := fun b' => b'.streams = b.streams) rfl fun _ _ _ => rfl

lemma moves_dropAgentOf (T : Ref) : Moves digest b₀ e b (dropAgentOf T b) := by
  unfold dropAgentOf
  split
  · exact .refl
  · exact moves_tmAgentDrop _

lemma agent_dropAgentOf (hw : Wf b) :
    ∀ t ∈ (dropAgentOf T b).tunnels, t.ref = T → t.agent = none := by
  intro t ht he
  subst he
  unfold dropAgentOf at ht
  cases hg : get t.ref b.tunnels with
  | none =>
    rw [hg] at ht
    exact absurd rfl (get_none.1 hg t ht)
  | some x =>
    rw [hg, bind_some] at ht
    have hxr : x.ref = t.ref := key_of_get hg
    cases ha : x.agent with
    | none =>
      rw [ha] at ht
      rw [eq_of_key hw.tunnels.nodup ht (mem_of_get hg) hxr.symm, ha]
    | some =>
      rw [ha] at ht
      exact agent_dropAgent hw (mem_of_get hg) ha t ht hxr.symm

lemma dropAgentOf_cases (T : Ref) :
    dropAgentOf T b = b ∨ ∃ a, dropAgentOf T b = tmAgentDrop a b := by
  unfold dropAgentOf
  split
  · exact .inl rfl
  · exact .inr ⟨_, rfl⟩

/-! ## Streams -/

lemma moves_relayStep {l : Relay.Label} (hl : ∀ io, l ≠ .attach io)
    (h : relayStep st l b = some b') : Moves digest b₀ e b b' := by
  unfold relayStep at h
  split at h
  · simp at h
  · rename_i x hx
    obtain ⟨c, hc, rfl⟩ := map_eq_some_iff.1 h
    have hr : x.ref = st := key_of_get hx
    subst hr
    split_ifs with hcl
    · exact moves_tmStreamClose _
    · exact (Move.relay (mem_of_get hx) hc hl (by simpa using hcl)).moves

lemma mem_tmStreamClose {x : Stream} :
    x ∈ (tmStreamClose st b).streams ↔ x ∈ b.streams ∧ x.ref ≠ st := by
  unfold tmStreamClose
  split
  · rename_i hg
    exact ⟨fun hx => ⟨hx, get_none.1 hg x hx⟩, And.left⟩
  · exact mem_del

lemma agents_tmStreamClose (st : Ref) : (tmStreamClose st b).agents = b.agents :=
  tmStreamClose_rule (I := fun b' => b'.agents = b.agents) rfl fun _ _ _ => rfl

lemma tmStreamClose_spec (st : Ref) : (tmStreamClose st b).conns = b.conns ∧
    (tmStreamClose st b).tunnels.map ref = b.tunnels.map ref ∧
    ∀ t ∈ (tmStreamClose st b).tunnels, ∃ t' ∈ b.tunnels, ∃ n, t = { t' with streamsActive := n } :=
  tmStreamClose_rule (I := fun b' => b'.conns = b.conns ∧
      b'.tunnels.map ref = b.tunnels.map ref ∧
      ∀ t ∈ b'.tunnels, ∃ t' ∈ b.tunnels, ∃ n, t = { t' with streamsActive := n })
    ⟨rfl, rfl, fun t ht => ⟨t, ht, _, rfl⟩⟩ fun _ _ _ => ⟨rfl, map_upd fun _ _ _ => rfl,
      forall_upd (fun t ht _ => ⟨t, ht, _, rfl⟩) fun t ht _ => ⟨t, ht, _, rfl⟩⟩

lemma moves_closeStreams (T : Ref) : Moves digest b₀ e b (closeStreams T b) := by
  unfold closeStreams
  generalize b.streams.filter (·.tun = T) = ss
  induction ss generalizing b with
  | nil => exact .refl
  | cons st ss ih => exact (moves_tmStreamClose st.ref).trans ih

lemma closeAll_spec (ss : List Stream) : ∀ b : Broker,
    let b' := ss.foldl (fun b st => tmStreamClose st.ref b) b
    b'.conns = b.conns ∧ (∀ x ∈ b'.streams, x ∈ b.streams ∧ ∀ st ∈ ss, x.ref ≠ st.ref) ∧
      b'.tunnels.map ref = b.tunnels.map ref ∧
      ∀ t ∈ b'.tunnels, ∃ t' ∈ b.tunnels, ∃ n, t = { t' with streamsActive := n } := by
  induction ss with
  | nil => exact fun b => ⟨rfl, fun x hx => ⟨hx, by simp⟩, rfl, fun t ht => ⟨t, ht, _, rfl⟩⟩
  | cons st ss ih =>
    intro b
    obtain ⟨h1, h2, h3, h4⟩ := ih (tmStreamClose st.ref b)
    obtain ⟨hc, hr, hs⟩ := tmStreamClose_spec (b := b) st.ref
    refine ⟨h1.trans hc, fun x hx => ?_, h3.trans hr, fun t ht => ?_⟩
    · obtain ⟨hx, hne⟩ := h2 x hx
      obtain ⟨hx, hst⟩ := mem_tmStreamClose.1 hx
      exact ⟨hx, forall_mem_cons.2 ⟨hst, hne⟩⟩
    · obtain ⟨t', ht', n, rfl⟩ := h4 t ht
      obtain ⟨t'', ht'', m, rfl⟩ := hs t' ht'
      exact ⟨t'', ht'', n, rfl⟩

lemma moves_rateFind (ip : Addr) : Moves digest b₀ e b (rateFind ip b).2 := by
  unfold rateFind
  split
  · exact .refl
  · exact moves_misc rfl (le_succ _)

lemma rateAllow_frame (ip : Addr) : (rateAllow ip b).2.tunnels = b.tunnels ∧
    (rateAllow ip b).2.streams = b.streams := by
  have h : (rateFind ip b).2.tunnels = b.tunnels ∧ (rateFind ip b).2.streams = b.streams := by
    unfold rateFind
    split <;> exact ⟨rfl, rfl⟩
  unfold rateAllow
  dsimp only
  split_ifs <;> exact h

lemma moves_rateAllow (ip : Addr) : Moves digest b₀ e b (rateAllow ip b).2 := by
  refine (moves_rateFind ip).trans ?_
  unfold rateAllow
  dsimp only
  split_ifs <;> exact moves_misc rfl (le_refl _)

lemma moves_onPublicAccept (ht : t ∈ b.tunnels) (ho : t.listenerOpen = true)
    (he : AcceptsAt e t.ref) (peer : Addr) (taken : Bool) :
    Moves digest b e b (onPublicAccept t peer taken b) := by
  unfold onPublicAccept
  by_cases hs : (b.shuttingDown || !t.enabled) = true
  · rw [if_pos hs]
  · rw [if_neg hs]
    obtain ⟨h1, h2⟩ := rateAllow_frame (b := b) peer
    refine (moves_rateAllow peer).trans ?_
    rw [← h1] at ht
    generalize rateAllow peer b = r at ht h2 ⊢
    obtain ⟨ok, b₁⟩ := r
    dsimp only at ht h2 ⊢
    by_cases hr : (!ok || !t.agentOnline) = true
    · rw [if_pos hr]
    · rw [if_neg hr]
      split
      · exact .refl
      · rename_i st b' hc
        obtain ⟨hf, rfl⟩ := tmStreamCreateOpen_eq hc
        refine .head ?_ (.head (.openStream (b := { b₁ with
          sidCounter := (b₁.sidCounter + 1) % 2 ^ 64 }) ht ho he h2 hf (sidOf b₁.sidCounter)) ?_)
        · exact .misc rfl le_rfl
        split_ifs
        · exact moves_tmStreamClose _
        · split
          · exact .refl
          · exact moves_agentSend _ _ _ _

lemma closeStreams_const (hf : ∀ x (b : Broker), f (b.streamGone x) = f b) (T : Ref) (b : Broker) :
    f (closeStreams T b) = f b := by
  have h : ∀ (ss : List Stream) (b : Broker),
      f (ss.foldl (fun b st => tmStreamClose st.ref b) b) = f b := by
    intro ss
    induction ss with
    | nil => exact fun _ => rfl
    | cons st ss ih =>
      intro b
      exact (ih _).trans (tmStreamClose_rule (I := fun b' => f b' = f b) rfl fun x _ _ => hf x b)
  exact h _ _

lemma dropAgentOf_const (hf : ∀ x (b : Broker), f (b.agentGone x) = f b) (T : Ref) (b : Broker) :
    f (dropAgentOf T b) = f b := by
  rcases dropAgentOf_cases (b := b) T with he | ⟨a, he⟩ <;> rw [he]
  exact tmAgentDrop_rule (I := fun b' => f b' = f b) rfl fun x _ _ => hf x b

/-! ## Tunnels -/

lemma moves_freeTunnel (T : Ref) : Moves digest b₀ e b (freeTunnel T b) := by
  unfold freeTunnel
  split
  · exact .refl
  · rename_i x hx
    obtain rfl : x.ref = T := key_of_get hx
    split_ifs with hd
    · simp only [Bool.and_eq_true, decide_eq_true_eq] at hd
      exact (Move.free (mem_of_get hx) hd.1 hd.2).moves
    · exact .refl

lemma moves_updTun_free {f : Tunnel → Tunnel}
    (hf : ∀ t ∈ b.tunnels, t.ref = T → t.Step b.cfg digest (ReuseOk b₀ e) (f t))
    (hk : ∀ t ∈ b.tunnels, t.ref = T → t.Kept (Switches e) (Rotates e) (AtPlane e) (f t))
    (hs : TouchesSockets e) : Moves digest b₀ e b (freeTunnel T (b.updTun T f)) :=
  .head (.tunnel hf hk (.inl hs)) (moves_freeTunnel T)

def closeDown (t : Tunnel) (b : Broker) : Broker :=
  closeStreams t.ref (dropAgentOf t.ref (b.updTun t.ref (.stopSockets t.proto)))

lemma moves_closeDown (t : Tunnel) (hs : TouchesSockets e) : Moves digest b₀ e b (closeDown t b) :=
  .head (.tunnel (fun _ _ _ => .stopSockets t.proto) (fun _ _ _ => .stopSockets t.proto) (.inl hs))
    ((moves_dropAgentOf t.ref).trans (moves_closeStreams t.ref))

lemma dropAgentOf_spec (T : Ref) : (dropAgentOf T b).conns = b.conns ∧
    (dropAgentOf T b).tunnels.map ref = b.tunnels.map ref ∧
    ∀ t ∈ (dropAgentOf T b).tunnels, ∃ t' ∈ b.tunnels, ∃ a o,
      t = { t' with agent := a, agentOnline := o } := by
  rcases dropAgentOf_cases (b := b) T with he | ⟨a, he⟩ <;> rw [he]
  · exact ⟨rfl, rfl, fun t ht => ⟨t, ht, _, _, rfl⟩⟩
  · refine ⟨conns_tmAgentDrop a, ?_⟩
    exact tmAgentDrop_rule (I := fun b' => b'.tunnels.map ref = b.tunnels.map ref ∧
        ∀ t ∈ b'.tunnels, ∃ t' ∈ b.tunnels, ∃ a o, t = { t' with agent := a, agentOnline := o })
      ⟨rfl, fun t ht => ⟨t, ht, _, _, rfl⟩⟩ fun _ _ _ => ⟨map_upd fun _ _ _ => rfl,
        forall_upd (fun t ht _ => ⟨t, ht, _, _, rfl⟩) fun t ht _ => ⟨t, ht, _, _, rfl⟩⟩

lemma conns_closeDown (t : Tunnel) : (closeDown t b).conns = b.conns :=
  (closeAll_spec _ _).1.trans (dropAgentOf_spec _).1

lemma closeDown_spec (hw : Wf b) (ht : t ∈ b.tunnels) :
    (∃ o n, { t.stopSockets t.proto with agent := none, agentOnline := o, streamsActive := n } ∈
      (closeDown t b).tunnels) ∧
    ∀ st ∈ (closeDown t b).streams, st.tun ≠ t.ref := by
  have hsame : t.Mild (t.stopSockets t.proto) := .stopSockets t.proto
  have hu : ∀ x ∈ b.tunnels, x.ref = t.ref → x = t := fun x hx he => hw.tunnel_eq ht hx he
  have hw₁ := hw.updTun (T := t.ref) (f := .stopSockets t.proto) fun x hx he => (hu x hx he) ▸ hsame
  have hr₁ : (b.updTun t.ref (.stopSockets t.proto)).tunnels.map ref =
      b.tunnels.map ref := map_upd fun x hx he => (hu x hx he) ▸ hsame.ref
  have hx₁ : ∀ x ∈ (b.updTun t.ref (.stopSockets t.proto)).tunnels, x.ref = t.ref →
      x = t.stopSockets t.proto :=
    forall_upd (fun x _ hne he => absurd he hne) fun x hx he _ => by rw [hu x hx he]
  unfold closeDown
  generalize b.updTun t.ref (.stopSockets t.proto) = b₁ at *
  obtain ⟨-, hr₂, hd⟩ := dropAgentOf_spec (b := b₁) t.ref
  have hna := agent_dropAgentOf (T := t.ref) hw₁
  generalize dropAgentOf t.ref b₁ = b₂ at *
  obtain ⟨-, hst, hr₃, hc⟩ := closeAll_spec (b₂.streams.filter (·.tun = t.ref)) b₂
  refine ⟨?_, fun st hm he => (hst st hm).2 st (by simp [(hst st hm).1, he]) rfl⟩
  obtain ⟨x, hx, hxr⟩ : ∃ x ∈ (closeStreams t.ref b₂).tunnels, x.ref = t.ref := by
    refine mem_map.1 ?_
    rw [closeStreams, hr₃, hr₂, hr₁]
    exact mem_map.2 ⟨t, ht, rfl⟩
  obtain ⟨y, hy, n, rfl⟩ := hc x hx
  have ha : y.agent = none := hna y hy hxr
  obtain ⟨z, hz, a, o, rfl⟩ := hd y hy
  obtain rfl := hx₁ z hz hxr
  obtain rfl : a = none := ha
  exact ⟨o, n, hx⟩

end TunnelMate
