import TunnelMate.Proofs.Steps

/-!
# References to tunnels

Agents, streams, sessions and flows go with their tunnel.
-/

namespace TunnelMate

open Option Table Broker

variable {digest : Bytes → Digest} {b₀ b b' : Broker} {e : BrokerEvent} {T : Ref}

structure RefInt (b : Broker) : Prop where
  conns : ∀ c ∈ b.conns, c.peerAuthed = true → ∃ T, c.peerTun = some T ∧ Registered b T
  agents : ∀ a ∈ b.agents, Registered b a.tun
  streams : ∀ st ∈ b.streams, Registered b st.tun
  udp : ∀ t ∈ b.tunnels, t.registered = false → t.udp.sessions = [] ∧ t.udp.flows = []

def DeleteOk (b : Broker) (e : BrokerEvent) : Prop :=
  ∀ t ∈ deletedBy b e, ∀ c ∈ b.conns, c.peerAuthed = true → c.peerTun ≠ some t.ref

instance : Decidable (DeleteOk b e) := by
  unfold DeleteOk
  infer_instance

def PeersRegistered (b : Broker) : Prop :=
  ∀ c ∈ b.conns, c.peerAuthed = true → ∃ T, c.peerTun = some T ∧ Registered b T

lemma Wf.refInt (hw : Wf b) (hp : PeersRegistered b) : RefInt b where
  conns := hp
  agents a ha := by
    obtain ⟨t, ht, hr, he, -⟩ := hw.agentTun a ha
    exact ⟨t, ht, hr, he⟩
  streams := hw.streamTun
  udp t ht hr := ((hw.ok t ht).unregistered hr).plane

lemma Registered.upd {S : Ref} {f : Tunnel → Tunnel} (h : Registered b T)
    (hf : ∀ t ∈ b.tunnels, t.ref = S → t.registered = true →
      (f t).registered = true ∧ (f t).ref = t.ref) : Registered (b.updTun S f) T :=
  exists_upd h fun t ht he hp => by
    obtain ⟨hr, hk⟩ := hf t ht he hp.1
    exact ⟨hr, hk.trans hp.2⟩

lemma Move.registered (hm : Move digest b₀ e b b') (hw : Wf b) (h : Registered b T) :
    Registered b' T ∨
      b'.conns = b.conns ∧ (Deletes b₀ e T ∧ b.conns = b₀.conns ∨ b.conns = []) := by
  cases hm with
  | misc he =>
    unfold Registered at h ⊢
    rw [(core_eq.1 he).2.2.1]
    exact .inl h
  | tunnel hf =>
    exact .inl (h.upd fun t ht he hr => ⟨(hf t ht he).registered.trans hr, (hf t ht he).ref⟩)
  | dropAgent | addAgent | openStream | peerStream | closeStream =>
    exact .inl (exists_upd h fun _ _ _ hp => hp)
  | addTunnel =>
    obtain ⟨t, ht, hp⟩ := h
    exact .inl ⟨t, List.mem_cons_of_mem _ ht, hp⟩
  | unregister d _ _ _ _ hg =>
    rename_i x _ _ _ _
    by_cases hS : T = x.ref
    · subst hS
      exact .inr ⟨rfl, hg.imp (fun hg => ⟨hg.2.2.1, hg.2.2.2.1⟩) fun hg => hg.2.2⟩
    · refine .inl (exists_upd h fun t _ he hp => ?_)
      exact absurd (hp.2.symm.trans he) hS
  | free hx hd =>
    obtain ⟨t, ht, hr, rfl⟩ := h
    refine .inl ⟨t, mem_del.2 ⟨ht, fun he => ?_⟩, hr, rfl⟩
    rw [hw.tunnel_eq hx ht he, (hw.ok _ hx).deleting hd] at hr
    cases hr
  | _ =>
    exact .inl h

namespace PeersRegistered

lemma old (hok : DeleteOk b₀ e) (hw : Wf b) (hm : Move digest b₀ e b b') (h : PeersRegistered b) :
    ∀ c ∈ b.conns, c.peerAuthed = true → ∃ T, c.peerTun = some T ∧ Registered b' T := by
  intro c hc ha
  obtain ⟨T, hT, hr⟩ := h c hc ha
  refine ⟨T, hT, ?_⟩
  rcases hm.registered hw hr with hr | ⟨-, ⟨⟨t, ht, rfl⟩, he⟩ | hn⟩
  · exact hr
  · exact absurd hT (hok t ht c (he ▸ hc) ha)
  · rw [hn] at hc
    cases hc

lemma move (hok : DeleteOk b₀ e) (hw : Wf b) (hm : Move digest b₀ e b b')
    (h : PeersRegistered b) : PeersRegistered b' := by
  have hold := h.old hok hw hm
  have same : b'.conns = b.conns → PeersRegistered b' := fun hc c hm => hold c (hc ▸ hm)
  cases hm with
  | misc he => exact same (core_eq.1 he).2.2.2.1
  | accept => exact List.forall_mem_cons.2 ⟨fun ha => (by cases ha), hold⟩
  | closeConn | addAgent | peerStream | attach =>
    exact fun c hc => hold c (mem_del.1 hc).1
  | hello => exact forall_upd (fun c hc _ => hold c hc) fun c hc _ => hold c hc
  | auth _ hr => exact forall_upd (fun c hc _ => hold c hc) fun _ _ _ _ => ⟨_, rfl, hr⟩
  | _ => exact same rfl

lemma step (hok : DeleteOk b e) (hw : Wf b) (h : PeersRegistered b)
    (hs : brokerStep digest b e = some b') : PeersRegistered b' :=
  (step_moves hw hs).inv hw h fun _ _ hw hm h => h.move hok hw hm

end PeersRegistered

lemma tmTunnelDelete_spec (t : Tunnel) :
    (tmTunnelDelete t b).conns = b.conns ∧ ¬ Registered (tmTunnelDelete t b) t.ref := by
  have hc : (tmTunnelTeardown t b).conns = b.conns := conns_closeDown t
  have hu : ∀ x ∈ upd t.ref (fun t => { t with deleting := true, registered := false })
      (tmTunnelTeardown t b).tunnels, x.ref = t.ref → x.registered = false :=
    forall_upd (fun x _ hne he => absurd he hne) fun _ _ _ _ => rfl
  have hn : ∀ ts : List Tunnel, (∀ x ∈ ts, x.ref = t.ref → x.registered = false) →
      ¬ ∃ x ∈ ts, x.registered = true ∧ x.ref = t.ref := by
    rintro ts hts ⟨x, hx, hr, he⟩
    rw [hts x hx he] at hr
    cases hr
  unfold tmTunnelDelete freeTunnel
  dsimp only
  split
  · exact ⟨hc, hn _ hu⟩
  · split_ifs
    · exact ⟨hc, hn _ fun x hx => hu x (mem_del.1 hx).1⟩
    · exact ⟨hc, hn _ hu⟩

lemma step_deletedBy {t : Tunnel} (ht : t ∈ deletedBy b e)
    (hs : brokerStep digest b e = some b') : t ∈ b.tunnels ∧ b' = tmTunnelDelete t b := by
  unfold deletedBy at ht
  split at ht
  · refine ⟨(mem_tmTunnelFind ht).1, ?_⟩
    simp only [brokerStep, handleEvent, ipcHandleOp, withTunnel, mem_def.1 ht] at hs
    split_ifs at hs
    exact (some.inj hs).symm
  · cases ht

/-- In a run that never deletes a tunnel under a pending authenticated peer, every reference is to a
registered tunnel; the first such deletion breaks that. -/
theorem ref_integrity {tr : List (Broker × BrokerEvent)}
    (h : Trace (brokerStep digest) BrokerInit tr b) (hok : ∀ p ∈ tr, DeleteOk p.1 p.2) :
    RefInt b ∧ ∀ e b', brokerStep digest b e = some b' → (RefInt b' ↔ DeleteOk b e) := by
  have hw := Wf.of_trace h
  have hp : PeersRegistered b := by
    refine inv_of_moves (fun b hi => ?_) (fun _ _ _ _ hok hw hm hp => hp.move hok hw hm) h hok
    obtain ⟨cfg, -, rfl⟩ := hi
    simp [PeersRegistered]
  refine ⟨hw.refInt hp, fun e b' hs => ⟨fun hr t ht c hc ha hT => ?_, fun hok => ?_⟩⟩
  · obtain ⟨htm, rfl⟩ := step_deletedBy ht hs
    obtain ⟨hcs, hn⟩ := tmTunnelDelete_spec (b := b) t
    obtain ⟨T, hT', hreg⟩ := hr.conns c (hcs ▸ hc) ha
    cases (hT.symm.trans hT')
    exact hn hreg
  · exact ((step_moves hw hs).wf hw).refInt (hp.step hok hw hs)

theorem ref_integrity_other : ∃ tr b, Trace (brokerStep padDigest) BrokerInit tr b ∧
    (∃ c ∈ b.conns, c.peerAuthed = true) ∧ b.tunnels.length = 1 ∧ RefInt b := by
  obtain ⟨tr, b, h, hok, hc, hl⟩ := smallBroker_trace
    [creates [65] true, creates [66] true, .controlAccept, sends 2 .hello 0 [],
      sends 2 .auth 0 [0, 1, 66, 2], .ipc (.deleteTunnel [65])]
    (fun r => (∀ p ∈ r.1, DeleteOk p.1 p.2) ∧ (∃ c ∈ r.2.conns, c.peerAuthed = true) ∧
      r.2.tunnels.length = 1) (by decide)
  exact ⟨tr, b, h, hc, hl, (ref_integrity h hok).1⟩

/-- The tunnel of a peer that waits is deleted. -/
theorem ref_integrity_dangling : ∃ tr b, Trace (brokerStep padDigest) BrokerInit tr b ∧
    (∃ c ∈ b.conns, c.peerAuthed = true ∧ c.peerTun = some 0) ∧ b.tunnels = [] ∧ ¬ RefInt b := by
  obtain ⟨tr, b, h, ⟨c, hc, ha, hT⟩, hn⟩ := smallBroker_trace
    [creates [65] true, .controlAccept, sends 1 .hello 0 [], sends 1 .auth 0 [0, 1, 65, 2],
      .ipc (.deleteTunnel [65])]
    (fun r => (∃ c ∈ r.2.conns, c.peerAuthed = true ∧ c.peerTun = some 0) ∧ r.2.tunnels = [])
    (by decide)
  refine ⟨tr, b, h, ⟨c, hc, ha, hT⟩, hn, fun hr => ?_⟩
  obtain ⟨T, -, t, ht, -⟩ := hr.conns c hc ha
  rw [hn] at ht
  cases ht

end TunnelMate
