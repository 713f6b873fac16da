import TunnelMate.Proofs.RefInt
import TunnelMate.Proofs.Registry

/-!
# What the registry records of a tunnel

Who a tunnel is, its port, its credentials and whether it is enabled are changed by the operations
alone.
-/

namespace TunnelMate

open List Table Tunnel

structure Record where
  ref : Ref
  id : Bytes
  proto : Proto
  closed : Bool
  port : ℕ
  enabled : Bool
  agentSecretHmac : Bytes
  sharedTokenHmac : Bytes

def Tunnel.record (t : Tunnel) : Record :=
  ⟨t.ref, t.id, t.proto, t.closed, t.publicPort, t.enabled, t.agentSecretHmac, t.sharedTokenHmac⟩

def Tunnel.recorded (t : Tunnel) : Option Record := if t.registered then some t.record else none

def Broker.records (b : Broker) : List Record := b.tunnels.filterMap recorded

variable {digest : Bytes → Digest} {b₀ b b' : Broker} {e : BrokerEvent} {T : Ref}
variable {t : Tunnel} {f : Tunnel → Tunnel} {id : Bytes}

lemma Tunnel.Same.recorded {t' : Tunnel} {switch rotate plane : Prop} (h : t.Same t')
    (hk : t.Kept switch rotate plane t') (hs : ¬ switch) (hr : ¬ rotate) :
    t'.recorded = t.recorded := by
  unfold Tunnel.recorded record
  rw [h.registered, h.ref, h.id, h.proto, h.closed, h.port, hk.enabled.resolve_left hs,
    hk.agentSecretHmac.resolve_left hr, hk.sharedTokenHmac.resolve_left hr]

lemma mem_records {x : Record} :
    x ∈ b.records ↔ ∃ t ∈ b.tunnels, t.registered = true ∧ t.record = x := by
  simp [Broker.records, recorded]

lemma records_updTun (hf : ∀ t ∈ b.tunnels, t.ref = T → (f t).recorded = t.recorded) :
    (b.updTun T f).records = b.records :=
  filterMap_upd hf

lemma records_updTun_map {g : Record → Record} (hf : ∀ t, (f t).recorded = t.recorded.map g) :
    (b.updTun T f).records = b.records.map fun x => if x.ref = T then g x else x := by
  unfold Broker.records Broker.updTun upd
  rw [filterMap_map, map_filterMap]
  refine filterMap_congr fun t _ => ?_
  by_cases he : t.ref = T
  · simp only [Function.comp, key_tunnel, he, if_true, hf]
    unfold recorded record
    split_ifs
    · simp [he]
    · rfl
  · simp only [Function.comp, key_tunnel, he, if_false]
    unfold recorded record
    split_ifs
    · simp [he]
    · rfl

lemma records_dropAgentOf (T : Ref) : (dropAgentOf T b).records = b.records :=
  dropAgentOf_const (f := Broker.records) (fun _ _ => records_updTun fun _ _ _ => rfl) T b

/-! ## Events that are no operation -/

structure Plain (b₀ : Broker) (e : BrokerEvent) : Prop where
  create : ¬ CreatesTunnel e
  switch : ¬ Switches e
  rotate : ¬ Rotates e
  delete : ∀ T, ¬ Deletes b₀ e T
  cleanup : e ≠ .cleanup

lemma Plain.of_ne_ipc (hi : ∀ op, e ≠ .ipc op) (hc : e ≠ .cleanup) : Plain b₀ e where
  create := fun ⟨_, _, _, _, h⟩ => hi _ h
  switch := fun h => h.elim (fun ⟨_, _, h⟩ => hi _ h) fun ⟨_, h⟩ => hi _ h
  rotate := fun h => h.elim (fun ⟨_, _, _, h⟩ => hi _ h) fun ⟨_, _, _, h⟩ => hi _ h
  delete := by
    rintro T ⟨t, ht, -⟩
    unfold deletedBy at ht
    split at ht
    · exact hi _ rfl
    · cases ht
  cleanup := hc

lemma Move.records (hm : Move digest b₀ e b b') (hw : Wf b) (hp : Plain b₀ e) :
    b'.records = b.records := by
  cases hm with
  | misc he =>
    unfold Broker.records
    rw [(Broker.core_eq.1 he).2.2.1]
  | tunnel hf hk =>
    refine records_updTun fun t ht he => ?_
    exact (hf t ht he).toSame.recorded (hk t ht he) hp.switch hp.rotate
  | dropAgent | addAgent | openStream | peerStream | closeStream =>
    exact records_updTun fun _ _ _ => rfl
  | addTunnel _ hc => exact absurd hc hp.create
  | unregister d _ _ _ _ hg =>
    obtain ⟨-, -, hd, -⟩ | ⟨-, hc, -⟩ := hg
    · exact absurd hd (hp.delete _)
    · exact absurd hc hp.cleanup
  | free ht hd =>
    refine filterMap_del fun x hx he => ?_
    rw [hw.tunnel_eq ht hx he, recorded, (hw.ok _ ht).deleting hd]
    rfl
  | _ => rfl

lemma records_step (hw : Wf b) (hp : Plain b e) (h : brokerStep digest b e = some b') :
    b'.records = b.records :=
  (step_moves hw h).inv (I := fun c => c.records = b.records) hw rfl fun _ _ hw hm hi =>
    (hm.records hw hp).trans hi

/-! ## The operations -/

lemma recorded_eq (hr : t.registered = true) : t.recorded = some t.record :=
  if_pos hr

variable (digest b) in
lemma records_create (r : CreateReq) (rand rand' : Bytes) (bound : Bool) :
    let res := createTunnel digest r rand rand' bound b
    (res.1.records = b.records ∧ ∃ msg, res.2 = .error msg) ∨
    ∃ x : Record, res.1.records = x :: b.records ∧ x.ref = b.nextRef ∧ x.id = r.tunnelId ∧
      x.proto = r.proto ∧ x.closed = r.closed ∧ x.enabled = true ∧
      x.agentSecretHmac = agentHmacOf digest r rand ∧
      x.sharedTokenHmac = tokenHmacOf digest r rand' ∧ (∀ y ∈ b.records, y.id ≠ x.id) ∧
      (if r.closed = true ∧ r.proto = .tcp then x.port = 0 else
        x.port ≠ 0 ∧ (tmPortAlloc b.cfg r.proto (r.preferPort % 2 ^ 16) b.ports).1 = x.port) ∧
      ∃ s s', res.2 = .created x.id x.port s x.agentSecretHmac s' x.sharedTokenHmac := by
  obtain ⟨_, h⟩ | ⟨-, _, h⟩ | ⟨t, ports, hc, -, hid, hp, hcl, h1, h2, ha, s, s', h⟩ :=
    createTunnel_cases digest r rand rand' bound b <;> rw [h]
  · exact .inl ⟨rfl, _, rfl⟩
  · exact .inl ⟨rfl, _, rfl⟩
  · refine .inr ⟨t.record, ?_, hc.ref, hid, hp, hcl, hc.enabled, h1, h2, ?_, ?_, s, s', ?_⟩
    · simp [Broker.records, recorded_eq hc.registered]
    · intro y hy
      obtain ⟨u, hu, hur, rfl⟩ := mem_records.1 hy
      exact tmTunnelFind_none.1 hc.id u hu hur
    · have hport := hc.port
      rw [hcl, hp] at hport
      split_ifs at hport ⊢ with hct
      · exact hport.1
      · exact ⟨hport.1, by rw [ha hct]; rfl⟩
    · rw [← h1, ← h2]
      rfl

lemma record_of_find (h : tmTunnelFind id b = some t) :
    t.record ∈ b.records ∧ t.record.id = id := by
  obtain ⟨ht, hr, hid⟩ := mem_tmTunnelFind h
  exact ⟨mem_records.2 ⟨t, ht, hr, rfl⟩, hid⟩

lemma find_none_records : tmTunnelFind id b = none ↔ ∀ x ∈ b.records, x.id ≠ id := by
  rw [tmTunnelFind_none]
  constructor
  · intro h x hx
    obtain ⟨t, ht, hr, rfl⟩ := mem_records.1 hx
    exact h t ht hr
  · exact fun h t ht hr => h _ (mem_records.2 ⟨t, ht, hr, rfl⟩)

lemma records_closeStreams (T : Ref) : (closeStreams T b).records = b.records :=
  closeStreams_const (f := Broker.records) (fun _ _ => records_updTun fun _ _ _ => rfl) T b

lemma records_teardown (t : Tunnel) : (tmTunnelTeardown t b).records = b.records := by
  have h : (closeDown t b).records = b.records := by
    unfold closeDown
    rw [records_closeStreams, records_dropAgentOf]
    exact records_updTun fun x _ _ => (Tunnel.Mild.stopSockets t.proto).toSame.recorded
      (.stopSockets t.proto : x.Kept _ _ False _) id id
  exact h

lemma records_delete (t : Tunnel) :
    (tmTunnelDelete t b).records = b.records.filter (·.ref ≠ t.ref) := by
  have hu : ∀ c : Broker, (c.updTun t.ref fun t =>
      { t with deleting := true, registered := false }).records =
      c.records.filter (·.ref ≠ t.ref) := fun c =>
    filterMap_upd_none (fun _ _ _ => rfl) fun x _ y hy => by
      unfold recorded at hy
      split_ifs at hy
      cases hy
      exact decide_eq_true_iff
  unfold tmTunnelDelete freeTunnel
  dsimp only
  split
  · exact (hu _).trans (by rw [records_teardown])
  · split_ifs
    · refine .trans (filterMap_del ?_) ((hu _).trans (by rw [records_teardown]))
      exact forall_upd (fun x _ hne he => absurd he hne) fun _ _ _ _ => rfl
    · exact (hu _).trans (by rw [records_teardown])

lemma records_rotateAgent (t : Tunnel) (hex : Bytes) :
    (dropAgentOf t.ref (b.updTun t.ref fun t => { t with agentSecretHmac := hex })).records =
      b.records.map fun x => if x.ref = t.ref then { x with agentSecretHmac := hex } else x := by
  rw [records_dropAgentOf]
  refine records_updTun_map fun u => ?_
  unfold recorded
  split_ifs <;> rfl

lemma records_rotateToken (t : Tunnel) (hex : Bytes) :
    (b.updTun t.ref fun t => { t with sharedTokenHmac := hex }).records =
      b.records.map fun x => if x.ref = t.ref then { x with sharedTokenHmac := hex } else x := by
  refine records_updTun_map fun u => ?_
  unfold recorded
  split_ifs <;> rfl

lemma records_disable (t : Tunnel) : (disableTunnel t b).records =
    b.records.map fun x => if x.ref = t.ref then { x with enabled := false } else x := by
  unfold disableTunnel
  rw [records_updTun fun x _ _ => ?_, records_dropAgentOf]
  · refine records_updTun_map fun u => ?_
    unfold recorded
    split_ifs <;> rfl
  · rw [Tunnel.Same.udpStop.recorded (.udpStop : Tunnel.Kept _ _ False _ _) id id,
      Tunnel.Rest.listenerStop.toSame.recorded (.listenerStop : Tunnel.Kept _ _ False _ _) id id]

lemma records_enable (t : Tunnel) (bound : Bool) : (enableTunnel t bound b).records =
    b.records.map fun x => if x.ref = t.ref then { x with enabled := true } else x := by
  refine records_updTun_map fun u => ?_
  have hs : Tunnel.Rest { u with enabled := true } (tunnelStart bound _) := .start
  unfold recorded record
  rw [hs.registered, hs.ref, hs.id, hs.proto, hs.closed, hs.port, hs.enabled, hs.agentSecretHmac,
    hs.sharedTokenHmac]
  split_ifs <;> rfl

end TunnelMate
