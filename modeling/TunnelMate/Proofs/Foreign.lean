import TunnelMate.Proofs.ApiRuns
import TunnelMate.Proofs.Isolation

/-!
# Requests on other tunnels

An operation of the broker is confined to the tunnel it names (`Apart`), so that a call leaves every
tunnel alone that has another id (`SameTunnel`).
-/

namespace TunnelMate

open List Option Table

/-! ## The operations of the broker -/

section Operations

variable {digest : Bytes → Digest} {b b' b'' : Broker} {u : Ref} {f : Tunnel → Tunnel}

structure Apart (u : Ref) (b b' : Broker) : Prop where
  tunnels : ∀ t, t.ref ≠ u → (t ∈ b'.tunnels ↔ t ∈ b.tunnels)
  ids : ∀ t ∈ b'.tunnels, ∃ t₀ ∈ b.tunnels, t₀.ref = t.ref ∧ t₀.id = t.id
  streams : ∀ st, st.tun ≠ u → (st ∈ b'.streams ↔ st ∈ b.streams)
  agents : ∀ a, a.tun ≠ u → (a ∈ b'.agents ↔ a ∈ b.agents)

lemma Confined.apart {c : Option Ref} (h : Confined (some u) c b b')
    (hi : ∀ t ∈ b'.tunnels, ∃ t₀ ∈ b.tunnels, t₀.ref = t.ref ∧ t₀.id = t.id) : Apart u b b' where
  tunnels t ht := h.tunnels t (by simpa using ht)
  ids := hi
  streams st hst := h.streams st (by simpa using hst)
  agents a ha := h.agents a (by simpa using ha)

namespace Apart

lemma refl : Apart u b b where
  tunnels _ _ := .rfl
  ids t ht := ⟨t, ht, rfl, rfl⟩
  streams _ _ := .rfl
  agents _ _ := .rfl

lemma trans (h : Apart u b b') (h' : Apart u b' b'') : Apart u b b'' where
  tunnels t ht := (h'.tunnels t ht).trans (h.tunnels t ht)
  ids t ht := by
    obtain ⟨t₁, ht₁, hr₁, hi₁⟩ := h'.ids t ht
    obtain ⟨t₀, ht₀, hr₀, hi₀⟩ := h.ids t₁ ht₁
    exact ⟨t₀, ht₀, hr₀.trans hr₁, hi₀.trans hi₁⟩
  streams st hst := (h'.streams st hst).trans (h.streams st hst)
  agents a ha := (h'.agents a ha).trans (h.agents a ha)

lemma of_same (h : Apart u b b') (ht : b''.tunnels = b'.tunnels)
    (hs : b''.streams = b'.streams) (ha : b''.agents = b'.agents) : Apart u b b'' where
  tunnels t hu := ht ▸ h.tunnels t hu
  ids := ht ▸ h.ids
  streams st hu := hs ▸ h.streams st hu
  agents a hu := ha ▸ h.agents a hu

section

variable (hf : ∀ x, (f x).ref = x.ref ∧ (f x).id = x.id)
include hf

lemma ids_upd {k : Ref} :
    ∀ t ∈ upd k f b.tunnels, ∃ t₀ ∈ b.tunnels, t₀.ref = t.ref ∧ t₀.id = t.id :=
  forall_upd (fun x hx _ => ⟨x, hx, rfl, rfl⟩) fun x hx _ => ⟨x, hx, (hf x).1.symm, (hf x).2.symm⟩

lemma updTun : Apart u b (b.updTun u f) :=
  (Confined.updTun (c := none) fun x => (hf x).1).apart (ids_upd hf)

end

lemma tmStreamClose (st : Ref) (h : ∀ x ∈ b.streams, x.ref = st → x.tun = u) :
    Apart u b (tmStreamClose st b) := by
  refine (Confined.closeStream (c := none) st h).apart fun t ht => ?_
  obtain ⟨t₀, ht₀, n, rfl⟩ := (tmStreamClose_spec st).2.2 t ht
  exact ⟨t₀, ht₀, rfl, rfl⟩

lemma closeStreams (hn : (b.streams.map Keyed.key).Nodup) : Apart u b (closeStreams u b) := by
  have hfold : ∀ (ss : List Stream) (b₁ : Broker), Apart u b b₁ →
      (∀ x ∈ b₁.streams, x ∈ b.streams) → (∀ st ∈ ss, st ∈ b.streams ∧ st.tun = u) →
      Apart u b (ss.foldl (fun b st => TunnelMate.tmStreamClose st.ref b) b₁) := by
    intro ss
    induction ss with
    | nil => exact fun _ h _ _ => h
    | cons st ss ih =>
      intro b₁ h hsub hss
      obtain ⟨hst, htun⟩ := hss st mem_cons_self
      refine ih _ (h.trans (.tmStreamClose st.ref fun x hx he => ?_))
        (fun x hx => hsub x (mem_tmStreamClose.1 hx).1)
        fun x hx => hss x (mem_cons_of_mem _ hx)
      rw [eq_of_key hn (hsub x hx) hst he]
      exact htun
  refine hfold _ b .refl (fun _ hx => hx) fun st hst => ?_
  simpa using hst

lemma dropAgentOf (h : ∀ x ∈ b.tunnels, x.ref = u → ∀ a, x.agent = some a →
    ∀ y ∈ b.agents, y.ref = a → y.tun = u) : Apart u b (dropAgentOf u b) := by
  have hc : Confined (some u) none b (TunnelMate.dropAgentOf u b) := by
    unfold TunnelMate.dropAgentOf
    split
    · exact .refl
    · rename_i a ha
      obtain ⟨x, hx, hxa⟩ := bind_eq_some_iff.1 ha
      exact .dropAgent a (h x (mem_of_get hx) (key_of_get hx) a hxa)
  refine hc.apart fun t ht => ?_
  obtain ⟨t₀, ht₀, _, _, rfl⟩ := (dropAgentOf_spec u).2.2 t ht
  exact ⟨t₀, ht₀, rfl, rfl⟩

lemma freeTunnel : Apart u b (freeTunnel u b) := by
  unfold TunnelMate.freeTunnel
  split
  · exact .refl
  · split_ifs
    · refine ⟨fun t ht => ?_, fun t ht => ⟨t, (mem_del.1 ht).1, rfl, rfl⟩, fun _ _ => .rfl,
        fun _ _ => .rfl⟩
      rw [mem_del]
      exact and_iff_left ht
    · exact .refl

end Apart

lemma Wf.agent_tun (hw : Wf b) {x : Tunnel} (hx : x ∈ b.tunnels) {a : Ref}
    (ha : x.agent = some a) {y : Agent} (hy : y ∈ b.agents) (he : y.ref = a) : y.tun = x.ref := by
  obtain ⟨z, hz, hza, hzt⟩ := hw.tunAgent x hx a ha
  rw [eq_of_key hw.agents.nodup hy hz (he.trans hza.symm)]
  exact hzt

lemma apart_updTun_drop (hw : Wf b)
    (hf : ∀ x, (f x).ref = x.ref ∧ (f x).id = x.id ∧ (f x).agent = x.agent) :
    Apart u b (dropAgentOf u (b.updTun u f)) := by
  refine (Apart.updTun fun x => ⟨(hf x).1, (hf x).2.1⟩).trans (.dropAgentOf ?_)
  refine forall_upd (fun x hx hne he => absurd he hne) fun x hx he _ a ha y hy hya => ?_
  rw [(hf x).2.2] at ha
  exact (hw.agent_tun hx ha hy hya).trans he

lemma apart_closeDown (hw : Wf b) (t : Tunnel) : Apart t.ref b (closeDown t b) := by
  have hdrop : Apart t.ref b (dropAgentOf t.ref (b.updTun t.ref (.stopSockets t.proto))) := by
    refine apart_updTun_drop hw fun x => ?_
    have hs : x.Same (x.stopSockets t.proto) := (Tunnel.Mild.stopSockets t.proto).toSame
    exact ⟨hs.ref, hs.id, hs.agent⟩
  refine hdrop.trans (.closeStreams ?_)
  have hstreams : (dropAgentOf t.ref (b.updTun t.ref (.stopSockets t.proto))).streams
      = b.streams := by
    rcases dropAgentOf_cases (b := b.updTun t.ref (.stopSockets t.proto)) t.ref with
      he | ⟨a, he⟩ <;> rw [he]
    · rfl
    · exact streams_tmAgentDrop a
  rw [hstreams]
  exact hw.streams.nodup

lemma apart_delete (hw : Wf b) (t : Tunnel) : Apart t.ref b (tmTunnelDelete t b) := by
  have hdown : Apart t.ref b (tmTunnelTeardown t b) := (apart_closeDown hw t).of_same rfl rfl rfl
  have hmark : Apart t.ref b ((tmTunnelTeardown t b).updTun t.ref fun t =>
      { t with deleting := true, registered := false }) :=
    hdown.trans (.updTun fun _ => ⟨rfl, rfl⟩)
  refine .trans ?_ .freeTunnel
  exact hmark.of_same rfl rfl rfl

lemma apart_disable (hw : Wf b) (t : Tunnel) : Apart t.ref b (disableTunnel t b) := by
  have hdrop : Apart t.ref b
      (dropAgentOf t.ref (b.updTun t.ref fun t => { t with enabled := false })) :=
    apart_updTun_drop hw fun _ => ⟨rfl, rfl, rfl⟩
  refine hdrop.trans (.updTun fun x => ?_)
  have hl : x.Rest (tmTunnelListenerStop x) := .listenerStop
  have hu : (tmTunnelListenerStop x).Same (tmUdpStop (tmTunnelListenerStop x)) := .udpStop
  exact ⟨hu.ref.trans hl.ref, hu.id.trans hl.id⟩

lemma apart_enable (t : Tunnel) (bound : Bool) : Apart t.ref b (enableTunnel t bound b) := by
  refine .updTun fun x => ?_
  have hs : Tunnel.Rest { x with enabled := true } (tunnelStart bound _) := .start
  exact ⟨hs.ref, hs.id⟩

structure SameTunnel (T : Bytes) (b b' : Broker) : Prop where
  tunnels : ∀ t, t.id = T → (t ∈ b'.tunnels ↔ t ∈ b.tunnels)
  streams : ∀ t ∈ b.tunnels, t.id = T → ∀ st, st.tun = t.ref → (st ∈ b'.streams ↔ st ∈ b.streams)
  agents : ∀ t ∈ b.tunnels, t.id = T → ∀ a, a.tun = t.ref → (a ∈ b'.agents ↔ a ∈ b.agents)

variable {T id : Bytes}

lemma SameTunnel.refl : SameTunnel T b b := ⟨fun _ _ => .rfl, fun _ _ _ _ _ => .rfl,
  fun _ _ _ _ _ => .rfl⟩

lemma Apart.same {t : Tunnel} (h : Apart t.ref b b') (hw : Wf b) (ht : t ∈ b.tunnels)
    (hid : t.id ≠ T) : SameTunnel T b b' := by
  have hne : ∀ x ∈ b.tunnels, x.id = T → x.ref ≠ t.ref := fun x hx hT he =>
    hid (hw.tunnel_eq hx ht he.symm ▸ hT)
  refine ⟨fun x hT => ?_, fun x hx hT st hst => h.streams st ?_, fun x hx hT a ha => h.agents a ?_⟩
  · by_cases he : x.ref = t.ref
    · refine iff_of_false (fun hx => ?_) fun hx => hne x hx hT he
      obtain ⟨y, hy, hyr, hyi⟩ := h.ids x hx
      exact hne y hy (hyi.trans hT) (hyr.trans he)
    · exact h.tunnels x he
  · rw [hst]
    exact hne x hx hT
  · rw [ha]
    exact hne x hx hT

lemma same_withTunnel {g : Tunnel → Broker × IpcReply} (hw : Wf b) (hid : id ≠ T)
    (hg : ∀ t, Apart t.ref b (g t).1) : SameTunnel T b (withTunnel id b g).1 := by
  unfold withTunnel
  split
  · exact .refl
  · rename_i t ht
    obtain ⟨hm, -, hi⟩ := mem_tmTunnelFind ht
    exact (hg t).same hw hm (hi ▸ hid)

end Operations

/-! ## Calls -/

namespace Api

def BrokerCall.target : BrokerCall → Option Bytes
  | .createTunnel r => some r.tunnelId
  | .deleteTunnel id | .disableTunnel id | .enableTunnel id | .rotate _ id => some id
  | .getTunnels => none

variable {digest : Bytes → Digest} {b b' : Broker} {d : Draw} {k : BrokerCall} {a : Answer}
  {T : Bytes}

lemma same_createTunnel {r : CreateReq} {rand rand' : Bytes} {bound : Bool} (hr : r.tunnelId ≠ T) :
    SameTunnel T b (TunnelMate.createTunnel digest r rand rand' bound b).1 := by
  obtain ⟨_, h⟩ | ⟨-, _, h⟩ | ⟨t, ports, -, -, hid, -, -, -, -, -, _, _, h⟩ :=
    createTunnel_cases digest r rand rand' bound b <;> rw [h]
  · exact .refl
  · exact ⟨fun _ _ => .rfl, fun _ _ _ _ _ => .rfl, fun _ _ _ _ _ => .rfl⟩
  · refine ⟨fun x hT => ?_, fun _ _ _ _ _ => .rfl, fun _ _ _ _ _ => .rfl⟩
    refine ⟨fun hx => (mem_cons.1 hx).resolve_left ?_, mem_cons_of_mem t⟩
    rintro rfl
    exact hr (hid.symm.trans hT)

lemma exec_same (hw : Wf b) (hk : k.target ≠ some T) (h : k.exec digest d b = some (b', a)) :
    SameTunnel T b b' := by
  have hne : ∀ {id}, k.target = some id → id ≠ T := fun he hT => hk (hT ▸ he)
  cases k with
  | createTunnel =>
    obtain ⟨rfl, -⟩ := exec_ipc rfl h
    exact same_createTunnel (hne rfl)
  | deleteTunnel =>
    obtain ⟨rfl, -⟩ := exec_ipc rfl h
    exact same_withTunnel hw (hne rfl) fun t => apart_delete hw t
  | disableTunnel =>
    obtain ⟨rfl, -⟩ := exec_ipc rfl h
    refine same_withTunnel hw (hne rfl) fun t => ?_
    split_ifs
    · exact .refl
    · exact apart_disable hw t
  | enableTunnel =>
    obtain ⟨rfl, -⟩ := exec_ipc rfl h
    refine same_withTunnel hw (hne rfl) fun t => ?_
    split_ifs
    · exact .refl
    · exact apart_enable t _
  | rotate cred =>
    cases cred with
    | agentSecret =>
      obtain ⟨rfl, -⟩ := exec_ipc rfl h
      exact same_withTunnel hw (hne rfl) fun t => apart_updTun_drop hw fun _ => ⟨rfl, rfl, rfl⟩
    | sharedToken =>
      obtain ⟨rfl, -⟩ := exec_ipc rfl h
      exact same_withTunnel hw (hne rfl) fun t => .updTun fun _ => ⟨rfl, rfl⟩
  | getTunnels =>
    simp only [BrokerCall.exec, BrokerCall.op, ite_none_right_eq_some] at h
    obtain ⟨rfl, -⟩ := Prod.mk.inj (some.inj h.2)
    exact .refl

/-! ## Requests on other tunnels -/

section Coroutines

variable {cfg : Settings} {cap : Bytes → Bytes} {now mono : ℕ} {rate : RateWindow} {db : List Row}
  {w w' : Wait} {stored : Bool} {r : Except BrokerExc Answer} {q : Request} {t : Turn}
  {id x : Bytes}

def Wait.owned : Wait → Option Bytes
  | .update id _ | .delete id | .rotate _ id => some id
  | _ => none

def Wait.drawn : Wait → Option Bytes
  | .create _ _ id _ | .undo id => some id
  | _ => none

def Wait.reaps : Wait → List Bytes
  | .reap id rest => id :: rest
  | _ => []

def Wait.ofRequest (w : Wait) : Bool := w.owned.isSome || w.drawn.isSome

lemma target_ne (hw : w.ofRequest = true) (ho : w.owned ≠ some T) (hd : w.drawn ≠ some T) :
    w.call.target ≠ some T := by
  cases w with
  | create _ _ id _ | undo id => exact hd
  | update id v =>
    cases v with
    | false | true => exact ho
  | delete id | rotate _ id => exact ho
  | _ => cases hw

lemma reap_of_mem (h : T ∈ w.reaps) : ∃ id rest, w = .reap id rest := by
  cases w with
  | reap id rest => exact ⟨id, rest, rfl⟩
  | _ => cases h

lemma not_mem_reaps (hw : w.ofRequest = true) : T ∉ w.reaps := by
  intro h
  obtain ⟨id, rest, rfl⟩ := reap_of_mem h
  cases hw

def Request.secret : Request → Option Bytes
  | .updateTunnel (.owner secret) _ _ | .deleteTunnel (.owner secret) _ | .renewTunnel _ secret
  | .rotate _ _ secret => secret
  | _ => none

def Request.byAdmin : Request → Bool
  | .updateTunnel .admin _ _ | .deleteTunnel .admin _ => true
  | _ => false

def Request.drawn : Request → Option Bytes
  | .createTunnel _ _ _ id _ => some id
  | _ => none

def Request.tunnelId : Request → Option Bytes
  | .updateTunnel _ id _ | .deleteTunnel _ id | .renewTunnel id _ | .rotate _ id _ => some id
  | .createTunnel .. => none

def Request.withTunnelId (x : Bytes) : Request → Request
  | .updateTunnel caller _ v => .updateTunnel caller x v
  | .deleteTunnel caller _ => .deleteTunnel caller x
  | .renewTunnel _ secret => .renewTunnel x secret
  | .rotate cred _ secret => .rotate cred x secret
  | .createTunnel body ip blocked id secret => .createTunnel body ip blocked id secret

def Authorised (cap : Bytes → Bytes) (T : Bytes) (secret : Option Bytes) (db : List Row) : Prop :=
  ∃ x row, secret = some x ∧ findRow T db = some row ∧ cap x = row.managementHmac

variable {secret : Option Bytes}

lemma owner_none (h : ¬ Authorised cap T secret db) : tunnelForOwner cap T secret db = none := by
  refine filter_eq_none_iff.2 fun row hrow hp => h ?_
  simp only [Bool.and_eq_true, Option.any_eq_true, decide_eq_true_eq] at hp
  obtain ⟨-, x, hx, -, hc⟩ := hp
  exact ⟨x, row, hx, hrow, hc⟩

lemma owner_ne {row : Row} (hs : ¬ Authorised cap T secret db)
    (h : tunnelForOwner cap id secret db = some row) : id ≠ T := by
  rintro rfl
  rw [owner_none hs] at h
  cases h

lemma owner_missing (h : findRow x db = none) : tunnelForOwner cap x secret db = none := by
  unfold tunnelForOwner
  rw [h]
  rfl

structure Foreign (T : Bytes) (db : List Row) (t : Turn) : Prop where
  row : findRow T t.db = findRow T db
  renewed : ∀ e, t.response ≠ some (.renewed T e)
  deleted : t.response ≠ some (.deleted T)
  owned : ∀ w, t.wait = some w → w.owned ≠ some T
  reaps : ∀ w, t.wait = some w → T ∉ w.reaps

lemma Foreign.refused {resp : Response} (hr : ∀ e, resp ≠ .renewed T e) (hd : resp ≠ .deleted T) :
    Foreign T db { db, response := some resp } where
  row := rfl
  renewed e he := hr e (some.inj he)
  deleted he := hd (some.inj he)
  owned _ hw := by cases hw
  reaps _ hw := by cases hw

lemma Foreign.begins (ho : w.owned ≠ some T) (hr : T ∉ w.reaps) :
    Foreign T db { db, wait := some w } where
  row := rfl
  renewed _ he := by cases he
  deleted he := by cases he
  owned v hv := by
    cases hv
    exact ho
  reaps v hv := by
    cases hv
    exact hr

lemma Handled.foreign (h : Handled cfg cap now db q t) (ha : q.byAdmin = false)
    (hs : ¬ Authorised cap T q.secret db) : Foreign T db t := by
  cases h with
  | refused hp =>
    refine .refused ?_ ?_
    · rintro _ rfl
      exact hp
    · rintro rfl
      exact hp
  | begins hb =>
    cases hb with
    | create => exact .begins (by simp [Wait.owned]) (by simp [Wait.reaps])
    | @update caller _ _ _ hr | @delete caller _ _ hr =>
      cases caller with
      | admin => cases ha
      | owner => exact .begins (by simpa [Wait.owned] using owner_ne hs hr) (by simp [Wait.reaps])
    | rotate hr => exact .begins (by simpa [Wait.owned] using owner_ne hs hr) (by simp [Wait.reaps])
  | renewed hr =>
    have hid := owner_ne hs hr
    exact ⟨findRow_updateRow_ne (fun _ => rfl) hid, by simp [hid], by simp, by simp, by simp⟩

lemma handle_withTunnelId (ha : q.byAdmin = false) (hs : ¬ Authorised cap T q.secret db)
    (hq : q.tunnelId = some T) (hx : findRow x db = none) :
    handle cfg cap (q.withTunnelId x) now mono rate db = handle cfg cap q now mono rate db := by
  have hT := owner_none hs
  cases q with
  | createTunnel => cases hq
  | updateTunnel caller =>
    cases hq
    cases caller with
    | admin => cases ha
    | owner secret =>
      simp only [Request.secret] at hT
      simp only [Request.withTunnelId, handle, updateTunnel, Caller.row, hT, owner_missing hx]
  | deleteTunnel caller =>
    cases hq
    cases caller with
    | admin => cases ha
    | owner secret =>
      simp only [Request.secret] at hT
      simp only [Request.withTunnelId, handle, deleteTunnel, Caller.row, hT, owner_missing hx]
  | renewTunnel id secret =>
    cases hq
    simp only [Request.secret] at hT
    simp only [Request.withTunnelId, handle, renewTunnel, hT, owner_missing hx]
  | rotate cred id secret =>
    cases hq
    simp only [Request.secret] at hT
    simp only [Request.withTunnelId, handle, rotate, hT, owner_missing hx]

lemma Handled.drawn (h : Handled cfg cap now db q t) (hq : q.drawn ≠ some T)
    (hw : t.wait = some w) : w.drawn ≠ some T := by
  cases h with
  | refused _ | renewed _ => cases hw
  | begins hb =>
    cases hw
    cases hb with
    | create _ => exact hq
    | _ => simp [Wait.drawn]

lemma findRow_append {row : Row} (h : Named T db) : findRow T (db ++ [row]) = findRow T db := by
  unfold findRow
  rw [find?_append]
  cases hf : db.find? (·.tunnelId = T) with
  | none =>
    obtain ⟨r₀, hm, hi⟩ := h
    exact absurd hi (findRow_none.1 hf r₀ hm)
  | some => rfl

lemma Done.row (h : Done cfg cap now db r w t) (hn : Named T db) (ho : w.owned ≠ some T)
    (hr : T ∉ w.reaps) : findRow T t.db = findRow T db := by
  have hne : ∀ {id}, w.owned = some id → id ≠ T := fun he hT => ho (hT ▸ he)
  cases h with
  | created => exact findRow_append hn
  | updated | deleted => exact findRow_updateRow_ne (fun _ => rfl) (hne rfl)
  | rotated =>
    exact findRow_updateRow_ne (fun row => row.setHmac_tunnelId _ _) (hne rfl)
  | reaped | reapedNext =>
    exact findRow_updateRow_ne (fun _ => rfl) fun he => hr (he ▸ mem_cons_self)
  | _ => rfl

lemma Done.wait (h : Done cfg cap now db r w t) (hw : t.wait = some w') :
    w'.owned = none ∧ (∀ id ∈ w'.reaps, id ∈ w.reaps) ∧ ∀ id, w'.drawn = some id →
      w.drawn = some id := by
  cases h with
  | notStored =>
    cases hw
    exact ⟨rfl, by simp [Wait.reaps], fun id hid => hid⟩
  | reapedNext =>
    cases hw
    exact ⟨rfl, fun id hid => mem_cons_of_mem _ hid, by simp [Wait.drawn]⟩
  | restores _ _ | disables =>
    cases hw
    exact ⟨rfl, by simp [Wait.reaps], by simp [Wait.drawn]⟩
  | _ => cases hw

lemma Done.foreign (h : Done cfg cap now db r w t) (hn : Named T db) (ho : w.owned ≠ some T)
    (hr : T ∉ w.reaps) : Foreign T db t where
  row := h.row hn ho hr
  renewed _ := h.renewed
  deleted he := by
    obtain hp | ⟨id, hd, rfl⟩ := h.response he
    · exact hp
    · cases hd
      exact ho rfl
  owned _ hw := by simp [(h.wait hw).1]
  reaps _ hw hT := hr ((h.wait hw).2.1 T hT)

end Coroutines

/-! ## Runs of the API -/

section Steps

variable {cfg : Settings} {cap : Bytes → Bytes} {s s' : State} {t : Turn} {i : Label} {n : Ref}

lemma step_request_eq {q : Request} (h : step cfg cap digest s (.request q) = some s') :
    s' = { s with rate := (handle cfg cap q s.now s.mono s.rate s.db).2 }.turn
      (handle cfg cap q s.now s.mono s.rate s.db).1 :=
  (some.inj (ite_none_right_eq_some.1 h).2).symm

structure Clear (n : Ref) (T : Bytes) (s : State) : Prop where
  next : n ≤ s.nextRef
  named : Named T s.db
  owned : ∀ u, u ∈ s.tasks ∨ u ∈ s.sent → n ≤ u.ref → u.wait.owned ≠ some T

def Undrawn (T : Bytes) (s : State) : Prop :=
  ∀ u, u ∈ s.tasks ∨ u ∈ s.sent → u.wait.drawn ≠ some T

lemma turn_nextRef : s.nextRef ≤ (s.turn t).nextRef := by
  unfold State.turn
  split
  · exact le_rfl
  · exact Nat.le_succ _

lemma mem_turn {u : Task} (hu : Calls (s.turn t) u) : t.wait = some u.wait ∨ Calls s u := by
  refine (calls_turn.1 hu).imp_left ?_
  rintro ⟨w, hw, rfl⟩
  exact hw

lemma Clear.turn (h : Clear n T s) (hn : Named T t.db)
    (ho : ∀ w, t.wait = some w → w.owned ≠ some T) : Clear n T (s.turn t) where
  next := h.next.trans turn_nextRef
  named := by simpa using hn
  owned u hu hr := (mem_turn hu).elim (ho _) fun hu => h.owned u hu hr

lemma Undrawn.turn (h : Undrawn T s) (hd : ∀ w, t.wait = some w → w.drawn ≠ some T) :
    Undrawn T (s.turn t) := fun u hu => (mem_turn hu).elim (hd _) (h u)

lemma Foreign.named {db : List Row} (h : Foreign T db t) (hn : Named T db) : Named T t.db := by
  obtain ⟨row, hrow⟩ : ∃ row, findRow T t.db = some row := by
    rw [h.row]
    cases hf : findRow T db with
    | none =>
      obtain ⟨row, hm, hi⟩ := hn
      exact absurd hi (findRow_none.1 hf row hm)
    | some row => exact ⟨row, rfl⟩
  exact ⟨row, findRow_some hrow⟩

def Outsider (cap : Bytes → Bytes) (T : Bytes) (s : State) (i : Label) : Prop :=
  ∀ q, i = .request q → q.byAdmin = false ∧ ¬ Authorised cap T q.secret s.db

lemma Clear.step (h : Clear n T s) (hb : Base digest s)
    (hs : Api.step cfg cap digest s i = some s') (hi : Outsider cap T s i) : Clear n T s' := by
  cases hb.does hs with
  | request hq =>
    have hf := hq.foreign (hi _ rfl).1 (hi _ rfl).2
    exact turn { h with } (hf.named h.named) hf.owned
  | tick _ | broker _ => exact { h with }
  | idle => exact h
  | reap => exact h.turn h.named (by simp [Wait.owned])
  | exec _ _ | drop _ =>
    exact ⟨h.next, h.named, fun u hu => h.owned u (hu.imp_right fun hu => (mem_del.1 hu).1)⟩
  | resume hu hr hd =>
    refine turn ⟨h.next, h.named, fun u hu => h.owned u (hu.imp_left fun hu =>
      (mem_del.1 hu).1)⟩ (hd.named h.named) fun w hw => ?_
    simp [(hd.wait hw).1]
  | brokerRestart =>
    exact ⟨h.next, h.named, fun u hu => h.owned u (hu.imp_right fun hu => by cases hu)⟩
  | apiRestart =>
    refine turn ⟨h.next, h.named, fun u hu => h.owned u (hu.imp_left fun hu => ?_)⟩ h.named
      (by simp [Wait.owned])
    cases hu

lemma Undrawn.step (h : Undrawn T s) (hb : Base digest s)
    (hs : Api.step cfg cap digest s i = some s') (hi : ∀ q, i = .request q → q.drawn ≠ some T) :
    Undrawn T s' := by
  cases hb.does hs with
  | request hq => exact turn h fun w => hq.drawn (hi _ rfl)
  | tick _ | idle | broker _ => exact h
  | reap => exact h.turn (by simp [Wait.drawn])
  | exec _ _ | drop _ => exact fun u hu => h u (hu.imp_right fun hu => (mem_del.1 hu).1)
  | resume hu hr hd =>
    refine turn (fun u hu => h u (hu.imp_left fun hu => (mem_del.1 hu).1)) fun w hw hT => ?_
    exact h _ (.inl hu) ((hd.wait hw).2.2 T hT)
  | brokerRestart => exact fun u hu => h u (hu.imp_right fun hu => by cases hu)
  | apiRestart =>
    refine turn (fun u hu => h u (hu.imp_left fun hu => ?_)) (by simp [Wait.drawn])
    cases hu

end Steps

end Api

end TunnelMate
