import TunnelMate.Api
import TunnelMate.Proofs.Records

/-!
# What the API's steps do

To the API the broker is a registry: each call is given with what it makes of the records and with
its answer (`Effect`).
-/

namespace TunnelMate.Api

open List Option Table Bool Nat State

variable {cfg : Settings} {cap : Bytes → Bytes} {digest : Bytes → Digest}

/-! ## The broker's registry -/

variable {j secret : Bytes} {α : Type} {x : Answer}

section Registry

variable {b b' : Broker} {d : Draw} {k : BrokerCall} {a : Answer} {id : Bytes}

def setHmac (cred : Cred) (hmac : Bytes) (x : Record) : Record :=
  match cred with
  | .agentSecret => { x with agentSecretHmac := hmac }
  | .sharedToken => { x with sharedTokenHmac := hmac }

def updRecord (id : Bytes) (f : Record → Record) (rs : List Record) : List Record :=
  rs.map fun x => if x.id = id then f x else x

def Digests (closed : Bool) (agent token : Bytes) : Prop :=
  agent.length = 64 ∧ (token.length = 64 ∨ closed = false ∧ token = [])

structure NewRecord (b : Broker) (r : CreateReq) (x : Record) : Prop where
  id : x.id = r.tunnelId
  fresh : ∀ y ∈ b.records, y.id ≠ x.id
  ref : ∀ y ∈ b.records, y.ref ≠ x.ref
  proto : x.proto = r.proto
  closed : x.closed = r.closed
  enabled : x.enabled = true
  port : if r.closed = true ∧ r.proto = .tcp then x.port = 0 else
    x.port ≠ 0 ∧ (tmPortAlloc b.cfg r.proto (r.preferPort % 2 ^ 16) b.ports).1 = x.port
  digests : Digests r.closed x.agentSecretHmac x.sharedTokenHmac
  given : ∀ agent token, r.agentSecretHmac = some agent → r.sharedTokenHmac = some token →
    Digests r.closed agent token → x.agentSecretHmac = agent ∧ x.sharedTokenHmac = token

inductive Effect (b : Broker) : BrokerCall → List Record → Answer → Prop
  | created {r : CreateReq} {x : Record} {secret token : Bytes} : NewRecord b r x →
      Effect b (.createTunnel r) (x :: b.records)
        (.reply (.created x.id x.port secret x.agentSecretHmac token x.sharedTokenHmac))
  | notCreated {r : CreateReq} {msg : String} :
      Effect b (.createTunnel r) b.records (.reply (.error msg))
  | deleted {id : Bytes} : Effect b (.deleteTunnel id) (b.records.filter (·.id ≠ id)) (.reply .ok)
  | notDeleted {id : Bytes} : (∀ x ∈ b.records, x.id ≠ id) →
      Effect b (.deleteTunnel id) b.records (.reply (.error "tunnel not found"))
  | switched {k : BrokerCall} {id : Bytes} {v : Bool} :
      k = (if v then .enableTunnel id else .disableTunnel id) →
      Effect b k (updRecord id (fun x => { x with enabled := v }) b.records) (.reply .ok)
  | notSwitched {k : BrokerCall} {id : Bytes} {v : Bool} {msg : String} :
      k = (if v then .enableTunnel id else .disableTunnel id) →
      Effect b k b.records (.reply (.error msg))
  | rotated {cred : Cred} {id secret hmac : Bytes} : hmac.length = 64 →
      Effect b (.rotate cred id) (updRecord id (setHmac cred hmac) b.records)
        (.reply (.rotated secret hmac))
  | notRotated {cred : Cred} {id : Bytes} {msg : String} :
      Effect b (.rotate cred id) b.records (.reply (.error msg))
  | listed : Effect b .getTunnels b.records (.tunnels (b.records.map (·.id)))

def IdsNodup (b : Broker) : Prop := (b.records.map (·.id)).Nodup

lemma map_records {α : Type} (f : Record → α) :
    b.records.map f = (b.tunnels.filter (·.registered)).map fun t => f t.record := by
  unfold Broker.records
  rw [map_filterMap, ← filterMap_eq_map, filterMap_filter]
  refine filterMap_congr fun t _ => ?_
  unfold Tunnel.recorded
  split_ifs <;> rfl

lemma record_ref (hw : Wf b) : (b.records.map (·.ref)).Nodup := by
  have hs : (b.records.map Record.ref).Sublist (b.tunnels.map Tunnel.ref) := by
    rw [map_records]
    exact filter_sublist.map _
  exact hw.tunnels.nodup.sublist hs

variable {t : Tunnel} {rand rand' : Bytes} {r : CreateReq}

lemma ref_iff_id (hw : Wf b) (hn : IdsNodup b) (ht : tmTunnelFind id b = some t)
    {x : Record} (hx : x ∈ b.records) : x.ref = t.ref ↔ x.id = id := by
  obtain ⟨hm, hid⟩ := record_of_find ht
  refine ⟨fun h => ?_, fun h => ?_⟩
  · rw [inj_on_of_nodup_map (record_ref hw) hx hm h]
    exact hid
  · rw [inj_on_of_nodup_map hn hx hm (h.trans hid.symm)]
    rfl

lemma updRecord_of_find (hw : Wf b) (hn : IdsNodup b)
    (ht : tmTunnelFind id b = some t) (f : Record → Record) :
    (b.records.map fun x => if x.ref = t.ref then f x else x) = updRecord id f b.records :=
  map_congr_left fun x hx => by simp only [ref_iff_id hw hn ht hx]

lemma secretOr_ne_nil {given : Option Bytes} (hr : rand ≠ []) : secretOr given rand ≠ [] := by
  unfold secretOr
  split
  · split_ifs with he
    · exact hr
    · simp [tmMaxSecret, he]
  · exact hr

lemma digests_create (hr : rand' ≠ []) :
    Digests r.closed (agentHmacOf digest r rand) (tokenHmacOf digest r rand') := by
  constructor
  · unfold agentHmacOf
    cases h : r.agentSecretHmac.filter (·.length = 64) with
    | none => exact length_hexOf digest _
    | some => simpa using (filter_eq_some_iff.1 h).2
  · unfold tokenHmacOf
    cases h : r.sharedTokenHmac.filter (·.length = 64) with
    | none =>
      cases hc : r.closed with
      | false => exact .inr ⟨rfl, by simp⟩
      | true => exact .inl (by simp [secretOr_ne_nil hr, length_hexOf])
    | some => exact .inl (by simpa using (filter_eq_some_iff.1 h).2)

lemma digests_given {agent token : Bytes}
    (ha : r.agentSecretHmac = some agent) (ht : r.sharedTokenHmac = some token)
    (hd : Digests r.closed agent token) :
    agentHmacOf digest r rand = agent ∧ tokenHmacOf digest r rand' = token := by
  refine ⟨by simp [agentHmacOf, ha, Option.filter, hd.1], ?_⟩
  rcases hd.2 with h64 | ⟨hc, rfl⟩
  · simp [tokenHmacOf, ht, Option.filter, h64]
  · simp [tokenHmacOf, ht, Option.filter, hc]

lemma exec_ipc {op : IpcOp} (hop : k.op d = some op) (h : k.exec digest d b = some (b', a)) :
    b' = (ipcHandleOp digest b op).1 ∧ a = .reply (ipcHandleOp digest b op).2 := by
  unfold BrokerCall.exec at h
  rw [hop] at h
  obtain ⟨b₁, hb, he⟩ := map_eq_some_iff.1 h
  unfold brokerStep handleEvent at hb
  dsimp only at hb
  split_ifs at hb
  cases hb
  obtain ⟨rfl, rfl⟩ := Prod.mk.inj he
  exact ⟨rfl, rfl⟩

lemma exec_effect (hw : Wf b) (hn : IdsNodup b) (h : k.exec digest d b = some (b', a)) :
    Effect b k b'.records a := by
  cases k with
  | createTunnel r =>
    obtain ⟨rfl, rfl⟩ := exec_ipc rfl h
    rcases records_create digest b r d.rand d.rand' d.bound with
      ⟨hr, msg, hm⟩ | ⟨x, hr, hx, hid, hp, hc, hen, hah, hth, hf, hport, s, t, hm⟩
    · simp only [ipcHandleOp, hr, hm]
      exact .notCreated
    · simp only [ipcHandleOp, hr, hm]
      refine .created ⟨hid, hf, fun y hy he => ?_, hp, hc, hen, hport, ?_,
        fun agent token ha ht hd => ?_⟩
      · obtain ⟨u, hu, -, rfl⟩ := mem_records.1 hy
        exact absurd (hw.tunnels.lt u hu) (by rw [hx] at he; exact he.ge.not_gt)
      · rw [hah, hth]
        refine digests_create fun he => ?_
        have hl := d.length_rand'
        rw [he] at hl
        cases hl
      · rw [hah, hth]
        exact digests_given ha ht hd
  | deleteTunnel id =>
    obtain ⟨rfl, rfl⟩ := exec_ipc rfl h
    cases ht : tmTunnelFind id b with
    | none =>
      simp only [ipcHandleOp, withTunnel, ht]
      exact .notDeleted (find_none_records.1 ht)
    | some t =>
      simp only [ipcHandleOp, withTunnel, ht, records_delete]
      have : b.records.filter (·.ref ≠ t.ref) = b.records.filter (·.id ≠ id) :=
        filter_congr fun x hx => decide_eq_decide.2 (not_congr (ref_iff_id hw hn ht hx))
      rw [this]
      exact .deleted
  | disableTunnel id =>
    obtain ⟨rfl, rfl⟩ := exec_ipc rfl h
    cases ht : tmTunnelFind id b with
    | none =>
      simp only [ipcHandleOp, withTunnel, ht]
      exact .notSwitched (v := false) rfl
    | some =>
      simp only [ipcHandleOp, withTunnel, ht]
      split_ifs
      · exact .notSwitched (v := false) rfl
      · rw [records_disable, updRecord_of_find hw hn ht]
        exact .switched (v := false) rfl
  | enableTunnel id =>
    obtain ⟨rfl, rfl⟩ := exec_ipc rfl h
    cases ht : tmTunnelFind id b with
    | none =>
      simp only [ipcHandleOp, withTunnel, ht]
      exact .notSwitched (v := true) rfl
    | some =>
      simp only [ipcHandleOp, withTunnel, ht]
      split_ifs
      · exact .notSwitched (v := true) rfl
      · rw [records_enable, updRecord_of_find hw hn ht]
        exact .switched (v := true) rfl
  | rotate cred id =>
    cases cred with
    | agentSecret | sharedToken =>
      obtain ⟨rfl, rfl⟩ := exec_ipc rfl h
      cases ht : tmTunnelFind id b with
      | none =>
        simp only [ipcHandleOp, withTunnel, ht]
        exact .notRotated
      | some =>
        simp only [ipcHandleOp, withTunnel, ht, records_rotateAgent, records_rotateToken]
        rw [updRecord_of_find hw hn ht]
        exact .rotated (length_hexOf digest _)
  | getTunnels =>
    simp only [BrokerCall.exec, BrokerCall.op, ite_none_right_eq_some] at h
    obtain ⟨-, h⟩ := h
    obtain ⟨rfl, rfl⟩ := Prod.mk.inj (some.inj h)
    have := Effect.listed (b := b)
    rwa [map_records] at this

lemma records_updRecord_ids {f : Record → Record} (hf : ∀ x, (f x).id = x.id)
    (rs : List Record) : (updRecord id f rs).map (·.id) = rs.map (·.id) := by
  unfold updRecord
  rw [List.map_map]
  refine map_congr_left fun x _ => ?_
  simp only [Function.comp]
  split_ifs
  · exact hf x
  · rfl

lemma setHmac_id (cred : Cred) (hmac : Bytes) (x : Record) : (setHmac cred hmac x).id = x.id := by
  cases cred <;> rfl

variable {rs : List Record}

lemma Effect.nodup (h : Effect b k rs a) (hn : IdsNodup b) : (rs.map (·.id)).Nodup := by
  cases h with
  | created hx =>
    rw [map_cons, nodup_cons]
    refine ⟨fun hm => ?_, hn⟩
    obtain ⟨y, hy, he⟩ := mem_map.1 hm
    exact hx.fresh y hy he
  | deleted => exact hn.sublist (filter_sublist.map _)
  | switched =>
    rw [records_updRecord_ids]
    · exact hn
    · exact fun _ => rfl
  | rotated =>
    rw [records_updRecord_ids (setHmac_id _ _)]
    exact hn
  | _ => exact hn

lemma Effect.create_cases (h : Effect b (.createTunnel r) rs a) :
    (∃ msg, a = .reply (.error msg)) ∨ ∃ x secret token, NewRecord b r x ∧ rs = x :: b.records ∧
      a = .reply (.created x.id x.port secret x.agentSecretHmac token x.sharedTokenHmac) := by
  generalize hk : BrokerCall.createTunnel r = k at h
  cases h with
  | created hx =>
    cases hk
    exact .inr ⟨_, _, _, hx, rfl, rfl⟩
  | notCreated => exact .inl ⟨_, rfl⟩
  | @switched _ _ v he | @notSwitched _ _ v _ he => cases v <;> cases hk.trans he
  | _ => cases hk

lemma Effect.created_inv {ah tok th : Bytes} {p : ℕ}
    (h : Effect b (.createTunnel r) rs (.reply (.created j p secret ah tok th))) :
    ∃ x, NewRecord b r x ∧ rs = x :: b.records ∧ x.agentSecretHmac = ah ∧ x.sharedTokenHmac = th ∧
      x.port = p := by
  obtain ⟨_, ⟨⟩⟩ | ⟨x, _, _, hx, rfl, ⟨⟩⟩ := h.create_cases
  exact ⟨x, hx, rfl, rfl, rfl, rfl⟩

lemma Effect.kept {g : Record → α} (h : Effect b k rs a)
    (he : ∀ x v, g { x with enabled := v } = g x)
    (hc : ∀ cred hmac x, g (setHmac cred hmac x) = g x) {y : Record} (hy : y ∈ rs) :
    (∃ x ∈ b.records, g x = g y) ∨
    ∃ r secret token, k = .createTunnel r ∧ NewRecord b r y ∧ rs = y :: b.records ∧
      a = .reply (.created y.id y.port secret y.agentSecretHmac token y.sharedTokenHmac) := by
  cases h with
  | created hx =>
    rcases mem_cons.1 hy with rfl | hy
    · exact .inr ⟨_, _, _, rfl, hx, rfl, rfl⟩
    · exact .inl ⟨y, hy, rfl⟩
  | deleted => exact .inl ⟨y, (mem_filter.1 hy).1, rfl⟩
  | switched =>
    obtain ⟨x, hx, rfl⟩ := mem_map.1 hy
    refine .inl ⟨x, hx, ?_⟩
    split_ifs
    · exact (he x _).symm
    · rfl
  | rotated =>
    obtain ⟨x, hx, rfl⟩ := mem_map.1 hy
    refine .inl ⟨x, hx, ?_⟩
    split_ifs
    · exact (hc _ _ x).symm
    · rfl
  | _ => exact .inl ⟨y, hy, rfl⟩

lemma exec_step (h : k.exec digest d b = some (b', a)) :
    b' = b ∨ ∃ op, brokerStep digest b (.ipc op) = some b' := by
  unfold BrokerCall.exec at h
  split at h
  · split_ifs at h
    exact .inl (Prod.mk.inj (some.inj h)).1.symm
  · obtain ⟨b₁, hb, he⟩ := map_eq_some_iff.1 h
    obtain ⟨rfl, -⟩ := Prod.mk.inj he
    exact .inr ⟨_, hb⟩

lemma records_own {e : BrokerEvent} (hw : Wf b) (he : ownEvent e = true)
    (h : brokerStep digest b e = some b') : b'.records = b.records := by
  refine records_step hw ?_ h
  by_cases hk : ∃ id st, e = .ipc (.killStream id st)
  · obtain ⟨id, st, rfl⟩ := hk
    exact ⟨by simp [CreatesTunnel], by simp [Switches], by simp [Rotates],
      by simp [Deletes, deletedBy], by simp⟩
  · refine .of_ne_ipc (fun op ho => ?_) fun ho => ?_
    · subst ho
      cases op <;> first | exact hk ⟨_, _, rfl⟩ | cases he
    · subst ho
      exact absurd he (by simp [ownEvent])

end Registry

/-! ## The coroutines -/

variable {f : Row → Row}

section Coroutines

variable {now mono : ℕ} {rate : RateWindow} {db : List Row} {w : Wait} {stored : Bool}
  {r : Except BrokerExc Answer} {id : Bytes}

variable {row : Row}

lemma findRow_some (h : findRow id db = some row) : row ∈ db ∧ row.tunnelId = id :=
  ⟨mem_of_find?_eq_some h, by simpa using find?_some h⟩

lemma findRow_none : findRow id db = none ↔ ∀ row ∈ db, row.tunnelId ≠ id := by
  simp [findRow]

lemma findRow_updateRow (hf : ∀ r, (f r).tunnelId = r.tunnelId) :
    findRow id (updateRow j f db) = (findRow id db).map fun r => if j = id then f r else r := by
  unfold findRow updateRow
  rw [find?_map]
  have hp : ((fun r : Row => decide (r.tunnelId = id)) ∘
      fun r => if r.tunnelId = j then f r else r) = fun r => decide (r.tunnelId = id) := by
    funext r
    simp only [Function.comp]
    split_ifs
    · rw [hf]
    · rfl
  rw [hp]
  cases h : db.find? fun r => decide (r.tunnelId = id) with
  | none => rfl
  | some r =>
    have hr : r.tunnelId = id := by simpa using find?_some h
    simp only [map_some, hr, eq_comm (a := id)]

lemma findRow_updateRow_ne (hf : ∀ r, (f r).tunnelId = r.tunnelId)
    (hj : j ≠ id) : findRow id (updateRow j f db) = findRow id db := by
  rw [findRow_updateRow hf]
  simp only [hj, if_false, Option.map_id']

def Present (id : Bytes) (db : List Row) : Prop :=
  ∃ row ∈ db, row.tunnelId = id ∧ row.deleted = false

lemma present_of_owner {secret : Option Bytes} (h : tunnelForOwner cap id secret db = some row) :
    row ∈ db ∧ row.tunnelId = id ∧ row.deleted = false := by
  obtain ⟨hf, hp⟩ := filter_eq_some_iff.1 h
  simp only [and_eq_true, not_eq_true'] at hp
  exact ⟨(findRow_some hf).1, (findRow_some hf).2, hp.1⟩

lemma present_of_caller {caller : Caller} (h : caller.row cap id db = some row) :
    Present id db := by
  cases caller with
  | owner => exact ⟨row, present_of_owner h⟩
  | admin =>
    obtain ⟨hf, hp⟩ := filter_eq_some_iff.1 h
    exact ⟨row, (findRow_some hf).1, (findRow_some hf).2, by simpa using hp⟩

inductive Begins (cfg : Settings) (cap : Bytes → Bytes) (now : ℕ) (db : List Row) :
    Request → Wait → Prop
  | create {body : TunnelCreate} {ip id secret : Bytes} {blocked : Bool} :
      activeTunnels ip now db < cfg.maxTunnelsPerIp →
      Begins cfg cap now db (.createTunnel body ip blocked id secret) (.create body ip id secret)
  | update {caller : Caller} {id : Bytes} {v : Bool} {row : Row} :
      caller.row cap id db = some row →
      Begins cfg cap now db (.updateTunnel caller id v) (.update id v)
  | delete {caller : Caller} {id : Bytes} {row : Row} : caller.row cap id db = some row →
      Begins cfg cap now db (.deleteTunnel caller id) (.delete id)
  | rotate {cred : Cred} {id : Bytes} {secret : Option Bytes} {row : Row} :
      tunnelForOwner cap id secret db = some row →
      Begins cfg cap now db (.rotate cred id secret) (.rotate cred id)

def Response.plain : Response → Prop
  | .renewed .. | .deleted .. => False
  | _ => True

inductive Handled (cfg : Settings) (cap : Bytes → Bytes) (now : ℕ) (db : List Row) :
    Request → Turn → Prop
  | refused {q : Request} {resp : Response} : resp.plain →
      Handled cfg cap now db q { db, response := some resp }
  | begins {q : Request} {w : Wait} : Begins cfg cap now db q w →
      Handled cfg cap now db q { db, wait := some w }
  | renewed {id : Bytes} {secret : Option Bytes} {row : Row} :
      tunnelForOwner cap id secret db = some row →
      Handled cfg cap now db (.renewTunnel id secret)
        { db := updateRow id (fun r => { r with expiresAt := now + cfg.leaseSeconds }) db
          response := some (.renewed id (now + cfg.leaseSeconds)) }

lemma handle_handled (q : Request) :
    Handled cfg cap now db q (handle cfg cap q now mono rate db).1 := by
  cases q with
  | createTunnel =>
    unfold handle createTunnel
    dsimp only
    split_ifs with _ _ hq
    · exact .refused trivial
    · exact .refused trivial
    · exact .refused trivial
    · exact .refused trivial
    · exact .begins (.create (not_le.1 hq))
  | updateTunnel caller id =>
    simp only [handle, updateTunnel]
    split
    · exact .refused trivial
    · split_ifs
      · exact .refused trivial
      · exact .begins (.update ‹_›)
  | deleteTunnel caller id =>
    simp only [handle, deleteTunnel]
    split
    · exact .refused trivial
    · exact .begins (.delete ‹_›)
  | renewTunnel id secret =>
    simp only [handle, renewTunnel]
    split
    · exact .refused trivial
    · exact .renewed ‹_›
  | rotate cred id secret =>
    simp only [handle, rotate]
    split
    · exact .refused trivial
    · split_ifs
      · exact .refused trivial
      · exact .begins (.rotate ‹_›)

lemma call_create {req : CreateReq} (h : w.call = .createTunnel req) :
    (∃ body ip id secret, w = .create body ip id secret ∧ req = createReq body id) ∨
    ∃ row rest, w = .restore row rest ∧ req = restoreReq row := by
  cases w with
  | create body ip id secret =>
    exact .inl ⟨body, ip, id, secret, rfl, (BrokerCall.createTunnel.inj h).symm⟩
  | restore row rest => exact .inr ⟨row, rest, rfl, (BrokerCall.createTunnel.inj h).symm⟩
  | update id v => cases v <;> cases h
  | _ => cases h

def Wait.rows : Wait → List Row
  | .list rows => rows
  | .restore row rest => row :: rest
  | .restoreDisable _ rest => rest
  | _ => []

def Wait.restoring : Wait → Bool
  | .list _ => true
  | .restore .. => true
  | .restoreDisable .. => true
  | _ => false

def newRow (cfg : Settings) (cap : Bytes → Bytes) (now : ℕ) (body : TunnelCreate)
    (ip id secret : Bytes) (port : ℕ) (agentHmac tokenHmac : Bytes) : Row :=
  { tunnelId := id, protocol := body.protocol, closed := body.closed, publicPort := port,
    agentSecretHmac := agentHmac, sharedTokenHmac := tokenHmac, managementHmac := cap secret,
    sourceIp := ip, createdAt := now, expiresAt := now + cfg.leaseSeconds }

inductive Done (cfg : Settings) (cap : Bytes → Bytes) (now : ℕ) (db : List Row)
    (r : Except BrokerExc Answer) : Wait → Turn → Prop
  | notCreated {body : TunnelCreate} {ip id secret : Bytes} {resp : Response} : resp.plain →
      (∀ i p a ah t th, r ≠ .ok (.reply (.created i p a ah t th))) →
      Done cfg cap now db r (.create body ip id secret) { db, response := some resp }
  | created {body : TunnelCreate} {ip id secret : Bytes} {i a ah t th : Bytes} {p : ℕ}
      {resp : Response} : resp.plain → r = .ok (.reply (.created i p a ah t th)) →
      (∀ row ∈ db, row.tunnelId ≠ id) →
      Done cfg cap now db r (.create body ip id secret)
        { db := db ++ [newRow cfg cap now body ip id secret p ah th], response := some resp }
  | notStored {body : TunnelCreate} {ip id secret : Bytes} {i a ah t th : Bytes} {p : ℕ} :
      r = .ok (.reply (.created i p a ah t th)) →
      Done cfg cap now db r (.create body ip id secret) { db, wait := some (.undo id) }
  | undone {id : Bytes} : Done cfg cap now db r (.undo id) { db, response := some .internal }
  | notUpdated {id : Bytes} {v : Bool} {resp : Response} : resp.plain → (∀ a, r ≠ .ok a) →
      Done cfg cap now db r (.update id v) { db, response := some resp }
  | updated {id : Bytes} {v : Bool} {resp : Response} : resp.plain → (∃ a, r = .ok a) →
      Done cfg cap now db r (.update id v)
        { db := updateRow id (fun r => { r with enabled := v }) db, response := some resp }
  | notDeleted {id : Bytes} {resp : Response} : resp.plain →
      (∃ exc, r = .error exc ∧ exc.notFound = false) →
      Done cfg cap now db r (.delete id) { db, response := some resp }
  | deleted {id : Bytes} {resp : Response} : resp = .deleted id →
      ((∃ a, r = .ok a) ∨ ∃ exc, r = .error exc ∧ exc.notFound = true) →
      Done cfg cap now db r (.delete id)
        { db := updateRow id markDeleted db, response := some resp }
  | notRotated {cred : Cred} {id : Bytes} {resp : Response} : resp.plain →
      (∀ secret hmac, r ≠ .ok (.reply (.rotated secret hmac))) →
      Done cfg cap now db r (.rotate cred id) { db, response := some resp }
  | rotated {cred : Cred} {id secret hmac : Bytes} {resp : Response} : resp.plain →
      r = .ok (.reply (.rotated secret hmac)) →
      Done cfg cap now db r (.rotate cred id)
        { db := updateRow id (.setHmac cred hmac) db, response := some resp }
  | reaped {id : Bytes} : Done cfg cap now db r (.reap id []) { db := updateRow id markDeleted db }
  | reapedNext {id id' : Bytes} {rest : List Bytes} :
      Done cfg cap now db r (.reap id (id' :: rest))
        { db := updateRow id markDeleted db, wait := some (.reap id' rest) }
  | restored {w : Wait} : w.restoring = true → Done cfg cap now db r w { db, started := true }
  | restores {w : Wait} {row : Row} {rest : List Row} : w.restoring = true →
      (∀ x ∈ row :: rest, x ∈ w.rows) →
      Done cfg cap now db r w { db, wait := some (.restore row rest) }
  | disables {row : Row} {rest : List Row} :
      Done cfg cap now db r (.restore row rest)
        { db, wait := some (.restoreDisable row.tunnelId rest) }

lemma restoreNext_done (hw : w.restoring = true) {rows : List Row} (hr : ∀ x ∈ rows, x ∈ w.rows) :
    Done cfg cap now db r w (restoreNext db rows) := by
  cases rows with
  | nil => exact .restored hw
  | cons => exact .restores hw hr

lemma createTunnelDone_done {body : TunnelCreate} {ip : Bytes} :
    Done cfg cap now db r (.create body ip id secret)
      (createTunnelDone cfg cap body ip id secret now stored db r) := by
  unfold createTunnelDone
  split
  · exact .notCreated trivial (by simp)
  · exact .notCreated trivial (by simp)
  · rename_i i p a ah t th
    cases hins : if stored then insertRow (newRow cfg cap now body ip id secret p ah th) db
        else none with
    | none =>
      simp only [newRow] at hins
      simp only [hins]
      exact .notStored rfl
    | some =>
      have hins' := hins
      simp only [newRow] at hins'
      simp only [hins']
      unfold insertRow at hins
      split_ifs at hins with hst hf
      cases hins
      refine .created trivial rfl fun row hrow => ?_
      exact findRow_none.1 (by simpa [newRow] using hf) row hrow
  · rename_i hn
    exact .notCreated trivial fun i p a ah t th he => hn _ _ _ _ _ _ (Except.ok.inj he)

lemma deleteTunnelDone_done : Done cfg cap now db r (.delete id) (deleteTunnelDone id db r) := by
  unfold deleteTunnelDone
  split
  · exact .deleted rfl (.inl ⟨_, rfl⟩)
  · exact .notDeleted trivial ⟨_, rfl, rfl⟩
  · split_ifs with hn
    · exact .deleted rfl (.inr ⟨_, rfl, hn⟩)
    · exact .notDeleted trivial ⟨_, rfl, by simpa using hn⟩

lemma rotateDone_done {cred : Cred} :
    Done cfg cap now db r (.rotate cred id) (rotateDone cred id db r) := by
  unfold rotateDone
  split
  · exact .notRotated trivial (by simp)
  · exact .rotated trivial rfl
  · rename_i hn
    exact .notRotated trivial fun secret hmac he => hn _ _ (Except.ok.inj he)

lemma resume_done : Done cfg cap now db r w (w.resume cfg cap now stored db r) := by
  cases w with
  | create => exact createTunnelDone_done
  | undo => exact .undone
  | update =>
    cases r with
    | error =>
      refine .notUpdated ?_ (by simp)
      trivial
    | ok a =>
      refine .updated ?_ ⟨a, rfl⟩
      trivial
  | delete => exact deleteTunnelDone_done
  | rotate => exact rotateDone_done
  | reap id rest =>
    cases rest with
    | nil => exact .reaped
    | cons => exact .reapedNext
  | list rows =>
    rcases r with exc | ⟨r | existing⟩
    · exact .restored rfl
    · exact restoreNext_done rfl fun x hx => hx
    · exact restoreNext_done rfl fun x hx => (mem_filter.1 hx).1
  | restore row rest =>
    have hn : Done cfg cap now db r (.restore row rest) (restoreNext db rest) :=
      restoreNext_done rfl fun x hx => mem_cons_of_mem row hx
    cases r with
    | error => exact hn
    | ok =>
      simp only [Wait.resume]
      split_ifs
      · exact hn
      · exact .disables
  | restoreDisable id rest => exact restoreNext_done rfl fun x hx => hx

lemma Done.response {resp : Response} {t : Turn} (h : Done cfg cap now db r w t)
    (he : t.response = some resp) : resp.plain ∨ ∃ id, resp = .deleted id ∧ w = .delete id := by
  cases h with
  | notCreated hp _ | created hp _ _ | notUpdated hp _ | updated hp _ | notDeleted hp _
  | notRotated hp _ | rotated hp _ => exact .inl (some.inj he ▸ hp)
  | undone => exact .inl (some.inj he ▸ trivial)
  | deleted hr => exact .inr ⟨_, (some.inj he).symm.trans hr, rfl⟩
  | notStored _ | reaped | reapedNext | restored _ | restores _ _ | disables => cases he

lemma Done.renewed {e : ℕ} {t : Turn} (h : Done cfg cap now db r w t) :
    t.response ≠ some (.renewed id e) := by
  intro he
  obtain hp | ⟨_, hr, -⟩ := h.response he
  · exact hp
  · cases hr

lemma result_ok {o : Outcome} {a : Option Answer} (h : o.result a = some (.ok x)) : a = some x := by
  cases o with
  | answered =>
    obtain ⟨y, hy, he⟩ := map_eq_some_iff.1 h
    rw [hy]
    split at he
    · cases he
    · exact congrArg some (Except.ok.inj he)
  | unavailable | closed => cases h

/-! Rows stay, and only a deletion marks them. -/

variable {id' : Bytes}

lemma Present.update (h : Present id db)
    (hf : ∀ r, (f r).tunnelId = r.tunnelId ∧ (f r).deleted = r.deleted) :
    Present id (updateRow id' f db) := by
  obtain ⟨r, hr, hi, hd⟩ := h
  refine ⟨_, mem_map_of_mem hr, ?_, ?_⟩
  · split_ifs
    · exact (hf r).1.trans hi
    · exact hi
  · split_ifs
    · exact (hf r).2.trans hd
    · exact hd

lemma Present.mark (h : Present id db) (hne : id ≠ id') :
    Present id (updateRow id' markDeleted db) := by
  obtain ⟨r, hr, hi, hd⟩ := h
  refine ⟨r, mem_map.2 ⟨r, hr, if_neg ?_⟩, hi, hd⟩
  rw [hi]
  exact hne

lemma Row.setHmac_deleted (cred : Cred) (hmac : Bytes) (r : Row) :
    (r.setHmac cred hmac).deleted = r.deleted := by
  cases cred <;> rfl

def Named (id : Bytes) (db : List Row) : Prop := ∃ row ∈ db, row.tunnelId = id

lemma Present.named (h : Present id db) : Named id db := by
  obtain ⟨r, hr, hi, -⟩ := h
  exact ⟨r, hr, hi⟩

lemma Named.update (h : Named id db) (hf : ∀ r, (f r).tunnelId = r.tunnelId) :
    Named id (updateRow id' f db) := by
  obtain ⟨r, hr, hi⟩ := h
  refine ⟨_, mem_map_of_mem hr, ?_⟩
  split_ifs
  · exact (hf r).trans hi
  · exact hi

end Coroutines

/-! ## Steps -/

section Steps

variable {s s' : State} {t : Turn} {i : Label} {u : Task}

@[simp] lemma turn_db : (s.turn t).db = t.db := by
  unfold turn
  split <;> rfl

@[simp] lemma turn_broker : (s.turn t).broker = s.broker := by
  unfold turn
  split <;> rfl

@[simp] lemma turn_answers : (s.turn t).answers = s.answers := by
  unfold turn
  split <;> rfl

@[simp] lemma turn_now : (s.turn t).now = s.now := by
  unfold turn
  split <;> rfl

@[simp] lemma turn_serving : (s.turn t).serving = (s.serving || t.started) := by
  unfold turn
  split <;> rfl

@[simp] lemma turn_responses : (s.turn t).responses = t.response.toList ++ s.responses := by
  unfold turn
  split <;> rfl

lemma mem_turn_tasks :
    u ∈ (s.turn t).tasks ↔ (∃ w, t.wait = some w ∧ u = ⟨s.nextRef, w⟩) ∨ u ∈ s.tasks := by
  unfold turn
  split <;> rename_i h <;> simp [h, wait]

lemma mem_turn_sent :
    u ∈ (s.turn t).sent ↔ (∃ w, t.wait = some w ∧ u = ⟨s.nextRef, w⟩) ∨ u ∈ s.sent := by
  unfold turn
  split <;> rename_i h <;> simp [h, wait]

def State.executed (s : State) (u : Task) (b : Broker) (a : Answer) : State :=
  { s with broker := b, sent := del u.ref s.sent, answers := (u.ref, a) :: s.answers }

def State.resumed (s : State) (u : Task) : State := { s with tasks := del u.ref s.tasks }

/-- A state as a turn finds it: some of its coroutines may be over. -/
def State.withTasks (ts : List Task) (rate : RateWindow) (up : Bool) (s : State) : State :=
  { s with tasks := ts, rate := rate, serving := up }

lemma mem_restorable {now : ℕ} {db : List Row} {row : Row} (h : row ∈ restorable now db) :
    row ∈ db :=
  (mem_filter.1 ((mem_insertionSort _).1 h)).1

/-- A coroutine waits for the call, or the call is on its way. -/
def Calls (s : State) (u : Task) : Prop := u ∈ s.tasks ∨ u ∈ s.sent

lemma calls_turn :
    Calls (s.turn t) u ↔ (∃ w, t.wait = some w ∧ u = ⟨s.nextRef, w⟩) ∨ Calls s u := by
  unfold Calls
  rw [mem_turn_tasks, mem_turn_sent]
  exact or_or_distrib_left.symm

inductive Does (cfg : Settings) (cap : Bytes → Bytes) (digest : Bytes → Digest) (s : State) :
    Label → State → Prop
  | tick {now mono : ℕ} : s.now ≤ now →
      Does cfg cap digest s (.tick now mono) { s with now := now, mono := mono }
  | request {q : Request} {rate : RateWindow} {t : Turn} : Handled cfg cap s.now s.db q t →
      Does cfg cap digest s (.request q) ({ s with rate := rate }.turn t)
  | idle : Does cfg cap digest s .reap s
  | reap {id : Bytes} {rest : List Bytes} : s.reaping = false →
      expiredIds s.now s.db = id :: rest →
      Does cfg cap digest s .reap (s.turn { db := s.db, wait := some (.reap id rest) })
  | exec {d : Draw} {u : Task} {b : Broker} {a : Answer} : u ∈ s.sent →
      Effect s.broker u.wait.call b.records a →
      u.wait.call.exec digest d s.broker = some (b, a) →
      Does cfg cap digest s (.exec u.ref d) (s.executed u b a)
  | drop {u : Task} : u ∈ s.sent →
      Does cfg cap digest s (.drop u.ref) { s with sent := del u.ref s.sent }
  | resume {u : Task} {o : Outcome} {stored : Bool} {r : Except BrokerExc Answer} {t : Turn} :
      u ∈ s.tasks → o.result (s.answers.lookup u.ref) = some r →
      Done cfg cap s.now s.db r u.wait t →
      Does cfg cap digest s (.resume u.ref o stored) ((s.resumed u).turn t)
  | broker {e : BrokerEvent} {b : Broker} : b.records = s.broker.records → e ≠ .cleanup →
      brokerStep digest s.broker e = some b →
      Does cfg cap digest s (.broker e) { s with broker := b }
  | brokerRestart : Does cfg cap digest s .brokerRestart
      { s with broker := restarted s.broker, sent := [] }
  | apiRestart : Does cfg cap digest s .apiRestart ((s.withTasks [] {} false).turn
      { db := s.db, wait := some (.list (restorable s.now s.db)) })

lemma step_does (hw : Wf s.broker) (hn : IdsNodup s.broker)
    (h : step cfg cap digest s i = some s') : Does cfg cap digest s i s' := by
  cases i with
  | tick =>
    obtain ⟨hn, rfl⟩ := of_guard h
    exact .tick hn.1
  | request q =>
    obtain ⟨-, rfl⟩ := of_guard h
    exact .request (handle_handled q)
  | reap =>
    simp only [step, ite_none_right_eq_some, and_eq_true, not_eq_true'] at h
    obtain ⟨⟨-, hr⟩, h⟩ := h
    cases h
    cases he : expiredIds s.now s.db with
    | nil =>
      have hs : s.turn (reapNext s.db []) = s := by simp [turn, reapNext]
      exact hs.symm ▸ .idle
    | cons => exact .reap hr he
  | exec c =>
    obtain ⟨u, hu, h⟩ := bind_eq_some_iff.1 h
    obtain ⟨⟨b, a⟩, hx, rfl⟩ := map_eq_some_iff.1 h
    obtain rfl : u.ref = c := key_of_get hu
    exact .exec (mem_of_get hu) (exec_effect hw hn hx) hx
  | drop c =>
    simp only [step, ite_none_right_eq_some] at h
    obtain ⟨hu, h⟩ := h
    obtain ⟨u, hu⟩ := isSome_iff_exists.1 hu
    cases h
    obtain rfl : u.ref = c := key_of_get hu
    exact .drop (mem_of_get hu)
  | resume c =>
    obtain ⟨u, hu, h⟩ := bind_eq_some_iff.1 h
    obtain ⟨r, hr, rfl⟩ := map_eq_some_iff.1 h
    obtain rfl : u.ref = c := key_of_get hu
    exact .resume (mem_of_get hu) hr resume_done
  | broker =>
    simp only [step, ite_none_right_eq_some] at h
    obtain ⟨he, h⟩ := h
    obtain ⟨b, hb, rfl⟩ := map_eq_some_iff.1 h
    exact .broker (records_own hw he hb) (by rintro rfl; cases he) hb
  | brokerRestart =>
    cases h
    exact .brokerRestart
  | apiRestart =>
    cases h
    exact .apiRestart

/-- What the steps keep in order: calls have their own names, and an executed one is not on its way
any more; rows and tunnels have their own ids; and the broker is a broker. -/
structure Base (digest : Bytes → Digest) (s : State) : Prop where
  tasks : Table.Fresh s.nextRef s.tasks
  sent : Table.Fresh s.nextRef s.sent
  same : ∀ t ∈ s.tasks, ∀ u ∈ s.sent, t.ref = u.ref → t = u
  answers : ∀ p ∈ s.answers, p.1 < s.nextRef
  executed : ∀ p ∈ s.answers, ∀ u ∈ s.sent, u.ref ≠ p.1
  rows : (s.db.map (·.tunnelId)).Nodup
  registry : IdsNodup s.broker
  range : s.broker.cfg.publicPortStart ≤ s.broker.cfg.publicPortEnd
  broker : ∃ tr, Trace (brokerStep digest) BrokerInit tr s.broker ∧ ∀ p ∈ tr, p.2 ≠ .cleanup

variable {id : Bytes} {a : Answer} {c : Ref} {b : Broker}

lemma map_updateRow {g : Row → α} {db : List Row}
    (hf : ∀ r, g (f r) = g r) : (updateRow id f db).map g = db.map g := by
  unfold updateRow
  rw [List.map_map]
  refine map_congr_left fun r _ => ?_
  simp only [Function.comp]
  split_ifs
  · exact hf r
  · rfl

lemma Row.setHmac_tunnelId (r : Row) (cred : Cred) (hmac : Bytes) :
    (r.setHmac cred hmac).tunnelId = r.tunnelId := by
  cases cred <;> rfl

section Kept

variable {α : Type} {g : Row → α} {now : ℕ} {db : List Row} {q : Request} {w : Wait}
  {r : Except BrokerExc Answer}

lemma Handled.map (h : Handled cfg cap now db q t)
    (hg : ∀ r e, g { r with expiresAt := e } = g r) : t.db.map g = db.map g := by
  cases h with
  | refused => rfl
  | begins => rfl
  | renewed => exact map_updateRow fun r => hg r _

section

variable (h : Done cfg cap now db r w t)
include h

lemma Done.map (he : ∀ r v, g { r with enabled := v } = g r) (hd : ∀ r, g (markDeleted r) = g r)
    (hc : ∀ r cred hmac, g (r.setHmac cred hmac) = g r) : t.db.map g = db.map g ∨
    ∃ body ip id secret i p a ah tok th, w = .create body ip id secret ∧
      r = .ok (.reply (.created i p a ah tok th)) ∧ (∀ row ∈ db, row.tunnelId ≠ id) ∧
      t.db = db ++ [newRow cfg cap now body ip id secret p ah th] ∧ t.wait = none := by
  cases h with
  | created _ hr hf => exact .inr ⟨_, _, _, _, _, _, _, _, _, _, rfl, hr, hf, rfl, rfl⟩
  | updated => exact .inl (map_updateRow fun r => he r _)
  | deleted _ _ | reaped | reapedNext => exact .inl (map_updateRow hd)
  | rotated => exact .inl (map_updateRow fun r => hc r _ _)
  | _ => exact .inl rfl

lemma Done.ids : t.db.map (·.tunnelId) = db.map (·.tunnelId) ∨
    ∃ id ∉ db.map (·.tunnelId), t.db.map (·.tunnelId) = db.map (·.tunnelId) ++ [id] := by
  rcases h.map (g := fun row => row.tunnelId) (fun _ _ => rfl) (fun _ => rfl)
    fun row cred hmac => row.setHmac_tunnelId cred hmac with
    he | ⟨_, _, id, _, _, _, _, _, _, _, -, -, hf, he, -⟩
  · exact .inl he
  · exact .inr ⟨id, by simpa using hf, by simp [he, newRow]⟩

omit h in
lemma named_iff : Named id db ↔ id ∈ db.map (·.tunnelId) :=
  mem_map.symm

lemma Done.named (hn : Named id db) : Named id t.db := by
  rw [named_iff] at hn ⊢
  rcases h.ids with he | ⟨_, -, he⟩ <;> rw [he]
  · exact hn
  · exact mem_append_left _ hn

omit h in
lemma Handled.nodup (h : Handled cfg cap now db q t) (hn : (db.map (·.tunnelId)).Nodup) :
    (t.db.map (·.tunnelId)).Nodup := by
  rw [h.map fun _ _ => rfl]
  exact hn

lemma Done.nodup (hn : (db.map (·.tunnelId)).Nodup) : (t.db.map (·.tunnelId)).Nodup := by
  rcases h.ids with he | ⟨id, hid, he⟩ <;> rw [he]
  · exact hn
  · simpa using hn.concat hid

omit h in
lemma Handled.not_restoring (h : Handled cfg cap now db q t) (hw : t.wait = some w) :
    w.restoring = false := by
  cases h with
  | refused | renewed _ => cases hw
  | begins hb =>
    cases hw
    cases hb <;> rfl

lemma Done.restoring {w' : Wait} (hw : t.wait = some w') (hr : w'.restoring = true) :
    w.restoring = true ∧ t.db = db ∧ t.started = false ∧ ∀ row ∈ w'.rows, row ∈ w.rows := by
  cases h with
  | restores hwr hrows =>
    cases hw
    exact ⟨hwr, rfl, rfl, hrows⟩
  | disables =>
    cases hw
    exact ⟨rfl, rfl, rfl, fun row hrow => mem_cons_of_mem _ hrow⟩
  | notStored _ | reapedNext =>
    cases hw
    cases hr
  | _ => cases hw

end

end Kept

namespace Base

section

variable (h : Base digest s)
include h

lemma wf : Wf s.broker := by
  obtain ⟨tr, ht, -⟩ := h.broker
  exact .of_trace ht

lemma does (hs : step cfg cap digest s i = some s') : Does cfg cap digest s i s' :=
  step_does h.wf h.registry hs

lemma wait (w : Wait) : Base digest (s.wait w) where
  tasks := h.tasks.cons rfl
  sent := h.sent.cons rfl
  same := by
    intro t ht u hu he
    rcases mem_cons.1 ht with rfl | ht <;> rcases mem_cons.1 hu with rfl | hu
    · rfl
    · exact absurd (h.sent.lt u hu) (not_lt.2 (le_of_eq he))
    · exact absurd (h.tasks.lt t ht) (not_lt.2 (le_of_eq he.symm))
    · exact h.same t ht u hu he
  answers p hp := lt_succ_of_lt (h.answers p hp)
  executed := by
    intro p hp u hu
    rcases mem_cons.1 hu with rfl | hu
    · exact (h.answers p hp).ne'
    · exact h.executed p hp u hu
  rows := h.rows
  registry := h.registry
  range := h.range
  broker := h.broker

lemma turn (hn : (t.db.map (·.tunnelId)).Nodup) : Base digest (s.turn t) := by
  have h' : Base digest { s with
      db := t.db
      responses := t.response.toList ++ s.responses
      serving := s.serving || t.started } := { h with rows := hn }
  unfold State.turn
  split
  · exact h'
  · exact h'.wait _

section

variable (hs : Api.step cfg cap digest s i = some s')
include hs

lemma broker_cases : s'.broker = s.broker ∨
    (∃ e, e ≠ .cleanup ∧ brokerStep digest s.broker e = some s'.broker) ∨
    s'.broker = restarted s.broker := by
  cases h.does hs with
  | request | reap | resume => exact .inl turn_broker
  | exec _ _ hx =>
    rcases exec_step hx with he | ⟨op, he⟩
    · exact .inl he
    · exact .inr (.inl ⟨_, by simp, he⟩)
  | broker _ he hb => exact .inr (.inl ⟨_, he, hb⟩)
  | brokerRestart => exact .inr (.inr rfl)
  | tick | idle | drop | apiRestart => exact .inl rfl

lemma cfg_step : s'.broker.cfg = s.broker.cfg := by
  rcases h.broker_cases hs with he | ⟨e, -, hb⟩ | he
  · rw [he]
  · exact (step_moves h.wf hb).inv (I := fun b => b.cfg = s.broker.cfg) h.wf rfl
      fun _ _ _ hm hi => hm.cfg_eq.trans hi
  · rw [he]
    rfl

lemma step : Base digest s' := by
  have hra : s'.broker.cfg.publicPortStart ≤ s'.broker.cfg.publicPortEnd := by
    rw [h.cfg_step hs]
    exact h.range
  have hbr : ∃ tr, Trace (brokerStep digest) BrokerInit tr s'.broker ∧
      ∀ p ∈ tr, p.2 ≠ .cleanup := by
    obtain ⟨tr, ht, hc⟩ := h.broker
    rcases h.broker_cases hs with he | ⟨e, he, hb⟩ | he
    · exact ⟨tr, he ▸ ht, hc⟩
    · exact ⟨_, ht.next hb, forall_mem_cons.2 ⟨he, hc⟩⟩
    · rw [he]
      exact ⟨[], .start ⟨_, h.range, rfl⟩, by simp⟩
  cases h.does hs with
  | tick => exact { h with }
  | request hq => exact turn { h with } (hq.nodup h.rows)
  | idle => exact h
  | reap => exact h.turn h.rows
  | exec hu he =>
    refine ⟨h.tasks, h.sent.del, fun t ht v hv => h.same t ht v (mem_del.1 hv).1, ?_, ?_,
      h.rows, he.nodup h.registry, hra, hbr⟩
    · exact forall_mem_cons.2 ⟨h.sent.lt _ hu, h.answers⟩
    · refine forall_mem_cons.2 ⟨fun v hv => (mem_del.1 hv).2, fun p hp v hv => ?_⟩
      exact h.executed p hp v (mem_del.1 hv).1
  | drop =>
    exact { h with sent := h.sent.del, same := fun t ht v hv => h.same t ht v (mem_del.1 hv).1
                   executed := fun p hp v hv => h.executed p hp v (mem_del.1 hv).1 }
  | resume hu hr hd =>
    refine turn ?_ (hd.nodup h.rows)
    exact { h with tasks := h.tasks.del, same := fun t ht => h.same t (mem_del.1 ht).1 }
  | broker he =>
    refine ⟨h.tasks, h.sent, h.same, h.answers, h.executed, h.rows, ?_, hra, hbr⟩
    unfold IdsNodup
    rw [he]
    exact h.registry
  | brokerRestart =>
    exact ⟨h.tasks, .nil, by simp, h.answers, by simp, h.rows, .nil, hra, hbr⟩
  | apiRestart =>
    refine turn ?_ h.rows
    exact { h with tasks := .nil, same := by simp [withTasks] }

end

omit h in
lemma init (h : Init s) : Base digest s := by
  obtain ⟨hb, he⟩ := h
  have hb' := hb
  obtain ⟨c, hr, hc⟩ := hb
  rw [hc] at he
  subst he
  exact ⟨.nil, .nil, by simp, by simp, by simp, .nil, .nil, hr, [], .start hb', by simp⟩

lemma unanswered (hu : u ∈ s.sent) : s.answers.lookup u.ref = none := by
  rw [lookup_eq_none_iff]
  exact fun p hp => by simpa using h.executed p hp u hu

omit h in
lemma not_sent (hb : Base digest s)
    (ha : s.answers.lookup u.ref = some a) : u ∉ s.sent := fun hu => by
  rw [hb.unanswered hu] at ha
  cases ha

lemma mem_resumed {v : Task} (hu : u ∈ s.tasks) (hv : v ∈ s.tasks) (hne : v ≠ u) :
    v ∈ (s.resumed u).tasks :=
  mem_del.2 ⟨hv, fun hk => hne (eq_of_key h.tasks.nodup hv hu hk)⟩

lemma unused : s.answers.lookup s.nextRef = none := by
  rw [lookup_eq_none_iff]
  exact fun p hp => by simpa using (h.answers p hp).ne'

/-- What has an answer at the end of a turn had it before. -/
lemma old {t : Turn} {ts : List Task} {rate : RateWindow} {up : Bool}
    (hu : u ∈ ((s.withTasks ts rate up).turn t).tasks)
    (hl : ((s.withTasks ts rate up).turn t).answers.lookup u.ref = some a) :
    u ∈ ts ∧ s.answers.lookup u.ref = some a := by
  rw [turn_answers] at hl
  rcases mem_turn_tasks.1 hu with ⟨w, -, rfl⟩ | hu
  · cases h.unused.symm.trans hl
  · exact ⟨hu, hl⟩

end

end Base

lemma lookup_exec {xs : List (Ref × Answer)} {c' : Ref} :
    lookup c ((c', a) :: xs) = if c = c' then some a else xs.lookup c := by
  rw [lookup_cons]
  by_cases h : c = c'
  · simp [h]
  · simp [h, beq_eq_false_iff_ne.2 h]

lemma Base.answer_exec (h : Base digest s) (hu : u ∈ s.sent) {v : Task} (hv : v ∈ s.tasks)
    : (s.executed u b a).answers.lookup v.ref =
      if v = u then some a else s.answers.lookup v.ref := by
  refine lookup_exec.trans ?_
  by_cases he : v = u
  · rw [if_pos he, if_pos (by rw [he])]
  · rw [if_neg he, if_neg fun hk => he (h.same v hv u hu hk)]

lemma Base.answer_kept (h : Base digest s) (hu : u ∈ s.sent) (hx : s.answers.lookup c = some x) :
    (s.executed u b a).answers.lookup c = some x := by
  refine (lookup_exec.trans (if_neg ?_)).trans hx
  rintro rfl
  rw [h.unanswered hu] at hx
  cases hx

end Steps

/-! ## A small deployment -/

def smallSettings : Settings :=
  { leaseSeconds := 10, createRatePerMinute := 5, maxTunnelsPerIp := 2 }

def smallStep : State → Label → Option State := step smallSettings (fun x => x) padDigest

def smallState : State := { broker := smallBroker }

lemma smallState_init : Init smallState := ⟨smallBroker_init, rfl⟩

def asksFor (id : Bytes) : Label := .request (.createTunnel {} [] false id [7])

end TunnelMate.Api
