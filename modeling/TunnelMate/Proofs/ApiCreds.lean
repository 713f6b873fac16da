import TunnelMate.Proofs.ApiOrphans

/-!
# Digests in the table and in the broker

A rotation has the broker draw a secret, waits, and then stores the digest in the row.
-/

namespace TunnelMate.Api

open List Option Table

variable {cfg : Settings} {cap : Bytes → Bytes} {digest : Bytes → Digest} {s s' : State}
  {i : Label} {id : Bytes} {u v : Task} {t : Turn} {cred : Cred} {ts : List Task}
  {rate : RateWindow} {up : Bool}

/-- Every call is executed and answered: none is lost, no coroutine goes on without its answer, and
neither side starts again while it owes or awaits one. -/
def answered (s : State) : Label → Bool
  | .drop _ => false
  | .resume _ o _ => o = .answered
  | .brokerRestart => s.sent.isEmpty
  | .apiRestart => s.tasks.isEmpty
  | _ => true

def apart (s : State) : Label → Bool
  | .request (.rotate cred id _) => s.tasks.all (·.wait ≠ .rotate cred id)
  | _ => true

/-! ## Coroutines and their calls -/

structure Orderly (s : State) : Prop where
  sent : ∀ u ∈ s.sent, u ∈ s.tasks
  alone : ∀ u ∈ s.tasks, u.wait.restoring = true →
    s.serving = false ∧ s.tasks = [u] ∧ ∀ row ∈ u.wait.rows, row ∈ s.db

variable {r : Except BrokerExc Answer} {a : Answer} {secret h : Bytes}

lemma answered_result {o : Outcome} {stored : Bool}
    (ha : answered s (.resume u.ref o stored) = true)
    (hr : o.result (s.answers.lookup u.ref) = some r) : ∃ a, s.answers.lookup u.ref = some a ∧
      (r = .ok a ∨ ∃ msg, a = .reply (.error msg) ∧ r = .error (.error msg)) := by
  obtain rfl : o = .answered := by simpa [answered] using ha
  obtain ⟨a, hl, he⟩ := map_eq_some_iff.1 hr
  refine ⟨a, hl, ?_⟩
  subst he
  split
  · exact .inr ⟨_, rfl, rfl⟩
  · exact .inl rfl

lemma ok_answer {a a' : Answer}
    (hr : r = .ok a ∨ ∃ msg, a = .reply (.error msg) ∧ r = .error (.error msg))
    (he : r = .ok a') : a = a' := by
  rcases hr with hr | ⟨msg, -, hr⟩
  · exact Except.ok.inj (hr.symm.trans he)
  · cases hr.symm.trans he

lemma serving_of_request {q : Request} (hs : step cfg cap digest s (.request q) = some s') :
    s.serving = true := by
  simp only [step, ite_none_right_eq_some] at hs
  exact hs.1

lemma serving_of_reap (hs : step cfg cap digest s .reap = some s') : s.serving = true := by
  simp only [step, ite_none_right_eq_some, Bool.and_eq_true] at hs
  exact hs.1.1

namespace Orderly

lemma no_restoring (h : Orderly s) (hs : s.serving = true) (hu : u ∈ s.tasks) :
    u.wait.restoring = false := by
  by_contra hr
  rw [(h.alone u hu (by simpa using hr)).1] at hs
  cases hs

lemma start (h : Orderly s) (hs : s.serving = true)
    (hw : ∀ w, t.wait = some w → w.restoring = false) :
    Orderly ({ s with rate := rate }.turn t) where
  sent u hu := mem_turn_tasks.2 ((mem_turn_sent.1 hu).imp_right (h.sent u))
  alone := by
    intro u hu hr
    rcases mem_turn_tasks.1 hu with ⟨w, hwt, rfl⟩ | hu
    · rw [hw w hwt] at hr
      cases hr
    · rw [h.no_restoring hs hu] at hr
      cases hr

lemma resume (h : Orderly s) (hb : Base digest s)
    (hu : u ∈ s.tasks) (ha : s.answers.lookup u.ref = some a)
    (hd : Done cfg cap s.now s.db r u.wait t) : Orderly ((s.resumed u).turn t) where
  sent := by
    intro v hv
    rcases mem_turn_sent.1 hv with hv | hv
    · exact mem_turn_tasks.2 (.inl hv)
    · refine mem_turn_tasks.2 (.inr (mem_del.2 ⟨h.sent v hv, fun hk => ?_⟩))
      exact hb.not_sent ha (hb.same u hu v hv hk.symm ▸ hv)
  alone := by
    intro v hv hr
    rcases mem_turn_tasks.1 hv with ⟨w, hwt, rfl⟩ | hv
    · obtain ⟨hur, hdb, hst, hrows⟩ := hd.restoring hwt hr
      obtain ⟨hs, hone, hin⟩ := h.alone u hu hur
      refine ⟨?_, ?_, fun row hrow => ?_⟩
      · simp [hst, State.resumed, hs]
      · simp [State.turn, hwt, State.wait, State.resumed, hone, del, Keyed.key]
      · rw [turn_db, hdb]
        exact hin row (hrows row hrow)
    · obtain ⟨hm, hk⟩ := mem_del.1 hv
      obtain ⟨-, hone, -⟩ := h.alone v hm hr
      rw [hone, mem_singleton] at hu
      exact absurd (by rw [hu]; rfl) hk

lemma step (h : Orderly s) (hb : Base digest s) (ha : answered s i = true)
    (hs : Api.step cfg cap digest s i = some s') : Orderly s' := by
  cases hb.does hs with
  | tick | broker _ => exact ⟨h.sent, h.alone⟩
  | request hq =>
    exact h.start (serving_of_request hs) fun w hw => hq.not_restoring hw
  | idle => exact h
  | reap =>
    refine h.start (serving_of_reap hs) fun w hw => ?_
    cases hw
    rfl
  | exec => exact ⟨fun v hv => h.sent v (mem_del.1 hv).1, h.alone⟩
  | drop => cases ha
  | resume hu hr hd =>
    obtain ⟨a, hl, -⟩ := answered_result ha hr
    exact h.resume hb hu hl hd
  | brokerRestart => exact ⟨by simp, h.alone⟩
  | apiRestart =>
    have ht : s.tasks = [] := by simpa [answered] using ha
    refine ⟨fun u hu => ?_, fun u hu _ => ?_⟩
    · refine mem_turn_tasks.2 ((mem_turn_sent.1 hu).imp_right fun hu => ?_)
      exact absurd (h.sent u hu) (by simp [ht])
    · obtain rfl := mem_singleton.1 hu
      refine ⟨rfl, rfl, fun row hrow => ?_⟩
      exact mem_restorable hrow

end Orderly

/-! ## Digests that are still to be stored -/

def Row.hmac (row : Row) : Cred → Bytes
  | .agentSecret => row.agentSecretHmac
  | .sharedToken => row.sharedTokenHmac

def hmac (x : Record) : Cred → Bytes
  | .agentSecret => x.agentSecretHmac
  | .sharedToken => x.sharedTokenHmac

lemma Row.hmac_setHmac (row : Row) (c : Cred) (h : Bytes) :
    (row.setHmac cred h).hmac c = if c = cred then h else row.hmac c := by
  cases cred <;> cases c <;> rfl

lemma hmac_setHmac (x : Record) (c : Cred) (h : Bytes) :
    hmac (setHmac cred h x) c = if c = cred then h else hmac x c := by
  cases cred <;> cases c <;> rfl

def Owes (s : State) (W : Wait → Prop) (A : Answer → Prop) : Prop :=
  ∃ u ∈ s.tasks, W u.wait ∧ ∃ a, s.answers.lookup u.ref = some a ∧ A a

def Rotated (s : State) (cred : Cred) (id h : Bytes) : Prop :=
  Owes s (· = .rotate cred id) fun a => ∃ secret, a = .reply (.rotated secret h)

def Created (s : State) (id agent token : Bytes) : Prop :=
  Owes s (fun w => ∃ body ip secret, w = .create body ip id secret)
    fun a => ∃ j p x tok, a = .reply (.created j p x agent tok token)

section Effects

variable {b : Broker} {rs : List Record}

lemma Effect.hmacs {k : BrokerCall} (h : Effect b k rs a) {y : Record} (hy : y ∈ rs) :
    (∃ x ∈ b.records, y.id = x.id ∧ (∀ cred, hmac y cred = hmac x cred) ∧
      ∀ cred secret h, k = .rotate cred x.id → a ≠ .reply (.rotated secret h)) ∨
    (∃ r secret token, k = .createTunnel r ∧ NewRecord b r y ∧
      a = .reply (.created y.id y.port secret y.agentSecretHmac token y.sharedTokenHmac)) ∨
    ∃ cred secret h, k = .rotate cred y.id ∧ a = .reply (.rotated secret h) ∧
      ∃ x ∈ b.records, y = setHmac cred h x := by
  cases h with
  | created hx =>
    rcases mem_cons.1 hy with rfl | hy
    · exact .inr (.inl ⟨_, _, _, rfl, hx, rfl⟩)
    · exact .inl ⟨y, hy, rfl, fun _ => rfl, by simp⟩
  | deleted => exact .inl ⟨y, (mem_filter.1 hy).1, rfl, fun _ => rfl, by simp⟩
  | switched =>
    obtain ⟨x, hx, rfl⟩ := mem_map.1 hy
    refine .inl ⟨x, hx, ?_, fun cred => ?_, by simp⟩
    · split_ifs <;> rfl
    · split_ifs
      · cases cred <;> rfl
      · rfl
  | rotated =>
    obtain ⟨x, hx, rfl⟩ := mem_map.1 hy
    split_ifs with hi
    · refine .inr (.inr ⟨_, _, _, ?_, rfl, x, hx, rfl⟩)
      rw [setHmac_id, hi]
    · refine .inl ⟨x, hx, rfl, fun _ => rfl, fun cred secret h hk => ?_⟩
      exact absurd (BrokerCall.rotate.inj hk).2.symm hi
  | _ =>
    exact .inl ⟨y, hy, rfl, fun _ => rfl, by simp⟩

lemma Effect.rotated_inv (he : Effect b (.rotate cred id) rs (.reply (.rotated secret h))) :
    h.length = 64 ∧ rs = updRecord id (setHmac cred h) b.records := by
  cases he with
  | rotated hl => exact ⟨hl, rfl⟩

end Effects

namespace Owes

variable {W : Wait → Prop} {A : Answer → Prop} {a : Answer}

lemma turn (hb : Base digest s) :
    Owes ((s.withTasks ts rate up).turn t) W A ↔ Owes (s.withTasks ts rate up) W A := by
  constructor
  · rintro ⟨u, hu, hw, a, hl, hA⟩
    obtain ⟨hu, hl⟩ := hb.old hu hl
    exact ⟨u, hu, hw, a, hl, hA⟩
  · rintro ⟨u, hu, hw, a, hl, hA⟩
    exact ⟨u, mem_turn_tasks.2 (.inr hu), hw, a, by rw [turn_answers]; exact hl, hA⟩

lemma exec {b : Broker} (hb : Base digest s) (hu : u ∈ s.sent) :
    Owes (s.executed u b a) W A ↔ u ∈ s.tasks ∧ W u.wait ∧ A a ∨ Owes s W A := by
  constructor
  · rintro ⟨v, hv, hw, a', hl, hA⟩
    rw [hb.answer_exec hu hv] at hl
    split_ifs at hl with hvu
    · cases hl
      exact .inl ⟨hvu ▸ hv, hvu ▸ hw, hA⟩
    · exact .inr ⟨v, hv, hw, a', hl, hA⟩
  · rintro (⟨hm, hw, hA⟩ | ⟨v, hv, hw, a', hl, hA⟩)
    · exact ⟨u, hm, hw, a, by rw [hb.answer_exec hu hm, if_pos rfl], hA⟩
    · refine ⟨v, hv, hw, a', ?_, hA⟩
      rw [hb.answer_exec hu hv, if_neg fun hvu => ?_]
      · exact hl
      · exact hb.not_sent hl (hvu ▸ hu)

lemma resume (hb : Base digest s) (hu : u ∈ s.tasks) (ha : s.answers.lookup u.ref = some a) :
    Owes s W A ↔ W u.wait ∧ A a ∨ Owes ((s.resumed u).turn t) W A := by
  have hturn : Owes ((s.resumed u).turn t) W A ↔ Owes (s.resumed u) W A := turn hb
  rw [hturn]
  constructor
  · rintro ⟨v, hv, hw, a', hl, hA⟩
    by_cases hvu : v.ref = u.ref
    · obtain rfl := eq_of_key hb.tasks.nodup hv hu hvu
      rw [ha] at hl
      cases hl
      exact .inl ⟨hw, hA⟩
    · exact .inr ⟨v, mem_del.2 ⟨hv, hvu⟩, hw, a', hl, hA⟩
  · rintro (⟨hw, hA⟩ | ⟨v, hv, hw, a', hl, hA⟩)
    · exact ⟨u, hu, hw, a, ha, hA⟩
    · exact ⟨v, (mem_del.1 hv).1, hw, a', hl, hA⟩

end Owes

/-! ## The form of the digests -/

structure Formed (s : State) : Prop where
  rows : ∀ row ∈ s.db, Digests row.closed row.agentSecretHmac row.sharedTokenHmac
  created : ∀ u ∈ s.tasks, ∀ body ip id secret, u.wait = .create body ip id secret →
    ∀ j p a ah tok th, s.answers.lookup u.ref = some (.reply (.created j p a ah tok th)) →
      Digests body.closed ah th
  rotated : ∀ cred id h, Rotated s cred id h → h.length = 64

lemma Digests.setHmac {row : Row} {h : Bytes} (cred : Cred) (hl : h.length = 64)
    (hd : Digests row.closed row.agentSecretHmac row.sharedTokenHmac) :
    Digests (row.setHmac cred h).closed (row.setHmac cred h).agentSecretHmac
      (row.setHmac cred h).sharedTokenHmac := by
  cases cred with
  | agentSecret => exact ⟨hl, hd.2⟩
  | sharedToken => exact ⟨hd.1, .inl hl⟩

namespace Formed

lemma rows_update {db : List Row} {f : Row → Row}
    (h : ∀ row ∈ db, Digests row.closed row.agentSecretHmac row.sharedTokenHmac)
    (hf : ∀ row, Digests row.closed row.agentSecretHmac row.sharedTokenHmac →
      Digests (f row).closed (f row).agentSecretHmac (f row).sharedTokenHmac) :
    ∀ row ∈ updateRow id f db, Digests row.closed row.agentSecretHmac row.sharedTokenHmac := by
  intro row' hrow'
  obtain ⟨row, hrow, rfl⟩ := mem_map.1 hrow'
  split_ifs
  · exact hf row (h row hrow)
  · exact h row hrow

lemma turn (h : Formed s) (hb : Base digest s) (ht : ts ⊆ s.tasks)
    (hrows : ∀ row ∈ t.db, Digests row.closed row.agentSecretHmac row.sharedTokenHmac) :
    Formed ((s.withTasks ts rate up).turn t) where
  rows := by
    rw [turn_db]
    exact hrows
  created := by
    intro u hu body ip id secret hw j p a ah tok th hl
    obtain ⟨hu, hl⟩ := hb.old hu hl
    exact h.created u (ht hu) body ip id secret hw j p a ah tok th hl
  rotated := by
    intro cred id x hx
    obtain ⟨u, hu, hw, a, hl, hA⟩ := (Owes.turn hb).1 hx
    exact h.rotated cred id x ⟨u, ht hu, hw, a, hl, hA⟩

lemma resume (h : Formed s) (hb : Base digest s)
    (hu : u ∈ s.tasks) (ha : s.answers.lookup u.ref = some a)
    (hr : r = .ok a ∨ ∃ msg, a = .reply (.error msg) ∧ r = .error (.error msg))
    (hd : Done cfg cap s.now s.db r u.wait t) : Formed ((s.resumed u).turn t) := by
  refine h.turn hb (fun _ hv => (mem_del.1 hv).1) ?_
  generalize hw : u.wait = w at hd
  cases hd with
  | created _ he _ =>
    obtain rfl := ok_answer hr he
    have hnew := h.created u hu _ _ _ _ hw _ _ _ _ _ _ ha
    intro row hrow
    rcases mem_append.1 hrow with hrow | hrow
    · exact h.rows row hrow
    · rw [mem_singleton.1 hrow]
      exact hnew
  | updated _ _ | deleted _ _ | reaped | reapedNext => exact rows_update h.rows fun _ hd => hd
  | rotated _ he =>
    obtain rfl := ok_answer hr he
    exact rows_update h.rows fun _ hd => hd.setHmac _ (h.rotated _ _ _ ⟨u, hu, hw, _, ha, _, rfl⟩)
  | _ => exact h.rows

lemma exec {b : Broker} (h : Formed s) (hb : Base digest s) (hu : u ∈ s.sent)
    (he : Effect s.broker u.wait.call b.records a) : Formed (s.executed u b a) where
  rows := h.rows
  created := by
    intro v hv body ip id secret hw j p x ah tok th hl
    rw [hb.answer_exec hu hv] at hl
    split_ifs at hl with hvu
    · cases hl
      rw [← hvu, hw] at he
      obtain ⟨y, hy, -, rfl, rfl, -⟩ := he.created_inv
      exact hy.digests
    · exact h.created v hv body ip id secret hw j p x ah tok th hl
  rotated := by
    intro cred id x hx
    rcases (Owes.exec hb hu).1 hx with ⟨-, hw, secret, rfl⟩ | hx
    · rw [hw] at he
      exact he.rotated_inv.1
    · exact h.rotated cred id x hx

lemma step (h : Formed s) (hb : Base digest s) (ha : answered s i = true)
    (hs : Api.step cfg cap digest s i = some s') : Formed s' := by
  cases hb.does hs with
  | tick | broker | brokerRestart => exact { h with }
  | request hq =>
    refine h.turn hb (.refl _) ?_
    cases hq with
    | refused _ | begins _ => exact h.rows
    | renewed => exact rows_update h.rows fun _ hd => hd
  | idle => exact h
  | reap => exact h.turn hb (.refl _) h.rows
  | exec hu he => exact h.exec hb hu he
  | drop => cases ha
  | resume hu hr hd =>
    obtain ⟨a, hl, hr⟩ := answered_result ha hr
    exact h.resume hb hu hl hr hd
  | apiRestart => exact h.turn hb (nil_subset _) h.rows

end Formed

/-! ## Rotations -/

structure Rotations (s : State) : Prop where
  once : ∀ u ∈ s.tasks, ∀ v ∈ s.tasks, ∀ cred id, u.wait = .rotate cred id →
    v.wait = .rotate cred id → u = v
  named : ∀ u ∈ s.tasks, ∀ cred id, u.wait = .rotate cred id → Named id s.db

namespace Rotations

lemma turn (h : Rotations s) (ht : ts ⊆ s.tasks) (hnamed : ∀ id, Named id s.db → Named id t.db)
    (hw : ∀ cred id, t.wait = some (.rotate cred id) → Named id t.db ∧
      ∀ u ∈ s.tasks, u.wait ≠ .rotate cred id) : Rotations ((s.withTasks ts rate up).turn t) where
  once := by
    intro u hu v hv cred id hwu hwv
    rcases mem_turn_tasks.1 hu with ⟨w, hwt, rfl⟩ | hu <;>
      rcases mem_turn_tasks.1 hv with ⟨w', hwt', rfl⟩ | hv
    · rw [hwt] at hwt'
      rw [some.inj hwt']
    · obtain rfl := hwu
      exact absurd hwv ((hw cred id hwt).2 v (ht hv))
    · obtain rfl := hwv
      exact absurd hwu ((hw cred id hwt').2 u (ht hu))
    · exact h.once u (ht hu) v (ht hv) cred id hwu hwv
  named := by
    intro u hu cred id hwu
    rw [turn_db]
    rcases mem_turn_tasks.1 hu with ⟨w, hwt, rfl⟩ | hu
    · obtain rfl := hwu
      exact (hw cred id hwt).1
    · exact hnamed id (h.named u (ht hu) cred id hwu)

lemma step (h : Rotations s) (hb : Base digest s) (hok : apart s i = true)
    (hs : Api.step cfg cap digest s i = some s') : Rotations s' := by
  cases hb.does hs with
  | request hq =>
    refine h.turn (.refl _) (fun id hn => ?_) fun cred id hw => ?_
    · rw [named_iff] at hn ⊢
      rw [hq.map fun _ _ => rfl]
      exact hn
    · cases hq with
      | refused _ | renewed _ => cases hw
      | begins hbeg =>
        cases hw
        cases hbeg with
        | rotate hr =>
          exact ⟨Present.named ⟨_, present_of_owner hr⟩, fun u hu => by
            simpa using all_eq_true.1 hok u hu⟩
  | reap => exact h.turn (.refl _) (fun _ hn => hn) (by simp)
  | @resume u _ _ _ _ hu hr hd =>
    refine h.turn (fun _ hv => (mem_del.1 hv).1) (fun _ hn => hd.named hn) fun cred id hw => ?_
    generalize u.wait = w at hd
    cases hd <;> cases hw
  | apiRestart => exact h.turn (nil_subset _) (fun _ hn => hn) (by simp)
  | _ => exact ⟨h.once, h.named⟩

end Rotations

/-! ## The two stores -/

inductive Agrees (s : State) (x : Record) : Prop
  /-- The tunnel is going to be deleted. -/
  | undo : (∃ u ∈ s.sent, u.wait = .undo x.id) → Agrees s x
  /-- Its creation is going to find the id taken. -/
  | taken {agent token : Bytes} : Named x.id s.db → Created s x.id agent token → Agrees s x
  /-- Its creation is going to store the row. -/
  | created : ¬ Named x.id s.db → Created s x.id x.agentSecretHmac x.sharedTokenHmac → Agrees s x
  /-- The row has the digests, or a rotation is going to store them. -/
  | row : Named x.id s.db → (∀ cred h, Rotated s cred x.id h → h = hmac x cred) →
      (∀ row ∈ s.db, row.tunnelId = x.id → ∀ cred,
        row.hmac cred = hmac x cred ∨ Rotated s cred x.id (hmac x cred)) → Agrees s x

def Row.creds (row : Row) : Bytes × Bytes × Bytes :=
  (row.tunnelId, row.agentSecretHmac, row.sharedTokenHmac)

lemma Row.creds_hmac {row row' : Row} (h : row.creds = row'.creds) (cred : Cred) :
    row.hmac cred = row'.hmac cred := by
  simp only [Row.creds, Prod.mk.injEq] at h
  cases cred
  · exact h.2.1
  · exact h.2.2

namespace Agrees

variable {x y : Record}

lemma keep (h : Agrees s x) (hid : y.id = x.id) (hh : ∀ cred, hmac y cred = hmac x cred)
    (hdb : s'.db.map Row.creds = s.db.map Row.creds)
    (hundo : ∀ u ∈ s.sent, u.wait = .undo x.id → u ∈ s'.sent)
    (hc : ∀ agent token, Created s x.id agent token → Created s' x.id agent token)
    (hr : ∀ cred h, Rotated s' cred x.id h ↔ Rotated s cred x.id h) : Agrees s' y := by
  have hn : Named x.id s'.db ↔ Named x.id s.db := by
    have := congrArg (map Prod.fst) hdb
    rw [List.map_map, List.map_map] at this
    rw [named_iff, named_iff]
    exact .of_eq (congrArg (x.id ∈ ·) this)
  cases h with
  | undo hu =>
    obtain ⟨u, hu, hw⟩ := hu
    exact .undo ⟨u, hundo u hu hw, by rw [hid]; exact hw⟩
  | taken hnx hcx => exact .taken (by rw [hid]; exact hn.2 hnx) (by rw [hid]; exact hc _ _ hcx)
  | created hnx hcx =>
    refine .created (by rw [hid, hn]; exact hnx) ?_
    have h1 := hh .agentSecret
    have h2 := hh .sharedToken
    simp only [hmac] at h1 h2
    rw [hid, h1, h2]
    exact hc _ _ hcx
  | row hnx hrx hrows =>
    refine .row (by rw [hid]; exact hn.2 hnx) (fun cred h hR => ?_) fun row' hrow' hi cred => ?_
    · rw [hid, hr] at hR
      rw [hh]
      exact hrx cred h hR
    · have hm : row'.creds ∈ s.db.map Row.creds := by
        rw [← hdb]
        exact mem_map_of_mem hrow'
      obtain ⟨row, hrow, he⟩ := mem_map.1 hm
      have hi' : row.tunnelId = x.id := by
        rw [← hid, ← hi]
        exact congrArg Prod.fst he
      rw [hid, hh, hr, ← Row.creds_hmac he]
      exact hrows row hrow hi' cred

lemma start (h : Agrees s x) (hb : Base digest s)
    (hdb : t.db.map Row.creds = s.db.map Row.creds) :
    Agrees ({ s with rate := rate }.turn t) x := by
  have howes : ∀ W A, Owes ({ s with rate := rate }.turn t) W A ↔ Owes s W A := fun W A =>
    Owes.turn hb
  refine h.keep rfl (fun _ => rfl) (by rw [turn_db]; exact hdb)
    (fun u hu _ => mem_turn_sent.2 (.inr hu)) (fun agent token => (howes _ _).2) fun cred h =>
      howes _ _

section Resume

variable {a : Answer} {r : Except BrokerExc Answer}

lemma finish (h : Agrees s x) (hb : Base digest s) (hu : u ∈ s.tasks)
    (ha : s.answers.lookup u.ref = some a) (hdb : t.db.map Row.creds = s.db.map Row.creds)
    (hr : ∀ cred, u.wait ≠ .rotate cred x.id ∨ ∀ secret h, a ≠ .reply (.rotated secret h))
    (hc : (∀ body ip secret, u.wait ≠ .create body ip x.id secret) ∨
      ∀ j p k agent tok token, a ≠ .reply (.created j p k agent tok token)) :
    Agrees ((s.resumed u).turn t) x := by
  refine h.keep rfl (fun _ => rfl) (by rw [turn_db]; exact hdb)
    (fun v hv _ => mem_turn_sent.2 (.inr hv)) (fun agent token hC => ?_) fun cred h => ?_
  · refine ((Owes.resume hb hu ha).1 hC).resolve_left ?_
    rintro ⟨⟨body, ip, secret, hw⟩, j, p, k, tok, rfl⟩
    rcases hc with hc | hc
    · exact hc body ip secret hw
    · exact hc _ _ _ _ _ _ rfl
  · refine ⟨fun hR => (Owes.resume hb hu ha).2 (.inr hR), fun hR => ?_⟩
    refine ((Owes.resume hb hu ha).1 hR).resolve_left ?_
    rintro ⟨hw, secret, rfl⟩
    rcases hr cred with hr | hr
    · exact hr hw
    · exact hr _ _ rfl

lemma stored {j k tok ah th ip secret : Bytes} {p : ℕ} {body : TunnelCreate} {row : Row}
    (h : Agrees s x) (hb : Base digest s) (hro : Rotations s) (hu : u ∈ s.tasks)
    (hw : u.wait = .create body ip id secret)
    (ha : s.answers.lookup u.ref = some (.reply (.created j p k ah tok th)))
    (hf : ∀ row ∈ s.db, row.tunnelId ≠ id) (ht : t.db = s.db ++ [row])
    (hrow : row.creds = (id, ah, th)) : Agrees ((s.resumed u).turn t) x := by
  simp only [Row.creds, Prod.mk.injEq] at hrow
  obtain ⟨hri, hra, hrt⟩ := hrow
  have hin : ∀ {row'}, row' ∈ ((s.resumed u).turn t).db → row' ∈ s.db ∨ row' = row := by
    intro row' hrow'
    rw [turn_db, ht, mem_append, mem_singleton] at hrow'
    exact hrow'
  have hmono : ∀ {id'}, Named id' s.db → Named id' ((s.resumed u).turn t).db := by
    rintro id' ⟨row', hrow', hi⟩
    exact ⟨row', by rw [turn_db, ht]; exact mem_append_left _ hrow', hi⟩
  have hnew : Named id ((s.resumed u).turn t).db := ⟨row, by rw [turn_db, ht]; simp, hri⟩
  have hrot : ∀ cred id' h, Rotated s cred id' h → Rotated ((s.resumed u).turn t) cred id' h := by
    intro cred id' h hR
    refine ((Owes.resume hb hu ha).1 hR).resolve_left fun hc => ?_
    rw [hw] at hc
    cases hc.1
  cases h with
  | undo hs =>
    obtain ⟨v, hv, hwv⟩ := hs
    exact .undo ⟨v, mem_turn_sent.2 (.inr hv), hwv⟩
  | taken hn hC =>
    refine .taken (hmono hn) (((Owes.resume hb hu ha).1 hC).resolve_left fun hc => ?_)
    obtain ⟨⟨_, _, _, hw'⟩, -⟩ := hc
    obtain ⟨row', hrow', hi⟩ := hn
    rw [hw] at hw'
    exact hf row' hrow' (hi.trans (Wait.create.inj hw').2.2.1.symm)
  | created hn hC =>
    rcases (Owes.resume hb hu ha).1 hC with ⟨⟨_, _, _, hw'⟩, _, _, _, _, he⟩ | hC
    · -- its own creation: nobody can have rotated a tunnel without a row
      rw [hw] at hw'
      obtain ⟨-, -, rfl, -⟩ := Wait.create.inj hw'
      obtain ⟨-, -, -, hah, -, hth⟩ := IpcReply.created.inj (Answer.reply.inj he)
      refine .row hnew (fun cred h hR => ?_) fun row' hrow' hi cred => .inl ?_
      · obtain ⟨v, hv, hwv, -⟩ := (Owes.resume hb hu ha).2 (.inr hR)
        exact absurd (hro.named v hv _ _ hwv) hn
      · rcases hin hrow' with hrow' | rfl
        · exact absurd hi (hf row' hrow')
        · cases cred
          · exact hra.trans hah
          · exact hrt.trans hth
    · by_cases hi : x.id = id
      · exact .taken (hi ▸ hnew) hC
      · refine .created (fun hn' => ?_) hC
        obtain ⟨row', hrow', hi'⟩ := hn'
        rcases hin hrow' with hrow' | rfl
        · exact hn ⟨row', hrow', hi'⟩
        · exact hi (hi'.symm.trans hri)
  | row hn hR hrows =>
    refine .row (hmono hn) (fun cred h hR' => hR cred h ((Owes.resume hb hu ha).2 (.inr hR'))) ?_
    intro row' hrow' hi cred
    rcases hin hrow' with hrow' | rfl
    · exact (hrows row' hrow' hi cred).imp_right (hrot _ _ _)
    · obtain ⟨row', hrow', hi'⟩ := hn
      exact absurd (hi'.trans (hi.symm.trans hri)) (hf row' hrow')

lemma rotated (hx : Agrees s x) (hb : Base digest s) (hu : u ∈ s.tasks)
    (hw : u.wait = .rotate cred id)
    (ha : s.answers.lookup u.ref = some (.reply (.rotated secret h)))
    (ht : t.db = updateRow id (Row.setHmac cred h) s.db) : Agrees ((s.resumed u).turn t) x := by
  have hn : ∀ id', Named id' ((s.resumed u).turn t).db ↔ Named id' s.db := by
    intro id'
    rw [turn_db, ht, named_iff, named_iff, map_updateRow fun row => row.setHmac_tunnelId _ _]
  have hC : ∀ {agent token}, Created s x.id agent token →
      Created ((s.resumed u).turn t) x.id agent token := by
    intro agent token hC
    refine ((Owes.resume hb hu ha).1 hC).resolve_left ?_
    rintro ⟨⟨_, _, _, hw'⟩, -⟩
    rw [hw] at hw'
    cases hw'
  cases hx with
  | undo hs =>
    obtain ⟨v, hv, hwv⟩ := hs
    exact .undo ⟨v, mem_turn_sent.2 (.inr hv), hwv⟩
  | taken hnx hCx => exact .taken ((hn _).2 hnx) (hC hCx)
  | created hnx hCx => exact .created (fun hn' => hnx ((hn _).1 hn')) (hC hCx)
  | row hnx hR hrows =>
    refine .row ((hn _).2 hnx) (fun c h hR' => hR c h ((Owes.resume hb hu ha).2 (.inr hR'))) ?_
    intro row' hrow' hi c
    rw [turn_db, ht] at hrow'
    obtain ⟨row, hrow, rfl⟩ := mem_map.1 hrow'
    -- a digest that is stored only now is the tunnel's, and the others wait for other coroutines
    have hother : ¬ (c = cred ∧ x.id = id) → row.tunnelId = x.id → row.hmac c = hmac x c ∨
        Rotated ((s.resumed u).turn t) c x.id (hmac x c) := by
      intro hne hi
      refine (hrows row hrow hi c).imp_right fun hR' => ?_
      refine ((Owes.resume hb hu ha).1 hR').resolve_left ?_
      rintro ⟨hw', -⟩
      rw [hw] at hw'
      obtain ⟨rfl, rfl⟩ := Wait.rotate.inj hw'
      exact hne ⟨rfl, rfl⟩
    by_cases hri : row.tunnelId = id
    · rw [if_pos hri, row.setHmac_tunnelId] at hi
      rw [if_pos hri, Row.hmac_setHmac]
      split_ifs with hc
      · subst hc
        refine .inl (hR c h ⟨u, hu, ?_, _, ha, secret, rfl⟩)
        rw [hw, ← hi, hri]
      · exact hother (fun hne => hc hne.1) hi
    · rw [if_neg hri] at hi ⊢
      exact hother (fun hne => hri (hi.trans hne.2)) hi

lemma resume (h : Agrees s x) (hb : Base digest s) (hro : Rotations s) (hu : u ∈ s.tasks)
    (ha : s.answers.lookup u.ref = some a)
    (hr : r = .ok a ∨ ∃ msg, a = .reply (.error msg) ∧ r = .error (.error msg))
    (hd : Done cfg cap s.now s.db r u.wait t) : Agrees ((s.resumed u).turn t) x := by
  generalize hw : u.wait = w at hd
  cases hd with
  | notCreated _ hne =>
    refine h.finish hb hu ha rfl (fun _ => .inl (by simp [hw])) (.inr ?_)
    rintro j p k agent tok token rfl
    rcases hr with hr | ⟨msg, he, -⟩
    · exact hne _ _ _ _ _ _ hr
    · cases he
  | created _ he hf =>
    obtain rfl := ok_answer hr he
    exact h.stored hb hro hu hw ha hf rfl rfl
  | @notStored _ _ id =>
    by_cases hi : x.id = id
    · exact .undo ⟨_, mem_turn_sent.2 (.inl ⟨_, rfl, rfl⟩), by rw [hi]⟩
    · exact h.finish hb hu ha rfl (fun _ => .inl (by simp [hw]))
        (.inl fun _ _ _ => by simp [hw, Ne.symm hi])
  | updated _ _ | deleted _ _ | reaped | reapedNext =>
    exact h.finish hb hu ha (map_updateRow fun _ => rfl) (fun _ => .inl (by simp [hw]))
      (.inl (by simp [hw]))
  | notRotated _ hne =>
    refine h.finish hb hu ha rfl (fun _ => .inr ?_) (.inl (by simp [hw]))
    rintro secret h rfl
    rcases hr with hr | ⟨msg, he, -⟩
    · exact hne _ _ hr
    · cases he
  | rotated _ he =>
    obtain rfl := ok_answer hr he
    exact h.rotated hb hu hw ha rfl
  | restored hre | restores hre _ =>
    refine h.finish hb hu ha rfl (fun _ => .inl ?_) (.inl fun _ _ _ => ?_)
    · rintro hw'
      rw [← hw, hw'] at hre
      cases hre
    · rintro hw'
      rw [← hw, hw'] at hre
      cases hre
  | _ =>
    exact h.finish hb hu ha rfl (fun _ => .inl (by simp [hw])) (.inl (by simp [hw]))

end Resume

section Exec

variable {a : Answer} {b : Broker}

lemma exec_other (h : Agrees s x) (hb : Base digest s) (hu : u ∈ s.sent) (hid : y.id = x.id)
    (hh : ∀ cred, hmac y cred = hmac x cred) (hundo : u.wait ≠ .undo x.id)
    (hr : ∀ cred secret h, u.wait = .rotate cred x.id → a ≠ .reply (.rotated secret h)) :
    Agrees (s.executed u b a) y := by
  refine h.keep hid hh rfl (fun v hv hwv => mem_del.2 ⟨hv, fun hk => ?_⟩)
    (fun agent token hC => (Owes.exec hb hu).2 (.inr hC)) fun cred h => ?_
  · obtain rfl := eq_of_key hb.sent.nodup hv hu hk
    exact hundo hwv
  · refine ⟨fun hR => ((Owes.exec hb hu).1 hR).resolve_left ?_, fun hR =>
      (Owes.exec hb hu).2 (.inr hR)⟩
    rintro ⟨-, hw, secret, rfl⟩
    exact hr cred secret h hw rfl

lemma exec_new {req : CreateReq} {secret token : Bytes} (hb : Base digest s) (ho : Orderly s)
    (hfo : Formed s) (hu : u ∈ s.sent) (hk : u.wait.call = .createTunnel req)
    (hx : NewRecord s.broker req y)
    (ha : a = .reply (.created y.id y.port secret y.agentSecretHmac token y.sharedTokenHmac)) :
    Agrees (s.executed u b a) y := by
  have hut := ho.sent u hu
  rcases call_create hk with ⟨body, ip, id, secret', hw, rfl⟩ | ⟨row, rest, hw, rfl⟩
  · have hC : Created (s.executed u b a) y.id y.agentSecretHmac y.sharedTokenHmac := by
      refine (Owes.exec hb hu).2 (.inl ⟨hut, ⟨body, ip, secret', ?_⟩, _, _, _, _, ha⟩)
      rw [hw, hx.id]
      rfl
    by_cases hn : Named y.id s.db
    · exact .taken hn hC
    · exact .created hn hC
  · obtain ⟨-, hone, hrows⟩ := ho.alone u hut (by rw [hw]; rfl)
    have hrow : row ∈ s.db := hrows row (by rw [hw]; exact mem_cons_self)
    obtain ⟨hya, hyt⟩ := hx.given _ _ rfl rfl (hfo.rows row hrow)
    refine .row ⟨row, hrow, hx.id.symm⟩ (fun cred h hR => ?_) fun row' hrow' hi cred => .inl ?_
    · -- nothing is rotated meanwhile
      obtain ⟨v, hv, hwv, -⟩ := hR
      have hv : v ∈ s.tasks := hv
      rw [hone, mem_singleton] at hv
      rw [hv, hw] at hwv
      cases hwv
    · obtain rfl := inj_on_of_nodup_map hb.rows hrow' hrow (hi.trans hx.id)
      cases cred
      · exact hya.symm
      · exact hyt.symm

lemma exec_rotate (hx : Agrees s x) (hb : Base digest s) (ho : Orderly s)
    (hro : Rotations s) (hu : u ∈ s.sent) (hw : u.wait = .rotate cred x.id)
    (ha : a = .reply (.rotated secret h)) : Agrees (s.executed u b a) (setHmac cred h x) := by
  have hut := ho.sent u hu
  have hid : (setHmac cred h x).id = x.id := setHmac_id _ _ _
  cases hx with
  | undo hs =>
    obtain ⟨v, hv, hwv⟩ := hs
    refine .undo ⟨v, mem_del.2 ⟨hv, fun hk => ?_⟩, by rw [hid]; exact hwv⟩
    obtain rfl := eq_of_key hb.sent.nodup hv hu hk
    rw [hw] at hwv
    cases hwv
  | taken hn hC =>
    exact .taken (by rw [hid]; exact hn) (by rw [hid]; exact (Owes.exec hb hu).2 (.inr hC))
  | created hn => exact absurd (hro.named u hut _ _ hw) hn
  | row hn hR hrows =>
    refine .row (by rw [hid]; exact hn) (fun c h' hR' => ?_) fun row hrow hi c => ?_
    · rw [hid] at hR'
      rw [hmac_setHmac]
      rcases (Owes.exec hb hu).1 hR' with ⟨-, hw', secret', ha'⟩ | hR'
      · rw [hw] at hw'
        obtain ⟨rfl, -⟩ := Wait.rotate.inj hw'
        rw [ha] at ha'
        rw [if_pos rfl]
        exact (IpcReply.rotated.inj (Answer.reply.inj ha')).2.symm
      · split_ifs with hc
        · -- no other coroutine rotates the credential
          subst hc
          obtain ⟨v, hv, hwv, a', hl, -⟩ := hR'
          obtain rfl := hro.once v hv u hut _ _ hwv hw
          exact absurd hu (hb.not_sent hl)
        · exact hR c h' hR'
    · rw [hid] at hi ⊢
      rw [hmac_setHmac]
      split_ifs with hc
      · subst hc
        exact .inr ((Owes.exec hb hu).2 (.inl ⟨hut, hw, secret, ha⟩))
      · exact (hrows row hrow hi c).imp_right fun hR' => (Owes.exec hb hu).2 (.inr hR')

end Exec

end Agrees

structure CredInv (s : State) : Prop where
  orderly : Orderly s
  formed : Formed s
  rotations : Rotations s
  agrees : ∀ x ∈ s.broker.records, Agrees s x

namespace CredInv

lemma exec {b : Broker} (h : CredInv s) (hb : Base digest s) (hu : u ∈ s.sent)
    (he : Effect s.broker u.wait.call b.records a) :
    ∀ y ∈ b.records, Agrees (s.executed u b a) y := by
  intro y hy
  rcases he.hmacs hy with ⟨x, hx, hid, hh, hr⟩ | ⟨req, secret, token, hk, hnew, ha⟩ |
    ⟨cred, secret, h', hk, ha, x, hx, rfl⟩
  · have hundo : u.wait ≠ .undo x.id := fun hw => he.deletes (by rw [hw]; rfl) y hy hid
    refine (h.agrees x hx).exec_other hb hu hid hh hundo fun cred secret h' hw => ?_
    exact hr cred secret h' (by rw [hw]; rfl)
  · exact .exec_new hb h.orderly h.formed hu hk hnew ha
  · refine (h.agrees x hx).exec_rotate hb h.orderly h.rotations hu ?_ ha
    rw [setHmac_id] at hk
    cases hw : u.wait with
    | rotate c id =>
      rw [hw] at hk
      obtain ⟨rfl, rfl⟩ := BrokerCall.rotate.inj hk
      rfl
    | update id v => cases v <;> simp [hw, Wait.call] at hk
    | _ =>
      rw [hw] at hk
      cases hk

lemma step (h : CredInv s) (hb : Base digest s) (ha : answered s i = true)
    (hok : apart s i = true) (hs : Api.step cfg cap digest s i = some s') : CredInv s' := by
  refine ⟨h.orderly.step hb ha hs, h.formed.step hb ha hs, h.rotations.step hb hok hs, ?_⟩
  cases hb.does hs with
  | tick =>
    exact fun x hx => (h.agrees x hx).keep rfl (fun _ => rfl) rfl (fun _ hu _ => hu)
      (fun _ _ hC => hC) fun _ _ => .rfl
  | request hq =>
    intro x hx
    rw [turn_broker] at hx
    exact (h.agrees x hx).start hb (hq.map fun _ _ => rfl)
  | idle => exact h.agrees
  | reap _ _ => exact fun x hx => (h.agrees x hx).start hb rfl
  | exec hu he => exact h.exec hb hu he
  | drop _ => cases ha
  | resume hu hr hd =>
    intro x hx
    rw [turn_broker] at hx
    obtain ⟨a, hl, hr⟩ := answered_result ha hr
    exact (h.agrees x hx).resume hb h.rotations hu hl hr hd
  | broker he =>
    intro x hx
    rw [he] at hx
    exact (h.agrees x hx).keep rfl (fun _ => rfl) rfl (fun _ hu _ => hu) (fun _ _ hC => hC)
      fun _ _ => .rfl
  | brokerRestart =>
    intro x hx
    cases hx
  | apiRestart =>
    have ht : s.tasks = [] := by simpa [answered] using ha
    have hno : ∀ W A, ¬ Owes s W A := by
      rintro W A ⟨u, hu, -⟩
      simp [ht] at hu
    exact fun x hx => (h.agrees x hx).keep rfl (fun _ => rfl) rfl
      (fun u hu _ => mem_cons_of_mem _ hu) (fun _ _ hC => absurd hC (hno _ _))
      fun _ _ => (Owes.turn hb).trans (iff_of_false (by simp [Owes, State.withTasks]) (hno _ _))

lemma init (hi : Init s) : CredInv s := by
  obtain ⟨⟨c, hr, hc⟩, he⟩ := hi
  rw [hc] at he
  subst he
  refine ⟨⟨by simp, by simp⟩, ⟨by simp, by simp, ?_⟩, ⟨by simp, by simp⟩, fun x hx => by cases hx⟩
  rintro cred id h ⟨u, hu, -⟩
  cases hu

end CredInv

/-- In every run in which each call is executed and answered, and rotations of a credential do not
overlap: once nothing is in progress, a row and the tunnel of its id have the same digests. -/
theorem digests_agree {tr : List (State × Label)} {row : Row} {tun : Tunnel}
    (h : Trace (Api.step cfg cap digest) Init tr s)
    (ha : ∀ p ∈ tr, answered p.1 p.2 = true) (hok : ∀ p ∈ tr, apart p.1 p.2 = true)
    (hq : s.tasks = []) (hrow : row ∈ s.db) (ht : tun ∈ s.broker.tunnels)
    (hreg : tun.registered = true) (hid : tun.id = row.tunnelId) :
    row.agentSecretHmac = tun.agentSecretHmac ∧ row.sharedTokenHmac = tun.sharedTokenHmac := by
  obtain ⟨hb, hc⟩ := h.inv_of_ok (I := fun s => Base digest s ∧ CredInv s)
    (fun s hi => ⟨.init hi, .init hi⟩)
    (fun s i s' ⟨hb, hc⟩ (hok : answered s i = true ∧ apart s i = true) hs =>
      ⟨hb.step hs, hc.step hb hok.1 hok.2 hs⟩) fun p hp => ⟨ha p hp, hok p hp⟩
  have hno : ∀ W A, ¬ Owes s W A := by
    rintro W A ⟨u, hu, -⟩
    simp [hq] at hu
  cases hc.agrees tun.record (mem_records.2 ⟨tun, ht, hreg, rfl⟩) with
  | undo hs =>
    obtain ⟨u, hu, -⟩ := hs
    simpa [hq] using hc.orderly.sent u hu
  | taken _ hC | created _ hC => exact absurd hC (hno _ _)
  | row _ _ hrows =>
    have hall := fun cred => (hrows row hrow hid.symm cred).resolve_right (hno _ _)
    exact ⟨hall .agentSecret, hall .sharedToken⟩

theorem digests_agree_restored : ∃ tr s, Trace smallStep Init tr s ∧
    ∃ row ∈ s.db, ∃ tun ∈ s.broker.tunnels, tun.registered = true ∧ tun.id = row.tunnelId ∧
      row.agentSecretHmac = tun.agentSecretHmac ∧ row.sharedTokenHmac = tun.sharedTokenHmac := by
  obtain ⟨tr, s, h, ha, hok, hq, row, hrow, tun, htun, hreg, hid⟩ :=
    exists_trace smallStep Init smallState_init
      [asksFor [65], .exec 0 {}, .resume 0 .answered true,
        .request (.rotate .agentSecret [65] (some [7])), .exec 1 { rand := .replicate 48 99 },
        .resume 1 .answered true,
        .request (.rotate .agentSecret [65] (some [7])), .exec 2 { rand := .replicate 48 100 },
        .resume 2 .answered true, .brokerRestart, .apiRestart, .exec 3 {}, .resume 3 .answered true,
        .exec 4 {}, .resume 4 .answered true]
      (fun r => (∀ p ∈ r.1, answered p.1 p.2 = true) ∧ (∀ p ∈ r.1, apart p.1 p.2 = true) ∧
        r.2.tasks = [] ∧ ∃ row ∈ r.2.db, ∃ tun ∈ r.2.broker.tunnels, tun.registered = true ∧
          tun.id = row.tunnelId) (by decide)
  exact ⟨tr, s, h, row, hrow, tun, htun, hreg, hid, digests_agree h ha hok hq hrow htun hreg hid⟩

/-- Two rotations whose coroutines go on in the other order than the broker has executed them. -/
theorem digests_agree_swapped : ∃ tr s, Trace smallStep Init tr s ∧
    (∀ p ∈ tr, answered p.1 p.2 = true) ∧ s.tasks = [] ∧
    ∃ row ∈ s.db, ∃ tun ∈ s.broker.tunnels, tun.registered = true ∧ tun.id = row.tunnelId ∧
      row.agentSecretHmac ≠ tun.agentSecretHmac :=
  exists_run smallState_init
    [asksFor [65], .exec 0 {}, .resume 0 .answered true,
      .request (.rotate .agentSecret [65] (some [7])),
      .request (.rotate .agentSecret [65] (some [7])),
      .exec 1 { rand := .replicate 48 99 }, .exec 2 { rand := .replicate 48 100 },
      .resume 2 .answered true, .resume 1 .answered true] (by decide)

end TunnelMate.Api
