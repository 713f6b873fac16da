import TunnelMate.Proofs.ApiRuns

/-!
# Tunnels without a row

A tunnel of the broker has a row, or a creation in progress that will give it one or take it away
again (`Covered`).
-/

namespace TunnelMate.Api

open List Option Table Bool

variable {cfg : Settings} {cap : Bytes → Bytes} {digest : Bytes → Digest} {s s' : State}
  {i : Label} {id id' : Bytes} {u : Task}

/-! ## Creations in progress -/

def Covers (s : State) (u : Task) (id : Bytes) : Prop :=
  (∃ body ip secret, u.wait = .create body ip id secret) ∧
    (∃ j p a ah t th, s.answers.lookup u.ref = some (.reply (.created j p a ah t th))) ∨
  u.wait = .undo id ∧ u ∈ s.sent

def Covered (s : State) (id : Bytes) : Prop := ∃ u ∈ s.tasks, Covers s u id

def Wait.targets : Wait → List Bytes
  | .delete id => [id]
  | .reap id rest => id :: rest
  | _ => []

def Wait.blind : Wait → Bool
  | .undo _ => true
  | .reap .. => true
  | _ => false

def Wait.creates : Wait → Bool
  | .create .. => true
  | _ => false

/-- The deletions of the reaper and after a failed `INSERT` are executed before the coroutine goes
on, and a creation that is not answered was not executed. -/
def heard (s : State) : Label → Bool
  | .drop c => s.sent.all fun u => u.ref ≠ c || !u.wait.blind
  | .resume c o _ => s.tasks.all fun u => u.ref ≠ c ||
      (!u.wait.blind || (s.answers.lookup c).isSome) &&
      (!u.wait.creates || o = .answered || (s.answers.lookup c).isNone && s.sent.all (·.ref ≠ c))
  | _ => true

def restarts : Label → Bool
  | .brokerRestart => true
  | .apiRestart => true
  | _ => false

structure NoOrphans (s : State) : Prop where
  held : ∀ x ∈ s.broker.records, Present x.id s.db ∨ Covered s x.id
  creates : ∀ u ∈ s.sent, u.wait.creates = true → u ∈ s.tasks
  named : ∀ u ∈ s.tasks, ∀ id ∈ u.wait.targets, Named id s.db
  /-- A deletion that was executed has found nothing, or left nothing. -/
  gone : ∀ u ∈ s.tasks, ∀ id, u.wait.targets.head? = some id →
    (s.answers.lookup u.ref).isSome = true → (∀ x ∈ s.broker.records, x.id ≠ id) ∨ Covered s id
  running : ∀ u, u ∈ s.tasks ∨ u ∈ s.sent → u.wait.restoring = false

lemma Covers.mono (h : Covers s u id)
    (ha : ∀ a, s.answers.lookup u.ref = some a → s'.answers.lookup u.ref = some a)
    (hs : u.wait = .undo id → u ∈ s.sent → u ∈ s'.sent) : Covers s' u id := by
  rcases h with ⟨hw, j, p, a, ah, t, th, hl⟩ | ⟨hw, hu⟩
  · exact .inl ⟨hw, j, p, a, ah, t, th, ha _ hl⟩
  · exact .inr ⟨hw, hs hw hu⟩

lemma Covers.created {body : TunnelCreate} {ip secret : Bytes} (h : Covers s u id')
    (hw : u.wait = .create body ip id secret) : id' = id := by
  rcases h with ⟨⟨_, _, _, hw'⟩, -⟩ | ⟨hw', -⟩
  · rw [hw] at hw'
    exact (Wait.create.inj hw').2.2.1.symm
  · rw [hw] at hw'
    cases hw'

/-! ## What a call leaves -/

section Effects

variable {b : Broker} {k : BrokerCall} {rs : List Record} {a : Answer}

lemma Effect.held (h : Effect b k rs a) : ∀ y ∈ rs, (∃ x ∈ b.records, x.id = y.id) ∨
    ∃ r, k = .createTunnel r ∧ y.id = r.tunnelId ∧
      ∃ j p s ah t th, a = .reply (.created j p s ah t th) := by
  intro y hy
  refine (h.kept (g := Record.id) (fun _ _ => rfl) setHmac_id hy).imp_right ?_
  rintro ⟨r, _, _, hk, hx, -, ha⟩
  exact ⟨r, hk, hx.id, _, _, _, _, _, _, ha⟩

lemma Effect.deletes (h : Effect b k rs a) (hk : k = .deleteTunnel id) : ∀ y ∈ rs, y.id ≠ id := by
  intro y hy
  cases h with
  | deleted =>
    obtain rfl := BrokerCall.deleteTunnel.inj hk
    simpa using (mem_filter.1 hy).2
  | notDeleted hn =>
    obtain rfl := BrokerCall.deleteTunnel.inj hk
    exact hn y hy
  | @switched _ _ v he | @notSwitched _ _ v _ he => cases v <;> simp [hk] at he
  | _ => cases hk

end Effects

/-! ## Steps -/

section Steps

variable {t : Turn} {v : Task} {ts : List Task} {rate : RateWindow} {up : Bool}

lemma Covers.turn (h : Covers s v id) (hv : v ∈ ts) :
    Covered ((s.withTasks ts rate up).turn t) id := by
  refine ⟨v, mem_turn_tasks.2 (.inr hv), h.mono (fun a hl => ?_) fun _ hm => ?_⟩
  · rw [turn_answers]
    exact hl
  · exact mem_turn_sent.2 (.inr hm)

section

variable (h : NoOrphans s)
include h

section

variable (hb : Base digest s)
include hb

lemma NoOrphans.turn (ht : ts ⊆ s.tasks)
    (hcr : ∀ v ∈ s.sent, v.wait.creates = true → v ∈ s.tasks → v ∈ ts)
    (hnamed : ∀ id, Named id s.db → Named id t.db)
    (hw : ∀ w, t.wait = some w → w.restoring = false ∧ ∀ id ∈ w.targets, Named id t.db)
    (hheld : ∀ x ∈ s.broker.records,
      Present x.id t.db ∨ Covered ((s.withTasks ts rate up).turn t) x.id)
    (hcov : ∀ id, Named id s.db → Covered s id → Covered ((s.withTasks ts rate up).turn t) id) :
    NoOrphans ((s.withTasks ts rate up).turn t) where
  held := by
    rw [turn_broker, turn_db]
    exact hheld
  creates := by
    intro v hv hc
    rcases mem_turn_sent.1 hv with ⟨w, hw, rfl⟩ | hv
    · exact mem_turn_tasks.2 (.inl ⟨w, hw, rfl⟩)
    · exact mem_turn_tasks.2 (.inr (hcr v hv hc (h.creates v hv hc)))
  named := by
    intro v hv id hid
    rw [turn_db]
    rcases mem_turn_tasks.1 hv with ⟨w, hwt, rfl⟩ | hv
    · exact (hw w hwt).2 id hid
    · exact hnamed id (h.named v (ht hv) id hid)
  gone := by
    intro v hv id hid hans
    obtain ⟨a, hl⟩ := isSome_iff_exists.1 hans
    obtain ⟨hv, hl⟩ := hb.old hv hl
    rw [turn_broker]
    refine (h.gone v (ht hv) id hid (isSome_iff_exists.2 ⟨a, hl⟩)).imp_right (hcov id ?_)
    exact h.named v (ht hv) id (mem_of_mem_head? hid)
  running := by
    intro v hv
    rcases calls_turn.1 hv with ⟨w, hwt, rfl⟩ | hv
    · exact (hw w hwt).1
    · exact h.running v (hv.imp_left (ht ·))

omit hb in
lemma NoOrphans.keep {now mono : ℕ} {b : Broker} (hr : b.records = s.broker.records) :
    NoOrphans { s with now := now, mono := mono, broker := b } :=
  { h with
    held := fun x hx => h.held x (hr ▸ hx)
    gone := fun v hv id hid ha => (h.gone v hv id hid ha).imp_left (hr ▸ ·) }

lemma NoOrphans.request {q : Request}
    (hq : Handled cfg cap s.now s.db q t) : NoOrphans ({ s with rate := rate }.turn t) := by
  have hcov : ∀ id, Covered s id → Covered ({ s with rate := rate }.turn t) id :=
    fun id ⟨u, hu, hc⟩ => hc.turn hu
  refine h.turn hb (.refl _) (fun _ _ _ hv => hv) ?_ ?_ ?_ fun id _ => hcov id
  · cases hq with
    | refused | begins => exact fun _ hn => hn
    | renewed => exact fun _ hn => hn.update fun _ => rfl
  · intro w hw
    cases hq with
    | refused | renewed => cases hw
    | begins hbeg =>
      cases hw
      cases hbeg with
      | create | update | rotate => exact ⟨rfl, by simp [Wait.targets]⟩
      | delete hr => exact ⟨rfl, by simpa [Wait.targets] using (present_of_caller hr).named⟩
  · intro x hx
    refine (h.held x hx).imp (fun hp => ?_) (hcov _)
    cases hq with
    | refused | begins => exact hp
    | renewed _ => exact hp.update fun _ => ⟨rfl, rfl⟩

lemma NoOrphans.reap {rest : List Bytes} (he : expiredIds s.now s.db = id :: rest) :
    NoOrphans (s.turn { db := s.db, wait := some (.reap id rest) }) := by
  have hcov : ∀ j, Covered s j → Covered (s.turn { db := s.db, wait := some (.reap id rest) }) j :=
    fun j ⟨u, hu, hc⟩ => hc.turn hu
  refine h.turn hb (.refl _) (fun _ _ _ hv => hv) (fun _ hn => hn) ?_
    (fun x hx => (h.held x hx).imp_right (hcov _)) fun j _ => hcov j
  intro w hw
  cases hw
  refine ⟨rfl, fun j hj => ?_⟩
  have hj : j ∈ expiredIds s.now s.db := he ▸ hj
  obtain ⟨row, hrow, rfl⟩ := mem_map.1 hj
  exact ⟨row, (mem_filter.1 hrow).1, rfl⟩

lemma NoOrphans.exec {b : Broker} {a : Answer}
    (hu : u ∈ s.sent) (he : Effect s.broker u.wait.call b.records a) :
    NoOrphans (s.executed u b a) := by
  -- what covered a tunnel that is still there goes on doing so
  have hcov : ∀ y ∈ b.records, Covered s y.id → Covered (s.executed u b a) y.id := by
    rintro y hy ⟨v, hv, hc⟩
    refine ⟨v, hv, hc.mono (fun _ => hb.answer_kept hu) fun hw hm => mem_del.2 ⟨hm, fun hk => ?_⟩⟩
    obtain rfl : v = u := hb.same v hv u hu hk
    exact he.deletes (by rw [hw]; rfl) y hy rfl
  have hnew : ∀ r, u.wait.call = .createTunnel r →
      (∃ j p s ah t th, a = .reply (.created j p s ah t th)) →
      Covered (s.executed u b a) r.tunnelId := by
    intro r hr ⟨j, p, s₁, ah, t, th, ha⟩
    rcases call_create hr with ⟨body, ip, id, secret, hw, rfl⟩ | ⟨row, rest, hw, -⟩
    · have hut := h.creates u hu (by rw [hw]; rfl)
      refine ⟨u, hut, .inl ⟨⟨body, ip, secret, hw⟩, j, p, s₁, ah, t, th, ?_⟩⟩
      rw [hb.answer_exec hu hut, if_pos rfl, ha]
    · have := h.running u (.inr hu)
      simp [hw, Wait.restoring] at this
  refine ⟨fun y hy => ?_, fun v hv => h.creates v (mem_del.1 hv).1, h.named,
    fun v hv id hid hans => ?_,
    fun v hv => h.running v (hv.imp_right fun hv => (mem_del.1 hv).1)⟩
  · rcases he.held y hy with ⟨x, hx, hxy⟩ | ⟨r, hr, hyr, ha⟩
    · rw [← hxy]
      exact (h.held x hx).imp_right fun hc => hxy ▸ hcov y hy (hxy ▸ hc)
    · exact .inr (hyr ▸ hnew r hr ha)
  · by_cases hy : ∃ y ∈ b.records, y.id = id
    · obtain ⟨y, hy, rfl⟩ := hy
      have hvu : v ≠ u := by
        rintro rfl
        refine he.deletes ?_ y hy rfl
        cases hw : v.wait <;> rw [hw] at hid <;> simp [Wait.targets] at hid <;> rw [hid] <;> rfl
      rw [hb.answer_exec hu hv, if_neg hvu] at hans
      rcases he.held y hy with ⟨x, hx, hxy⟩ | ⟨r, hr, hyr, ha⟩
      · refine .inr (hcov y hy ((h.gone v hv _ hid hans).resolve_left fun hn => ?_))
        exact hn x hx hxy
      · exact .inr (hyr ▸ hnew r hr ha)
    · exact .inl fun x hx hxi => hy ⟨x, hx, hxi⟩

lemma NoOrphans.drop (hu : u ∈ s.sent)
    (hh : heard s (.drop u.ref) = true) : NoOrphans { s with sent := del u.ref s.sent } := by
  have hbl : u.wait.blind = false := by simpa using all_eq_true.1 hh u hu
  have hcov : ∀ id, Covered s id → Covered { s with sent := del u.ref s.sent } id := by
    rintro id ⟨v, hv, hc⟩
    refine ⟨v, hv, hc.mono (fun _ hl => hl) fun hw hm => mem_del.2 ⟨hm, fun hk => ?_⟩⟩
    obtain rfl : v = u := eq_of_key hb.sent.nodup hm hu hk
    rw [hw] at hbl
    cases hbl
  exact ⟨fun x hx => (h.held x hx).imp_right (hcov _),
    fun v hv => h.creates v (mem_del.1 hv).1, h.named,
    fun v hv id hid ha => (h.gone v hv id hid ha).imp_right (hcov _),
    fun v hv => h.running v (hv.imp_right fun hv => (mem_del.1 hv).1)⟩

end

end

section Resume

variable {o : Outcome} {stored : Bool} {r : Except BrokerExc Answer}

section

variable (h : NoOrphans s) (hb : Base digest s) (hu : u ∈ s.tasks)
  (hnamed : ∀ id, Named id s.db → Named id t.db)
  (hw : ∀ w, t.wait = some w → w.restoring = false ∧ ∀ id ∈ w.targets, Named id t.db)
  (hheld : ∀ x ∈ s.broker.records, Present x.id s.db → Present x.id t.db ∨ Covered s x.id)
include h hb hu hnamed hw hheld

lemma NoOrphans.finish (hns : u.wait.creates = true → u ∉ s.sent) (hun : ∀ id, ¬ Covers s u id) :
    NoOrphans ((s.resumed u).turn t) := by
  have hcov : ∀ id, Covered s id → Covered ((s.resumed u).turn t) id := by
    rintro id ⟨v, hv, hc⟩
    exact hc.turn (hb.mem_resumed hu hv (by rintro rfl; exact hun id hc))
  refine h.turn hb (fun _ hv => (mem_del.1 hv).1) (fun v hv hc hm => hb.mem_resumed hu hm ?_)
    hnamed hw (fun x hx => ?_) fun id _ => hcov id
  · rintro rfl
    exact hns hc hv
  · rcases h.held x hx with hp | hc
    · exact (hheld x hx hp).imp_right (hcov _)
    · exact .inr (hcov _ hc)

lemma NoOrphans.plain (hc : u.wait.creates = false) (hn : ∀ id, u.wait ≠ .undo id) :
    NoOrphans ((s.resumed u).turn t) := by
  refine h.finish hb hu hnamed hw hheld (fun h' => ?_) fun id hcov => ?_
  · rw [hc] at h'
    cases h'
  · rcases hcov with ⟨⟨body, ip, secret, hw⟩, -⟩ | ⟨hw, -⟩
    · rw [hw] at hc
      cases hc
    · exact hn id hw

end

lemma heard_resume (hu : u ∈ s.tasks) (hh : heard s (.resume u.ref o stored) = true) :
    (u.wait.blind = true → (s.answers.lookup u.ref).isSome = true) ∧
    (u.wait.creates = true → o = .answered ∨
      s.answers.lookup u.ref = none ∧ ∀ v ∈ s.sent, v.ref ≠ u.ref) := by
  have := all_eq_true.1 hh u hu
  simp only [ne_eq, not_true_eq_false, decide_false, Bool.false_or, and_eq_true,
    or_eq_true, not_eq_true', decide_eq_true_eq, isNone_iff_eq_none,
    List.all_eq_true] at this
  refine ⟨fun hbl => ?_, fun hcr => ?_⟩
  · exact this.1.resolve_left (by simp [hbl])
  · rcases this.2 with (hc | ho) | hn
    · simp [hcr] at hc
    · exact .inl ho
    · exact .inr hn

lemma result_notFound {a : Option Answer} {exc : BrokerExc} (h : o.result a = some (.error exc))
    (hn : exc.notFound = true) : a.isSome = true := by
  cases o with
  | answered =>
    obtain ⟨y, hy, -⟩ := map_eq_some_iff.1 h
    rw [hy]
    rfl
  | unavailable text =>
    obtain rfl := Except.error.inj (some.inj h)
    cases hn
  | closed =>
    obtain rfl := Except.error.inj (some.inj h)
    exact absurd hn (by decide)

lemma NoOrphans.marked (h : NoOrphans s) (hu : u ∈ s.tasks)
    (hid : u.wait.targets.head? = some id) (ha : (s.answers.lookup u.ref).isSome = true) :
    ∀ x ∈ s.broker.records, Present x.id s.db →
      Present x.id (updateRow id markDeleted s.db) ∨ Covered s x.id := by
  intro x hx hp
  by_cases he : x.id = id
  · exact .inr (he ▸ (h.gone u hu id hid ha).resolve_left fun hn => hn x hx he)
  · exact .inl (hp.mark he)

section Created

variable {body : TunnelCreate} {ip secret : Bytes}

lemma NoOrphans.stores {row : Row} (h : NoOrphans s) (hb : Base digest s) (hu : u ∈ s.tasks)
    (hw : u.wait = .create body ip id secret) (hns : u ∉ s.sent)
    (hf : ∀ row ∈ s.db, row.tunnelId ≠ id) (ht : t.db = s.db ++ [row])
    (hrow : row.tunnelId = id ∧ row.deleted = false) (htw : t.wait = none) :
    NoOrphans ((s.resumed u).turn t) := by
  have hcov : ∀ j, j ≠ id → Covered s j → Covered ((s.resumed u).turn t) j := by
    rintro j hj ⟨v, hv, hc⟩
    exact hc.turn (hb.mem_resumed hu hv (by rintro rfl; exact hj (hc.created hw)))
  refine h.turn hb (fun _ hv => (mem_del.1 hv).1)
    (fun v hv _ hm => hb.mem_resumed hu hm fun he => hns (he ▸ hv)) ?_ (by simp [htw])
    (fun x hx => ?_) fun j ⟨row, hrow, hj⟩ => hcov j fun he =>
      hf row hrow (hj.trans he)
  · rintro j ⟨row', hrow', hj⟩
    exact ⟨row', by rw [ht]; exact mem_append_left _ hrow', hj⟩
  · rw [ht]
    by_cases hxi : x.id = id
    · exact .inl ⟨row, by simp, hrow.1.trans hxi.symm, hrow.2⟩
    · refine (h.held x hx).imp (fun ⟨row', hrow', hp⟩ => ?_) (hcov _ hxi)
      exact ⟨row', mem_append_left _ hrow', hp⟩

lemma NoOrphans.undoes (h : NoOrphans s) (hb : Base digest s) (hu : u ∈ s.tasks)
    (hw : u.wait = .create body ip id secret) (hns : u ∉ s.sent) (ht : t.db = s.db)
    (htw : t.wait = some (.undo id)) : NoOrphans ((s.resumed u).turn t) := by
  have hcov : ∀ j, Covered s j → Covered ((s.resumed u).turn t) j := by
    rintro j ⟨v, hv, hc⟩
    by_cases hvu : v = u
    · subst hvu
      rw [hc.created hw]
      refine ⟨⟨s.nextRef, .undo id⟩, mem_turn_tasks.2 (.inl ⟨_, htw, rfl⟩), .inr ⟨rfl, ?_⟩⟩
      exact mem_turn_sent.2 (.inl ⟨_, htw, rfl⟩)
    · exact hc.turn (hb.mem_resumed hu hv hvu)
  refine h.turn hb (fun _ hv => (mem_del.1 hv).1)
    (fun v hv _ hm => hb.mem_resumed hu hm fun he => hns (he ▸ hv)) (by simp [ht])
    (fun w hwt => ?_) (fun x hx => ?_) fun j _ => hcov j
  · rw [htw] at hwt
    cases hwt
    exact ⟨rfl, by simp [Wait.targets]⟩
  · rw [ht]
    exact (h.held x hx).imp_right (hcov _)

end Created

lemma NoOrphans.resume (h : NoOrphans s) (hb : Base digest s) (hu : u ∈ s.tasks)
    (hr : o.result (s.answers.lookup u.ref) = some r) (hd : Done cfg cap s.now s.db r u.wait t)
    (hh : heard s (.resume u.ref o stored) = true) : NoOrphans ((s.resumed u).turn t) := by
  obtain ⟨hbl, hcr⟩ := heard_resume hu hh
  have hns : (s.answers.lookup u.ref).isSome = true → u ∉ s.sent := fun ha => by
    obtain ⟨a, ha⟩ := isSome_iff_exists.1 ha
    exact hb.not_sent ha
  have hrun := h.running u (.inl hu)
  have hnamed : ∀ id, Named id s.db → Named id t.db := fun _ => hd.named
  have hkeep : ∀ x ∈ s.broker.records, Present x.id s.db → Present x.id s.db ∨ Covered s x.id :=
    fun _ _ => .inl
  generalize hw : u.wait = w at hd hbl hcr hrun
  cases hd with
  | @notCreated body ip id secret resp _ hne =>
    refine h.finish hb hu hnamed (by simp) hkeep (fun _ => ?_) fun j hc => ?_
    · rcases hcr rfl with rfl | hn
      · obtain ⟨y, hy, -⟩ := map_eq_some_iff.1 hr
        exact hns (by rw [hy]; rfl)
      · exact fun hm => hn.2 u hm rfl
    · rcases hc with ⟨-, j, p, a, ah, t, th, hl⟩ | ⟨hc, -⟩
      · rcases hcr rfl with rfl | hn
        · rw [hl] at hr
          exact hne j p a ah t th (some.inj hr).symm
        · rw [hn.1] at hl
          cases hl
      · rw [hw] at hc
        cases hc
  | created _ he hf =>
    subst he
    exact h.stores hb hu hw (hb.not_sent (result_ok hr)) hf rfl ⟨rfl, rfl⟩ rfl
  | notStored he =>
    subst he
    exact h.undoes hb hu hw (hb.not_sent (result_ok hr)) rfl rfl
  | undone =>
    refine h.finish hb hu hnamed (by simp) hkeep (fun hc => by rw [hw] at hc; cases hc)
      fun j hc => ?_
    rcases hc with ⟨⟨_, _, _, hc⟩, -⟩ | ⟨-, hm⟩
    · rw [hw] at hc
      cases hc
    · exact hns (hbl rfl) hm
  | updated =>
    exact h.plain hb hu hnamed (by simp) (fun x _ hp => .inl (hp.update fun _ => ⟨rfl, rfl⟩))
      (by rw [hw]; rfl) (by simp [hw])
  | deleted _ hok =>
    refine h.plain hb hu hnamed (by simp) (h.marked hu (by rw [hw]; rfl) ?_) (by rw [hw]; rfl)
      (by simp [hw])
    rcases hok with ⟨a, rfl⟩ | ⟨exc, rfl, hn⟩
    · rw [result_ok hr]
      rfl
    · exact result_notFound hr hn
  | rotated _ _ =>
    refine h.plain hb hu hnamed (by simp) (fun x _ hp => .inl (hp.update fun _ => ?_))
      (by rw [hw]; rfl) (by simp [hw])
    exact ⟨Row.setHmac_tunnelId _ _ _, Row.setHmac_deleted _ _ _⟩
  | reaped =>
    exact h.plain hb hu hnamed (by simp) (h.marked hu (by rw [hw]; rfl) (hbl rfl))
      (by rw [hw]; rfl) (by simp [hw])
  | reapedNext =>
    refine h.plain hb hu hnamed (fun w' hw' => ?_) (h.marked hu (by rw [hw]; rfl) (hbl rfl))
      (by rw [hw]; rfl) (by simp [hw])
    cases hw'
    refine ⟨rfl, fun j hj => hnamed j (h.named u hu j ?_)⟩
    rw [hw]
    exact mem_cons_of_mem _ hj
  | restored hre | restores hre _ =>
    rw [hrun] at hre
    cases hre
  | disables => cases hrun
  | _ =>
    exact h.plain hb hu hnamed (by simp) hkeep (by rw [hw]; rfl) (by simp [hw])

end Resume

lemma NoOrphans.step (h : NoOrphans s) (hb : Base digest s) (hn : restarts i = false)
    (hh : heard s i = true) (hs : Api.step cfg cap digest s i = some s') : NoOrphans s' := by
  cases hb.does hs with
  | tick _ => exact h.keep rfl
  | idle => exact h
  | request hq => exact h.request hb hq
  | reap _ he => exact h.reap hb he
  | exec hu he => exact h.exec hb hu he
  | drop hu => exact h.drop hb hu hh
  | resume hu hr hd => exact h.resume hb hu hr hd hh
  | broker he => exact h.keep he
  | brokerRestart | apiRestart => cases hn

end Steps

variable {tr : List (State × Label)}

lemma NoOrphans.of_trace (h : Trace (Api.step cfg cap digest) Init tr s)
    (hok : ∀ p ∈ tr, restarts p.2 = false ∧ heard p.1 p.2 = true) : NoOrphans s := by
  refine (h.inv_of_ok (I := fun s => Base digest s ∧ NoOrphans s) (fun s hi => ⟨.init hi, ?_⟩)
    (fun s i s' ⟨hb, hi⟩ (hok : restarts i = false ∧ heard s i = true) hs =>
      ⟨hb.step hs, hi.step hb hok.1 hok.2 hs⟩) hok).2
  obtain ⟨⟨c, -, hc⟩, he⟩ := hi
  rw [hc] at he
  subst he
  exact ⟨by simp [Broker.records], by simp, by simp, by simp, by simp⟩

end TunnelMate.Api
