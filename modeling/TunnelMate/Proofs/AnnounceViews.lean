import TunnelMate.Proofs.AnnounceCopy

/-!
# Who sees an announcement

A search looks at the tunnel of an announcement, and the read by id does not.
-/

namespace TunnelMate.Announce

open List Option Bool Api

open Api (Done Row findRow tunnelForOwner)

variable {cfg : Settings} {cap : Bytes → Bytes} {digest : Bytes → Digest} {s s' : State}
  {l : Admin.Label}

def orderly (s : State) : Admin.Label → Bool
  | .base (.request (.tunnel (.renewTunnel id _))) =>
    s.api.tasks.all fun u => !u.wait.reaps.contains id
  | .request (.updateAnnouncement id body) =>
    body.enabled ≠ some true || (findAnn id s.anns).all fun a =>
      (findRow a.tunnelId s.api.db).all fun r => !r.deleted
  | _ => true

def Hidden (now : ℕ) (db : List Row) (anns : List Announcement) : Prop :=
  ∀ a ∈ anns, ∀ r, findRow a.tunnelId db = some r → r.deleted = true →
    a.enabled = false ∨ a.expiresAt ≤ now

def Dims (db : List Row) (anns anns' : List Announcement) : Prop :=
  ∀ a' ∈ anns', ∃ a ∈ anns, a'.Same a ∧ (a'.enabled = true → a.enabled = true ∨
    ∀ r, findRow a.tunnelId db = some r → r.deleted = false)

section Rows

variable {now now' : ℕ} {db db' : List Row} {anns anns' : List Announcement} {t : Api.Turn}
  {id : Bytes}

lemma Dims.refl (db : List Row) (anns : List Announcement) : Dims db anns anns :=
  fun a ha => ⟨a, ha, .refl a, fun he => .inl he⟩

lemma Dims.map {c : Announcement → Prop} [DecidablePred c] {f : Announcement → Announcement}
    (hf : ∀ a ∈ anns, c a → (f a).Same a ∧ ((f a).enabled = true → a.enabled = true ∨
      ∀ r, findRow a.tunnelId db = some r → r.deleted = false)) :
    Dims db anns (anns.map fun a => if c a then f a else a) := by
  intro a' ha'
  obtain ⟨a, ha, rfl⟩ := mem_map.1 ha'
  refine ⟨a, ha, ?_⟩
  split_ifs with hc
  · exact hf a ha hc
  · exact ⟨.refl a, fun he => .inl he⟩

lemma Hidden.dims (h : Hidden now db anns) (hd : Dims db anns anns') (hn : now ≤ now')
    (hrows : ∀ a ∈ anns, ∀ r', findRow a.tunnelId db' = some r' → r'.deleted = true →
      ∃ r, findRow a.tunnelId db = some r ∧ r.deleted = true) : Hidden now' db' anns' := by
  intro a' ha' r' hr' hdel'
  obtain ⟨a, ha, hs, hen⟩ := hd a' ha'
  rw [hs.tunnel] at hr'
  obtain ⟨r, hr, hdel⟩ := hrows a ha r' hr' hdel'
  have hexp : a'.expiresAt = a.expiresAt := congrArg Copy.expiresAt hs.copy
  rcases h a ha r hr hdel with he | he
  · left
    cases hen' : a'.enabled with
    | false => rfl
    | true =>
      rcases hen hen' with hcon | hcon
      · rw [he] at hcon
        cases hcon
      · rw [hcon r hr] at hdel
        cases hdel
  · exact .inr (hexp ▸ he.trans hn)

lemma dims_follow (h : ∀ id e, t.response ≠ some (.renewed id e)) :
    Dims db anns (follow now t anns) := by
  unfold follow
  split
  · exact absurd ‹_› (h _ _)
  · exact .map fun a _ _ => ⟨⟨rfl, rfl, rfl⟩, fun he => by cases he⟩
  · exact .refl db anns

lemma deleted_of_update {f : Row → Row} (hi : ∀ r, (f r).tunnelId = r.tunnelId)
    (hf : ∀ r, (f r).deleted = r.deleted) {j : Bytes} {r' : Row}
    (h : findRow j (updateRow id f db) = some r') (hd : r'.deleted = true) :
    ∃ r, findRow j db = some r ∧ r.deleted = true := by
  rw [findRow_updateRow hi] at h
  obtain ⟨r, hr, rfl⟩ := map_eq_some_iff.1 h
  refine ⟨r, hr, ?_⟩
  split_ifs at hd
  · exact hf r ▸ hd
  · exact hd

lemma findRow_markDeleted {j : Bytes} (hj : j ≠ id) :
    findRow j (updateRow id markDeleted db) = findRow j db :=
  findRow_updateRow_ne (fun _ => rfl) hj.symm

lemma Hidden.done {r : Except Api.BrokerExc Api.Answer} {w : Api.Wait}
    (h : Hidden now db anns) (hc : Copied cfg db anns)
    (hw : ∀ j ∈ w.reaps, ∃ row, findRow j db = some row ∧ row.expiresAt ≤ now)
    (hd : Done cfg.toSettings cap now db r w t) : Hidden now t.db (follow now t anns) := by
  have hdims : Dims db anns (follow now t anns) := dims_follow fun _ _ => hd.renewed
  cases hd with
  | created =>
    refine h.dims hdims le_rfl fun a ha r' hr' hdel => ⟨r', ?_, hdel⟩
    obtain ⟨row, hrow, -⟩ := hc a ha
    obtain ⟨hm, hi⟩ := findRow_some hrow
    rwa [findRow_append ⟨row, hm, hi⟩] at hr'
  | @updated id v =>
    refine h.dims hdims le_rfl fun a _ r' hr' => ?_
    exact deleted_of_update (f := fun row => { row with enabled := v }) (fun _ => rfl)
      (fun _ => rfl) hr'
  | rotated =>
    exact h.dims hdims le_rfl fun a _ r' => deleted_of_update (fun row => row.setHmac_tunnelId _ _)
      fun row => row.setHmac_deleted _ _
  | @deleted id resp hresp =>
    subst hresp
    intro a' ha' r' hr' hdel
    obtain ⟨a, ha, rfl⟩ := mem_map.1 ha'
    by_cases hid : a.tunnelId = id
    · rw [if_pos hid]
      exact .inl rfl
    · rw [if_neg hid] at hr' ⊢
      exact h a ha r' ((findRow_markDeleted hid).symm.trans hr') hdel
  | @reaped id | @reapedNext id _ _ =>
    intro a ha r' hr' hdel
    by_cases hid : a.tunnelId = id
    · obtain ⟨row, hrow, hle⟩ := hw id mem_cons_self
      obtain ⟨row', hrow', hcopy⟩ := hc a ha
      rw [hid, hrow] at hrow'
      cases hrow'
      have hexp : a.expiresAt = row.expiresAt := congrArg Copy.expiresAt hcopy
      exact .inr (hexp.trans_le hle)
    · exact h a ha r' ((findRow_markDeleted hid).symm.trans hr') hdel
  | _ =>
    exact h.dims hdims le_rfl fun a _ r' hr' hdel => ⟨r', hr', hdel⟩

lemma mem_expiredIds {j : Bytes} (h : j ∈ expiredIds now db)
    (hn : (db.map (·.tunnelId)).Nodup) : ∃ r, findRow j db = some r ∧ r.expiresAt ≤ now := by
  obtain ⟨r, hr, rfl⟩ := mem_map.1 h
  obtain ⟨hm, hp⟩ := mem_filter.1 hr
  simp only [and_eq_true, decide_eq_true_eq] at hp
  refine ⟨r, ?_, hp.2⟩
  cases hf : findRow r.tunnelId db with
  | none => exact absurd rfl (findRow_none.1 hf r hm)
  | some =>
    obtain ⟨hx, hi⟩ := findRow_some hf
    rw [inj_on_of_nodup_map hn hx hm hi]

end Rows

structure Tidy (cfg : Settings) (digest : Bytes → Digest) (s : State) : Prop where
  synced : Synced cfg digest s
  reaps : ∀ u ∈ s.api.tasks, ∀ j ∈ u.wait.reaps,
    ∃ r, findRow j s.api.db = some r ∧ r.expiresAt ≤ s.api.now
  hidden : Hidden s.api.now s.api.db s.anns

lemma Tidy.init (h : Init s) : Tidy cfg digest s := by
  refine ⟨.init h, ?_, ?_⟩
  all_goals
    rw [h.2, h.1.2]
    simp [Hidden]

variable {id : Bytes} {secret : Option Bytes}

lemma dims_update (hn : (s.anns.map (·.announcementId)).Nodup)
    {body : AnnouncementPatch} : Dims s.api.db s.anns
      (updateAnnouncement cap id body secret s.api.now s.api.db s.anns).1 := by
  unfold updateAnnouncement
  split
  · exact .refl _ _
  · rename_i c hc
    split
    · exact .refl _ _
    · refine .map fun a ha hid => ⟨body.apply_same _ a, fun _ => .inr fun r hr => ?_⟩
      obtain ⟨hf, hown⟩ := filter_eq_some_iff.1 hc
      obtain rfl : c = a := by
        refine inj_on_of_nodup_map hn (mem_of_find?_eq_some hf) ha ?_
        exact (by simpa using find?_some hf : c.announcementId = id).trans hid.symm
      obtain ⟨row, hrow⟩ := isSome_iff_exists.1 hown
      obtain ⟨hfind, hp⟩ := filter_eq_some_iff.1 hrow
      rw [hr] at hfind
      cases hfind
      simp only [and_eq_true, not_eq_true'] at hp
      exact hp.1

lemma dims_delete : Dims s.api.db s.anns
    (deleteAnnouncement cap id secret s.api.now s.api.db s.anns).1 := by
  unfold deleteAnnouncement
  split
  · exact .refl _ _
  · exact .map fun a _ _ => ⟨⟨rfl, rfl, rfl⟩, fun he => by cases he⟩

lemma dims_admin (hn : (s.anns.map (·.announcementId)).Nodup) {q : Admin.Request}
    (ho : orderly s (.request q) = true) :
    Dims s.api.db s.anns (Admin.handle q s.api.now s.anns).1 := by
  cases q with
  | updateAnnouncement id body =>
    unfold Admin.handle adminUpdateAnnouncement
    dsimp only
    split
    · exact .refl _ _
    · rename_i c hc
      split
      · exact .refl _ _
      · refine .map fun a ha hid => ⟨body.apply_same _ a, fun he => ?_⟩
        rw [body.apply_enabled] at he
        cases hb : body.enabled with
        | none =>
          rw [hb] at he
          exact .inl he
        | some v =>
          rw [hb] at he
          obtain rfl : v = true := he
          obtain rfl : c = a := by
            refine inj_on_of_nodup_map hn (mem_of_find?_eq_some hc) ha ?_
            exact (by simpa using find?_some hc : c.announcementId = id).trans hid.symm
          refine .inr fun r hr => ?_
          simpa [orderly, hb, hc, hr] using ho
  | deleteAnnouncement =>
    unfold Admin.handle adminDeleteAnnouncement
    dsimp only
    split_ifs
    · exact fun a ha => ⟨a, mem_of_mem_filter ha, .refl a, fun he => .inl he⟩
    · exact .refl _ _

section

variable (h : Tidy cfg digest s)
include h

section

variable (hsync : Synced cfg digest s')
include hsync

lemma Tidy.turn {t : Api.Turn} {ts : List Api.Task} {rate : Api.RateWindow} {up : Bool}
    (ha : s'.api = (s.api.withTasks ts rate up).turn t) (hts : ts ⊆ s.api.tasks)
    (hwait : ∀ w, t.wait = some w → ∀ j ∈ w.reaps, ∃ r, findRow j s.api.db = some r ∧
      r.expiresAt ≤ s.api.now)
    (hrows : ∀ u ∈ ts, ∀ j ∈ u.wait.reaps, ∀ r, findRow j s.api.db = some r →
      ∃ r', findRow j t.db = some r' ∧ r'.expiresAt = r.expiresAt)
    (hdb : ∀ w, t.wait = some w → ∀ j r, findRow j s.api.db = some r →
      ∃ r', findRow j t.db = some r' ∧ r'.expiresAt = r.expiresAt)
    (hhid : Hidden s.api.now t.db s'.anns) : Tidy cfg digest s' := by
  have hkeep : ∀ {j : Bytes}, (∀ r, findRow j s.api.db = some r → ∃ r', findRow j t.db = some r' ∧
      r'.expiresAt = r.expiresAt) → (∃ r, findRow j s.api.db = some r ∧ r.expiresAt ≤ s.api.now) →
      ∃ r, findRow j t.db = some r ∧ r.expiresAt ≤ s.api.now := by
    rintro j hk ⟨r, hr, hle⟩
    obtain ⟨r', hr', he⟩ := hk r hr
    exact ⟨r', hr', he.trans_le hle⟩
  refine { synced := hsync, reaps := ?_, hidden := ?_ }
  · intro u hu j hj
    rw [ha, turn_db, turn_now]
    rw [ha, mem_turn_tasks] at hu
    obtain ⟨w, hw, rfl⟩ | hu := hu
    · exact hkeep (hdb w hw j) (hwait w hw j hj)
    · exact hkeep (hrows u hu j hj) (h.reaps u (hts hu) j hj)
  · rw [ha, turn_db, turn_now]
    exact hhid

lemma Tidy.renew {row : Row} {rate : Api.RateWindow} {e : ℕ}
    (ho : orderly s (.base (.request (.tunnel (.renewTunnel id secret)))) = true)
    (hrow : tunnelForOwner cap id secret s.api.db = some row)
    (ha : s'.api = { s.api with rate := rate }.turn
      { db := updateRow id (fun r => { r with expiresAt := e }) s.api.db
        response := some (.renewed id e) })
    (hann : s'.anns =
      updateOf id (fun a => { a with expiresAt := e, updatedAt := s.api.now }) s.anns) :
    Tidy cfg digest s' := by
  have hfind : ∀ {j : Bytes}, j ≠ id →
      findRow j (updateRow id (fun r : Row => { r with expiresAt := e }) s.api.db) =
        findRow j s.api.db := fun hj => findRow_updateRow_ne (fun _ => rfl) hj.symm
  refine h.turn hsync ha (.refl _) (by simp) (fun u hu j hj r hr => ?_) (by simp) ?_
  · refine ⟨r, (hfind ?_).trans hr, rfl⟩
    rintro rfl
    have := all_eq_true.1 ho u hu
    simp [hj] at this
  · rw [hann]
    intro a' ha' r' hr' hdel
    obtain ⟨a, hm, rfl⟩ := mem_map.1 ha'
    by_cases hid : a.tunnelId = id
    · rw [if_pos hid] at hr'
      obtain ⟨r, hr, hd⟩ := deleted_of_update (f := fun r => { r with expiresAt := e })
        (fun _ => rfl) (fun _ => rfl) hr' hdel
      obtain ⟨hf, hp⟩ := filter_eq_some_iff.1 hrow
      rw [hid, hf] at hr
      rw [← some.inj hr] at hd
      simp [hd] at hp
    · rw [if_neg hid] at hr' ⊢
      exact h.hidden a hm r' ((hfind hid).symm.trans hr') hdel

lemma Tidy.same (ha : s'.api = s.api) (hd : Dims s.api.db s.anns s'.anns) : Tidy cfg digest s' where
  synced := hsync
  reaps := ha ▸ h.reaps
  hidden := ha ▸ h.hidden.dims hd le_rfl fun _ _ r hr hdel => ⟨r, hr, hdel⟩

end

lemma Tidy.step (ho : orderly s l = true)
    (hs : Admin.step cfg cap digest s l = some s') : Tidy cfg digest s' := by
  have hS := h.synced.sound
  have hsync := h.synced.step hs
  cases change hS.base hs with
  | handled hq ha hann =>
    cases hq with
    | refused hp =>
      refine h.turn hsync ha (.refl _) (by simp) (fun _ _ _ _ r hr => ⟨r, hr, rfl⟩) (by simp) ?_
      rw [hann]
      refine h.hidden.dims (dims_follow fun id e he => ?_) le_rfl fun _ _ r hr hdel => ⟨r, hr, hdel⟩
      rw [some.inj he] at hp
      exact hp
    | begins hb =>
      refine h.turn hsync ha (.refl _) (fun w hw => ?_)
        (fun _ _ _ _ r hr => ⟨r, hr, rfl⟩) (fun _ _ _ r hr => ⟨r, hr, rfl⟩) (hann ▸ h.hidden)
      cases hw
      intro j hj
      cases hb <;> cases hj
    | renewed hrow => exact h.renew hsync ho hrow ha hann
  | @resumed u _ _ r t hu hd ha hann =>
    refine h.turn hsync ha (fun _ hv => (Table.mem_del.1 hv).1)
      (fun w hw j hj => h.reaps u hu j ((hd.wait hw).2.1 j hj))
      (fun _ _ j _ => (rowsKept_done hd).lease) (fun _ _ j => (rowsKept_done hd).lease) ?_
    rw [hann]
    exact h.hidden.done h.synced.copied (h.reaps u hu) hd
  | reaps he ha hann =>
    refine h.turn hsync ha (.refl _) (fun w hw j hj => ?_) (fun _ _ _ _ r hr => ⟨r, hr, rfl⟩)
      (fun _ _ _ r hr => ⟨r, hr, rfl⟩) (hann ▸ h.hidden)
    cases hw
    exact mem_expiredIds (he ▸ hj) hS.base.rows
  | quiet hdb hnow htasks hann =>
    refine { synced := hsync, reaps := fun u hu j hj => ?_, hidden := ?_ }
    · rcases htasks u hu with hu | ⟨-, hw⟩
      · obtain ⟨r, hr, hle⟩ := h.reaps u hu j hj
        exact ⟨r, hdb ▸ hr, hle.trans hnow⟩
      · rw [hw] at hj
        cases hj
    · rw [hann]
      exact h.hidden.dims (.refl s.api.db s.anns) hnow fun _ _ r hr hdel => ⟨r, hdb ▸ hr, hdel⟩
  | @create body secret id ha hann =>
    obtain he | ⟨a, r, he, hf, hdel, -⟩ :=
      create_cases cfg cap body secret id s.api.now s.api.db s.anns <;> rw [he] at hann
    · exact h.same hsync ha (hann ▸ .refl _ _)
    · refine ⟨hsync, ha ▸ h.reaps, ?_⟩
      rw [ha, hann]
      intro c hc r' hr' hd
      rcases mem_append.1 hc with hc | hc
      · exact h.hidden c hc r' hr' hd
      · cases mem_singleton.1 hc
        rw [hf] at hr'
        rw [← some.inj hr', hdel] at hd
        cases hd
  | update ha hann => exact h.same hsync ha (hann ▸ dims_update hS.ids)
  | delete ha hann => exact h.same hsync ha (hann ▸ dims_delete)
  | admin ha hann => exact h.same hsync ha (hann ▸ dims_admin hS.ids ho)

end

lemma getAnnouncement_eq {now : ℕ} {anns : List Announcement} {a : Announcement}
    (hn : (anns.map (·.announcementId)).Nodup) : getAnnouncement id now anns = some a ↔
      findAnn id anns = some a ∧ a.enabled = true ∧ now < a.expiresAt := by
  constructor
  · intro h
    have hp := find?_some h
    simp only [and_eq_true, decide_eq_true_eq] at hp
    obtain ⟨⟨hid, hen⟩, hexp⟩ := hp
    refine ⟨?_, hen, hexp⟩
    have hm := mem_of_find?_eq_some h
    cases hf : findAnn id anns with
    | none => exact absurd hid (by simpa using find?_eq_none.1 hf a hm)
    | some c =>
      refine congrArg some (inj_on_of_nodup_map hn (mem_of_find?_eq_some hf) hm ?_)
      exact (by simpa using find?_some hf : c.announcementId = id).trans hid.symm
  · rintro ⟨hf, hen, hexp⟩
    have hid : a.announcementId = id := by simpa using find?_some hf
    have hm := mem_of_find?_eq_some hf
    cases hg : getAnnouncement id now anns with
    | none => exact absurd (find?_eq_none.1 hg a hm) (by simp [hid, hen, hexp])
    | some =>
      have hp := find?_some hg
      simp only [and_eq_true, decide_eq_true_eq] at hp
      exact congrArg some (inj_on_of_nodup_map hn (mem_of_find?_eq_some hg) hm
        (hp.1.1.trans hid.symm))

def announcedThen (q : Api.Request) (d : Api.Draw) : List Admin.Label :=
  announced.map .base ++ [.base (.request (.tunnel q)), .base (.api (.exec 1 d)),
    .base (.api (.resume 1 .answered true))]

end TunnelMate.Announce
