import TunnelMate.Proofs.Scope

/-!
# Announcements and their tunnels

An announcement copies columns of its tunnel's row when it is made.
-/

namespace TunnelMate.Announce

open List Option Api

open Api (Base Done Handled Row findRow tunnelForOwner)

/-! ## What is copied -/

structure Copy where
  protocol : Proto
  closed : Bool
  peerAddress : PeerAddress
  expiresAt : ℕ

def Announcement.copy (a : Announcement) : Copy :=
  { a with }

def copyOf (cfg : Settings) (r : Row) : Copy :=
  ⟨r.protocol, r.closed, peerAddress cfg r, r.expiresAt⟩

structure Announcement.Same (a' a : Announcement) : Prop where
  id : a'.announcementId = a.announcementId
  tunnel : a'.tunnelId = a.tunnelId
  copy : a'.copy = a.copy

lemma Announcement.Same.refl (a : Announcement) : a.Same a := ⟨rfl, rfl, rfl⟩

def Kept (anns anns' : List Announcement) : Prop := ∀ a' ∈ anns', ∃ a ∈ anns, a'.Same a

variable {secret : Option Bytes}

section Handlers

variable {cfg : Settings} {cap : Bytes → Bytes} {now : ℕ} {db : List Row} {t : Api.Turn}
  {anns : List Announcement} {f : Announcement → Announcement} {id : Bytes}

lemma Kept.refl (anns : List Announcement) : Kept anns anns := fun a ha => ⟨a, ha, .refl a⟩

lemma Kept.map {c : Announcement → Prop} [DecidablePred c] (hf : ∀ a, (f a).Same a) :
    Kept anns (anns.map fun a => if c a then f a else a) := by
  intro a' ha'
  obtain ⟨a, ha, rfl⟩ := mem_map.1 ha'
  refine ⟨a, ha, ?_⟩
  split_ifs
  · exact hf a
  · exact .refl a

lemma AnnouncementPatch.apply_same (body : AnnouncementPatch) (json : Option Bytes)
    (a : Announcement) : (body.apply json now a).Same a := by
  unfold AnnouncementPatch.apply
  split_ifs <;> exact ⟨rfl, rfl, rfl⟩

lemma AdminAnnouncementPatch.apply_same (body : AdminAnnouncementPatch) (json : Option Bytes)
    (a : Announcement) : (body.apply json now a).Same a := by
  unfold AdminAnnouncementPatch.apply
  split_ifs <;> exact ⟨rfl, rfl, rfl⟩

lemma AdminAnnouncementPatch.apply_enabled (body : AdminAnnouncementPatch) (json : Option Bytes)
    (a : Announcement) : (body.apply json now a).enabled = body.enabled.getD a.enabled := by
  unfold AdminAnnouncementPatch.apply
  split_ifs with h
  · rw [h.2.2.2.2.1, getD_none]
  · rfl

lemma kept_update {body : AnnouncementPatch} :
    Kept anns (updateAnnouncement cap id body secret now db anns).1 := by
  unfold updateAnnouncement
  split
  · exact .refl anns
  · split
    · exact .refl anns
    · exact .map fun a => body.apply_same _ a

lemma kept_delete : Kept anns (deleteAnnouncement cap id secret now db anns).1 := by
  unfold deleteAnnouncement
  split
  · exact .refl anns
  · exact .map fun a => ⟨rfl, rfl, rfl⟩

lemma kept_admin {q : Admin.Request} : Kept anns (Admin.handle q now anns).1 := by
  cases q with
  | updateAnnouncement id body =>
    unfold Admin.handle adminUpdateAnnouncement
    dsimp only
    split
    · exact .refl anns
    · split
      · exact .refl anns
      · exact .map fun a => body.apply_same _ a
  | deleteAnnouncement =>
    unfold Admin.handle adminDeleteAnnouncement
    dsimp only
    split_ifs
    · exact fun a ha => ⟨a, mem_of_mem_filter ha, .refl a⟩
    · exact .refl anns

lemma kept_follow (h : ∀ id e, t.response ≠ some (.renewed id e)) :
    Kept anns (follow now t anns) := by
  unfold follow
  split
  · exact absurd ‹_› (h _ _)
  · exact .map fun a => ⟨rfl, rfl, rfl⟩
  · exact .refl anns

lemma create_cases (cfg : Settings) (cap : Bytes → Bytes) (body : AnnouncementCreate)
    (secret : Option Bytes) (id : Bytes) (now : ℕ) (db : List Row) (anns : List Announcement) :
    let res := createAnnouncement cfg cap body secret id now db anns
    res.1 = anns ∨ ∃ a r, res.1 = anns ++ [a] ∧ findRow a.tunnelId db = some r ∧
      r.deleted = false ∧ a.copy = copyOf cfg r ∧
      ∀ c ∈ anns, c.announcementId ≠ a.announcementId := by
  unfold createAnnouncement
  split
  · exact .inl rfl
  · rename_i r hr
    split
    · exact .inl rfl
    · split_ifs with hf
      · exact .inl rfl
      · refine .inr ⟨_, r, rfl, ?_, (present_of_owner hr).2.2, rfl, by simpa [findAnn] using hf⟩
        have hrow := (filter_eq_some_iff.1 hr).1
        exact (findRow_some hrow).2 ▸ hrow

end Handlers

/-! ## The copies are true -/

variable {e : ℕ}

section Copied

variable {cfg : Settings} {cap : Bytes → Bytes} {now : ℕ} {db db' : List Row} {t : Api.Turn}
  {anns anns' : List Announcement} {id : Bytes}

def Copied (cfg : Settings) (db : List Row) (anns : List Announcement) : Prop :=
  ∀ a ∈ anns, ∃ r, findRow a.tunnelId db = some r ∧ a.copy = copyOf cfg r

def RowsKept (cfg : Settings) (db db' : List Row) : Prop :=
  ∀ j r, findRow j db = some r → ∃ r', findRow j db' = some r' ∧ copyOf cfg r' = copyOf cfg r

lemma Copied.kept (h : Copied cfg db anns) (hr : RowsKept cfg db db') (hk : Kept anns anns') :
    Copied cfg db' anns' := by
  intro a' ha'
  obtain ⟨a, ha, hs⟩ := hk a' ha'
  obtain ⟨r, hf, hc⟩ := h a ha
  obtain ⟨r', hf', hc'⟩ := hr _ r hf
  exact ⟨r', hs.tunnel ▸ hf', hs.copy.trans (hc.trans hc'.symm)⟩

lemma RowsKept.refl (cfg : Settings) (db : List Row) : RowsKept cfg db db :=
  fun _ r h => ⟨r, h, rfl⟩

lemma RowsKept.lease (h : RowsKept cfg db db') {j : Bytes} (r : Row)
    (hr : findRow j db = some r) : ∃ r', findRow j db' = some r' ∧ r'.expiresAt = r.expiresAt := by
  obtain ⟨r', hr', hc⟩ := h j r hr
  exact ⟨r', hr', congrArg Copy.expiresAt hc⟩

lemma RowsKept.update {f : Row → Row} (hi : ∀ r, (f r).tunnelId = r.tunnelId)
    (hc : ∀ r, copyOf cfg (f r) = copyOf cfg r) : RowsKept cfg db (updateRow id f db) := by
  intro j r h
  rw [findRow_updateRow hi, h, map_some]
  refine ⟨_, rfl, ?_⟩
  split_ifs
  · exact hc r
  · rfl

lemma rowsKept_done {r : Except Api.BrokerExc Api.Answer} {w : Api.Wait}
    (h : Done cfg.toSettings cap now db r w t) : RowsKept cfg db t.db := by
  cases h with
  | created =>
    intro j r h
    obtain ⟨hm, hj⟩ := findRow_some h
    exact ⟨r, by rw [findRow_append ⟨r, hm, hj⟩, h], rfl⟩
  | updated => exact .update (fun _ => rfl) fun _ => rfl
  | deleted _ _ | reaped | reapedNext => exact .update (fun _ => rfl) fun _ => rfl
  | @rotated cred =>
    exact .update (fun r => r.setHmac_tunnelId _ _) fun r => by cases cred <;> rfl
  | _ => exact .refl cfg db

lemma Copied.renew (h : Copied cfg db anns) :
    Copied cfg (updateRow id (fun r => { r with expiresAt := e }) db)
      (updateOf id (fun a => { a with expiresAt := e, updatedAt := now }) anns) := by
  intro a' ha'
  obtain ⟨a, ha, rfl⟩ := mem_map.1 ha'
  obtain ⟨r, hf, hc⟩ := h a ha
  have hrow : findRow a.tunnelId (updateRow id (fun r : Row => { r with expiresAt := e }) db) =
      (findRow a.tunnelId db).map fun r : Row =>
        if id = a.tunnelId then { r with expiresAt := e } else r :=
    findRow_updateRow fun _ => rfl
  rw [hf, map_some] at hrow
  by_cases hid : a.tunnelId = id
  · rw [if_pos hid]
    rw [if_pos hid.symm] at hrow
    exact ⟨_, hrow, congrArg (fun c : Copy => { c with expiresAt := e }) hc⟩
  · rw [if_neg hid]
    rw [if_neg (Ne.symm hid)] at hrow
    exact ⟨_, hrow, hc⟩

end Copied

/-! ## Steps -/

section Steps

variable {cfg : Settings} {cap : Bytes → Bytes} {digest : Bytes → Digest} {s s' : State}
  {l : Admin.Label}

variable {a a' : Announcement}

lemma Copied.step (h : Copied cfg s.api.db s.anns) (hc : Change cfg cap digest s s' l) :
    Copied cfg s'.api.db s'.anns := by
  cases hc with
  | handled hq ha hann =>
    rw [ha, hann, turn_db]
    cases hq with
    | refused hp =>
      refine h.kept (.refl cfg _) (kept_follow fun id e he => ?_)
      rw [some.inj he] at hp
      exact hp
    | begins => exact h
    | renewed => exact h.renew
  | resumed _ hd ha hann =>
    rw [ha, hann, turn_db]
    exact h.kept (rowsKept_done hd) (kept_follow fun _ _ => hd.renewed)
  | reaps _ ha hann =>
    rw [ha, hann, turn_db]
    exact h
  | quiet hdb _ _ hann =>
    rw [hdb, hann]
    exact h
  | @create body secret id ha hann =>
    rw [ha, hann]
    obtain he | ⟨a, r, he, hf, -, hcopy, -⟩ :=
      create_cases cfg cap body secret id s.api.now s.api.db s.anns
    · rw [he]
      exact h
    · rw [he]
      intro c hc
      rcases mem_append.1 hc with hc | hc
      · exact h c hc
      · cases mem_singleton.1 hc
        exact ⟨r, hf, hcopy⟩
  | update ha hann =>
    rw [ha, hann]
    exact h.kept (.refl cfg _) kept_update
  | delete ha hann =>
    rw [ha, hann]
    exact h.kept (.refl cfg _) kept_delete
  | admin ha hann =>
    rw [ha, hann]
    exact h.kept (.refl cfg _) kept_admin

structure Synced (cfg : Settings) (digest : Bytes → Digest) (s : State) : Prop where
  sound : Sound digest s
  copied : Copied cfg s.api.db s.anns

lemma Synced.init (h : Init s) : Synced cfg digest s := by
  refine ⟨.init h, ?_⟩
  rw [h.2]
  intro a ha
  cases ha

lemma Synced.step (h : Synced cfg digest s) (hs : Admin.step cfg cap digest s l = some s') :
    Synced cfg digest s' :=
  ⟨h.sound.step hs, h.copied.step (change h.sound.base hs)⟩

def Admin.Label.onAnnouncements : Admin.Label → Bool
  | .request _ => true
  | .base (.request (.createAnnouncement _ _ _)) => true
  | .base (.request (.updateAnnouncement _ _ _)) => true
  | .base (.request (.deleteAnnouncement _ _)) => true
  | _ => false

lemma Kept.same {anns anns' : List Announcement} (h : Kept anns anns')
    (hn : (anns.map (·.announcementId)).Nodup) (ha : a ∈ anns) (ha' : a' ∈ anns')
    (hid : a'.announcementId = a.announcementId) : a'.Same a := by
  obtain ⟨c, hc, hs⟩ := h a' ha'
  obtain rfl : c = a := inj_on_of_nodup_map hn hc ha (hs.id.symm.trans hid)
  exact hs

lemma same_of_request (hS : Sound digest s) (hl : l.onAnnouncements = true)
    (hs : Admin.step cfg cap digest s l = some s') (ha : a ∈ s.anns)
    (ha' : a' ∈ s'.anns) (hid : a'.announcementId = a.announcementId) : a'.Same a := by
  cases change hS.base hs with
  | handled | resumed | reaps => cases hl
  | quiet _ _ _ hann =>
    rw [hann] at ha'
    exact (Kept.refl s.anns).same hS.ids ha ha' hid
  | @create body secret id _ hann =>
    rw [hann] at ha'
    obtain he | ⟨c, r, he, -, -, -, hne⟩ :=
      create_cases cfg cap body secret id s.api.now s.api.db s.anns <;> rw [he] at ha'
    · exact (Kept.refl s.anns).same hS.ids ha ha' hid
    · rcases mem_append.1 ha' with ha' | ha'
      · exact (Kept.refl s.anns).same hS.ids ha ha' hid
      · cases mem_singleton.1 ha'
        exact absurd hid.symm (hne a ha)
  | update _ hann => exact kept_update.same hS.ids ha (hann ▸ ha') hid
  | delete _ hann => exact kept_delete.same hS.ids ha (hann ▸ ha') hid
  | admin _ hann => exact kept_admin.same hS.ids ha (hann ▸ ha') hid

lemma renewed_announcements {id : Bytes}
    (hs : step cfg cap digest s (.request (.tunnel (.renewTunnel id secret))) = some s')
    (hr : s'.api.responses = .renewed id e :: s.api.responses)
    (ha : a ∈ s'.anns) (hid : a.tunnelId = id) : a.expiresAt = e := by
  have hv := step_request hs
  simp only [step, hv, Bool.not_true, Bool.false_eq_true, if_false] at hs
  obtain ⟨hst, hann⟩ := apiStep_some hs
  rw [step_request_eq hst, turn_responses] at hr
  rw [turnOf, elim_some] at hann
  generalize (handle cfg.toSettings cap (.renewTunnel id secret) s.api.now s.api.mono
    s.api.rate s.api.db).1 = t at hr hann
  have hresp : t.response = some (.renewed id e) := by
    cases ht : t.response with
    | none =>
      rw [ht] at hr
      exact absurd hr (ne_cons_self)
    | some =>
      rw [ht] at hr
      exact congrArg some (cons.inj hr).1
  rw [hann, follow, hresp] at ha
  obtain ⟨c, -, rfl⟩ := mem_map.1 ha
  split_ifs at hid ⊢ with hc
  · rfl
  · exact absurd hid hc

/-- In every run, with any requests of owners and admins, what an announcement copies is what its
tunnel has. -/
theorem announcements_copy {tr : List (State × Admin.Label)}
    (h : Trace (Admin.step cfg cap digest) Init tr s) :
    (∀ a ∈ s.anns, ∃ r, findRow a.tunnelId s.api.db = some r ∧ a.protocol = r.protocol ∧
      a.closed = r.closed ∧ a.peerAddress = peerAddress cfg r ∧ a.expiresAt = r.expiresAt) ∧
    (∀ l s', l.onAnnouncements = true → Admin.step cfg cap digest s l = some s' →
      ∀ a ∈ s.anns, ∀ a' ∈ s'.anns, a'.announcementId = a.announcementId →
        a'.protocol = a.protocol ∧ a'.closed = a.closed ∧ a'.peerAddress = a.peerAddress ∧
          a'.expiresAt = a.expiresAt) ∧ ∀ id secret e s', Admin.step cfg cap digest s
        (.base (.request (.tunnel (.renewTunnel id secret)))) = some s' →
      s'.api.responses = .renewed id e :: s.api.responses →
      ∀ a ∈ s'.anns, a.tunnelId = id → a.expiresAt = e := by
  have hS : Synced cfg digest s := h.inv (fun _ => .init) fun _ _ _ hi hs => hi.step hs
  refine ⟨fun a ha => ?_, fun l s' hl hs a ha a' ha' hid => ?_, fun id secret e s' hs hr a ha hid =>
    renewed_announcements hs hr ha hid⟩
  · obtain ⟨r, hr, hc⟩ := hS.copied a ha
    exact ⟨r, hr, Copy.mk.inj hc⟩
  · exact Copy.mk.inj (same_of_request hS.sound hl hs ha ha' hid).copy

def Admin.smallStep : State → Admin.Label → Option State :=
  Admin.step { smallSettings with brokerControlPort := 7000 } (fun x => x) padDigest

theorem announcements_copy_renewed : ∃ tr s, Trace Admin.smallStep Init tr s ∧
    s.anns.map (fun a => (a.verified, a.expiresAt)) = [(true, 20)] ∧
    ∀ a ∈ s.anns, ∃ r, findRow a.tunnelId s.api.db = some r ∧ a.expiresAt = r.expiresAt := by
  obtain ⟨tr, s, h, hv⟩ := exists_trace Admin.smallStep Init (s := { api := smallState })
    ⟨smallState_init, rfl⟩
    (announced.map .base ++ [.request (.updateAnnouncement [1] { verified := some true }),
      .base (.api (.tick 10 10)),
      .base (.request (.tunnel (.renewTunnel (replicate 8 97) (some [7]))))])
    (fun r => r.2.anns.map (fun a => (a.verified, a.expiresAt)) = [(true, 20)]) (by decide +kernel)
  refine ⟨tr, s, h, hv, fun a ha => ?_⟩
  obtain ⟨r, hr, -, -, -, he⟩ := (announcements_copy h).1 a ha
  exact ⟨r, hr, he⟩

end Steps

end TunnelMate.Announce
