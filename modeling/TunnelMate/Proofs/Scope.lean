import TunnelMate.AnnounceAdmin
import TunnelMate.Proofs.Foreign

/-!
# What a management secret reaches

A request without a management secret of a tunnel is answered as if the tunnel did not exist, and
what it does is done to other tunnels.
-/

namespace TunnelMate.Announce

open List Option Table Bool Api

open Api (Authorised Base Clear Done Handled Undrawn Foreign findRow tunnelForOwner)

/-! ## The handlers -/

variable {a : Announcement} {body : AnnouncementCreate}

section Handlers

variable {cfg : Settings} {cap : Bytes → Bytes} {now : ℕ} {db : List Api.Row}
  {anns : List Announcement} {T id x : Bytes} {f : Announcement → Announcement} {t : Api.Turn}

def ofTunnel (T : Bytes) (anns : List Announcement) : List Announcement :=
  anns.filter (·.tunnelId = T)

lemma ofTunnel_map (hf : ∀ a ∈ anns, (f a).tunnelId = a.tunnelId)
    (hT : ∀ a ∈ anns, a.tunnelId = T → f a = a) : ofTunnel T (anns.map f) = ofTunnel T anns := by
  unfold ofTunnel
  rw [List.filter_map]
  have hp : anns.filter ((fun a => decide (a.tunnelId = T)) ∘ f) =
      anns.filter fun a => decide (a.tunnelId = T) :=
    filter_congr fun a ha => by simp only [Function.comp, hf a ha]
  rw [hp]
  have hm : (anns.filter fun a => decide (a.tunnelId = T)).map f =
      (anns.filter fun a => decide (a.tunnelId = T)).map id :=
    map_congr_left fun a ha => hT a (mem_filter.1 ha).1 (of_decide_eq_true (mem_filter.1 ha).2)
  rw [hm, List.map_id]

lemma ofTunnel_updateOf (hne : id ≠ T) (hf : ∀ a, (f a).tunnelId = a.tunnelId) :
    ofTunnel T (updateOf id f anns) = ofTunnel T anns := by
  refine ofTunnel_map (fun a _ => ?_) fun a _ hT => if_neg ?_
  · split_ifs
    · exact hf a
    · rfl
  · rw [hT]
    exact hne.symm

lemma ofTunnel_updateAnn (h : ∀ a ∈ anns, a.announcementId = id → a.tunnelId ≠ T)
    (hf : ∀ a, (f a).tunnelId = a.tunnelId) :
    ofTunnel T (updateAnn id f anns) = ofTunnel T anns := by
  refine ofTunnel_map (fun a _ => ?_) fun a ha hT => if_neg fun hi => h a ha hi hT
  split_ifs
  · exact hf a
  · rfl

lemma ofTunnel_follow (h : Foreign T db t) : ofTunnel T (follow now t anns) = ofTunnel T anns := by
  unfold follow
  split
  · rename_i id e he
    exact ofTunnel_updateOf (fun hT => h.renewed e (hT ▸ he)) fun _ => rfl
  · rename_i id he
    exact ofTunnel_updateOf (fun hT => h.deleted (hT ▸ he)) fun _ => rfl
  · rfl

lemma AnnouncementPatch.apply_ids (body : AnnouncementPatch) (json : Option Bytes)
    (a : Announcement) : (body.apply json now a).tunnelId = a.tunnelId ∧
      (body.apply json now a).announcementId = a.announcementId := by
  unfold AnnouncementPatch.apply
  split_ifs <;> exact ⟨rfl, rfl⟩

section

variable (hn : (anns.map (·.announcementId)).Nodup)
include hn

lemma announcement_ne {secret : Option Bytes} (hs : ¬ Authorised cap T secret db)
    (h : announcementForOwner cap id secret db anns = some a) :
    ∀ c ∈ anns, c.announcementId = id → c.tunnelId ≠ T := by
  intro c hc hid
  obtain ⟨hf, ho⟩ := filter_eq_some_iff.1 h
  obtain ⟨row, hrow⟩ := isSome_iff_exists.1 ho
  have ha : a ∈ anns := mem_of_find?_eq_some hf
  have hai : a.announcementId = id := by simpa using find?_some hf
  rw [inj_on_of_nodup_map hn hc ha (hid.trans hai.symm)]
  exact owner_ne hs hrow

omit hn in
lemma announcement_missing {secret : Option Bytes} (h : findAnn x anns = none) :
    announcementForOwner cap x secret db anns = none := by
  unfold announcementForOwner
  rw [h]
  rfl

omit hn in
lemma ofTunnel_create {secret : Option Bytes} (hs : ¬ Authorised cap T secret db) :
    ofTunnel T (createAnnouncement cfg cap body secret id now db anns).1 = ofTunnel T anns := by
  unfold createAnnouncement
  split
  · rfl
  · rename_i row hrow
    split
    · rfl
    · split_ifs
      · rfl
      · have hT : row.tunnelId ≠ T := (present_of_owner hrow).2.1 ▸ owner_ne hs hrow
        simp [ofTunnel, hT]

lemma ofTunnel_update {body : AnnouncementPatch} {secret : Option Bytes}
    (hs : ¬ Authorised cap T secret db) :
    ofTunnel T (updateAnnouncement cap id body secret now db anns).1 = ofTunnel T anns := by
  unfold updateAnnouncement
  split
  · rfl
  · rename_i a ha
    split
    · rfl
    · exact ofTunnel_updateAnn (announcement_ne hn hs ha) fun a => (body.apply_ids _ a).1

lemma ofTunnel_delete {secret : Option Bytes} (hs : ¬ Authorised cap T secret db) :
    ofTunnel T (deleteAnnouncement cap id secret now db anns).1 = ofTunnel T anns := by
  unfold deleteAnnouncement
  split
  · rfl
  · rename_i a ha
    exact ofTunnel_updateAnn (announcement_ne hn hs ha) fun _ => rfl

end

end Handlers

/-! ## Runs with announcements -/

section Runs

variable {cfg : Settings} {cap : Bytes → Bytes} {digest : Bytes → Digest} {s s' : State} {l : Label}
  {i : Api.Label} {T x : Bytes} {n : Ref} {q q' : Request}

def Request.secret : Request → Option Bytes
  | .tunnel q => q.secret
  | .getTunnel _ secret | .createAnnouncement _ secret _ | .updateAnnouncement _ _ secret
  | .deleteAnnouncement _ secret => secret

def Request.byAdmin : Request → Bool
  | .tunnel q => q.byAdmin
  | _ => false

def Request.drawn : Request → Option Bytes
  | .tunnel q => q.drawn
  | _ => none

def Request.tunnelId : Request → Option Bytes
  | .tunnel q => q.tunnelId
  | .getTunnel id _ => some id
  | .createAnnouncement body _ _ => some body.tunnelId
  | _ => none

def Request.withTunnelId (x : Bytes) : Request → Option Request
  | .tunnel q => some (.tunnel (q.withTunnelId x))
  | .getTunnel _ secret => some (.getTunnel x secret)
  | .createAnnouncement body secret id =>
    if h : 8 ≤ charCount x ∧ charCount x ≤ 32 then
      some (.createAnnouncement { body with tunnelId := x, length_tunnelId := h } secret id)
    else none
  | _ => none

def Request.announcementId : Request → Option Bytes
  | .updateAnnouncement id _ _ | .deleteAnnouncement id _ => some id
  | _ => none

def Request.withAnnouncementId (x : Bytes) : Request → Request
  | .updateAnnouncement _ body secret => .updateAnnouncement x body secret
  | .deleteAnnouncement _ secret => .deleteAnnouncement x secret
  | q => q

def Outside (cap : Bytes → Bytes) (T : Bytes) (s : State) (q : Request) : Prop :=
  q.byAdmin = false ∧ ¬ Authorised cap T q.secret s.api.db

def NoSecret (cap : Bytes → Bytes) (T : Bytes) (s : State) (l : Label) : Prop :=
  ∀ q, l = .request q → Outside cap T s q

def OfRequest (n : Ref) (s : Api.State) : Label → Prop
  | .request _ | .fetched _ _ => True
  | .api (.exec c _) | .api (.drop c) =>
    n ≤ c ∧ (get c s.sent).any (·.wait.ofRequest) = true
  | .api (.resume c _ _) => n ≤ c ∧ (get c s.tasks).any (·.wait.ofRequest) = true
  | .api _ => False

def Label.toApi : Label → Option Api.Label
  | .request (.tunnel q) => some (.request q)
  | .request _ | .fetched _ _ | .api (.request _) => none
  | .api i => some i

lemma apiStep_some (h : s.apiStep cfg cap digest i = some s') :
    Api.step cfg.toSettings cap digest s.api i = some s'.api ∧
      s'.anns = (turnOf cfg cap s.api i).elim s.anns fun t => follow s.api.now t s.anns := by
  obtain ⟨a, ha, rfl⟩ := map_eq_some_iff.1 h
  exact ⟨ha, rfl⟩

lemma step_request (h : step cfg cap digest s (.request q) = some s') : s.api.serving = true := by
  unfold step at h
  cases hv : s.api.serving with
  | true => rfl
  | false => simp [hv] at h

lemma label_cases (hl : l.toApi = some i) :
    (∃ q, l = .request (.tunnel q) ∧ i = .request q) ∨ l = .api i := by
  cases l with
  | request q =>
    cases q with
    | tunnel q => exact .inl ⟨q, rfl, (some.inj hl).symm⟩
    | _ => cases hl
  | fetched => cases hl
  | api j =>
    cases j with
    | request q => cases hl
    | _ => exact .inr (congrArg Label.api (some.inj hl))

/-- What a step does to the tables and the coroutines, and what a request's call to the broker. -/
inductive Change (cfg : Settings) (cap : Bytes → Bytes) (digest : Bytes → Digest) (s s' : State) :
    Admin.Label → Prop
  | handled {q : Api.Request} {rate : Api.RateWindow} {t : Api.Turn} :
      Handled cfg.toSettings cap s.api.now s.api.db q t →
      s'.api = { s.api with rate := rate }.turn t → s'.anns = follow s.api.now t s.anns →
      Change cfg cap digest s s' (.base (.request (.tunnel q)))
  | resumed {u : Api.Task} {o : Api.Outcome} {stored : Bool} {r : Except Api.BrokerExc Api.Answer}
      {t : Api.Turn} : u ∈ s.api.tasks → Done cfg.toSettings cap s.api.now s.api.db r u.wait t →
      s'.api = (s.api.resumed u).turn t → s'.anns = follow s.api.now t s.anns →
      Change cfg cap digest s s' (.base (.api (.resume u.ref o stored)))
  | reaps {id : Bytes} {rest : List Bytes} : expiredIds s.api.now s.api.db = id :: rest →
      s'.api = s.api.turn { db := s.api.db, wait := some (.reap id rest) } → s'.anns = s.anns →
      Change cfg cap digest s s' (.base (.api .reap))
  /-- The new coroutine is `restore_runtime`. -/
  | quiet {l : Label} : s'.api.db = s.api.db → s.api.now ≤ s'.api.now →
      (∀ u ∈ s'.api.tasks, u ∈ s.api.tasks ∨ u.wait.owned = none ∧ u.wait.reaps = []) →
      s'.anns = s.anns → (∀ n, OfRequest n s.api l → s'.api.broker = s.api.broker ∨
        ∃ u ∈ s.api.sent, n ≤ u.ref ∧ u.wait.ofRequest = true ∧
          ∃ d a, u.wait.call.exec digest d s.api.broker = some (s'.api.broker, a)) →
      Change cfg cap digest s s' (.base l)
  | create {body : AnnouncementCreate} {secret : Option Bytes} {id : Bytes} : s'.api = s.api →
      s'.anns = (createAnnouncement cfg cap body secret id s.api.now s.api.db s.anns).1 →
      Change cfg cap digest s s' (.base (.request (.createAnnouncement body secret id)))
  | update {id : Bytes} {body : AnnouncementPatch} {secret : Option Bytes} : s'.api = s.api →
      s'.anns = (updateAnnouncement cap id body secret s.api.now s.api.db s.anns).1 →
      Change cfg cap digest s s' (.base (.request (.updateAnnouncement id body secret)))
  | delete {id : Bytes} {secret : Option Bytes} : s'.api = s.api →
      s'.anns = (deleteAnnouncement cap id secret s.api.now s.api.db s.anns).1 →
      Change cfg cap digest s s' (.base (.request (.deleteAnnouncement id secret)))
  | admin {q : Admin.Request} : s'.api = s.api →
      s'.anns = (Admin.handle q s.api.now s.anns).1 → Change cfg cap digest s s' (.request q)

lemma change_api (hb : Base digest s.api) (hl : l.toApi = some i)
    (hs : s.apiStep cfg cap digest i = some s') : Change cfg cap digest s s' (.base l) := by
  obtain ⟨hst, hann⟩ := apiStep_some hs
  obtain ⟨q, rfl, rfl⟩ | rfl := label_cases hl
  · exact .handled (handle_handled q) (step_request_eq hst) hann
  have hd := hb.does hst
  obtain ⟨a', anns', reads, next, responses⟩ := s'
  cases hd with
  | request => cases hl
  | tick hn => exact .quiet rfl hn (fun _ hu => .inl hu) hann fun _ ho => ho.elim
  | reap _ he => exact .reaps he rfl hann
  | @exec d u b a hu _ hx =>
    refine .quiet rfl le_rfl (fun _ hu => .inl hu) hann fun n ho => .inr ⟨u, hu, ho.1, ?_, d, a, hx⟩
    have hg : get u.ref s.api.sent = some u := get_of_mem hb.sent.nodup hu
    simpa [hg] using ho.2
  | drop => exact .quiet rfl le_rfl (fun _ hu => .inl hu) hann fun _ _ => .inl rfl
  | resume hu =>
    obtain ⟨v, hv, h⟩ := bind_eq_some_iff.1 hst
    obtain ⟨r, hr, he⟩ := map_eq_some_iff.1 h
    cases (get_of_mem hb.tasks.nodup hu).symm.trans hv
    refine .resumed hu resume_done he.symm ?_
    rw [hann, turnOf, hv, bind_some, hr, map_some, elim_some]
  | idle | broker | brokerRestart =>
    exact .quiet rfl le_rfl (fun _ hu => .inl hu) hann fun _ ho => ho.elim
  | apiRestart =>
    refine .quiet rfl le_rfl (fun u hu => .inr ?_) hann fun _ ho => ho.elim
    cases mem_singleton.1 hu
    exact ⟨rfl, rfl⟩

lemma step_split {l : Admin.Label} (hs : Admin.step cfg cap digest s l = some s') :
    (∃ l' i, l = .base l' ∧ l'.toApi = some i ∧ s.apiStep cfg cap digest i = some s') ∨
      s'.api = s.api ∧ Change cfg cap digest s s' l := by
  have same : ∀ {s' : State} {l}, s'.api = s.api → s'.anns = s.anns →
      Change cfg cap digest s s' (.base l) := fun ha hann =>
    .quiet (by rw [ha]) (by rw [ha]) (fun u hu => .inl (ha ▸ hu)) hann fun _ _ => .inl (by rw [ha])
  cases l with
  | request =>
    obtain ⟨-, h⟩ := ite_none_right_eq_some.1 hs
    cases h
    exact .inr ⟨rfl, .admin rfl rfl⟩
  | base l =>
    cases l with
    | request q =>
      have hv := step_request hs
      simp only [Admin.step, step, hv, Bool.not_true, false_eq_true, if_false] at hs
      cases q with
      | tunnel => exact .inl ⟨_, _, rfl, rfl, hs⟩
      | getTunnel =>
        cases hs
        unfold getTunnel
        split <;> exact .inr ⟨rfl, same rfl rfl⟩
      | createAnnouncement =>
        cases hs
        exact .inr ⟨rfl, .create rfl rfl⟩
      | updateAnnouncement =>
        cases hs
        exact .inr ⟨rfl, .update rfl rfl⟩
      | deleteAnnouncement =>
        cases hs
        exact .inr ⟨rfl, .delete rfl rfl⟩
    | fetched =>
      obtain ⟨row, -, rfl⟩ := map_eq_some_iff.1 hs
      exact .inr ⟨rfl, same rfl rfl⟩
    | api j =>
      cases j with
      | request => cases hs
      | _ => exact .inl ⟨_, _, rfl, rfl, hs⟩

lemma change {l : Admin.Label} (hb : Base digest s.api)
    (hs : Admin.step cfg cap digest s l = some s') : Change cfg cap digest s s' l := by
  obtain ⟨l, i, rfl, hl, hs⟩ | ⟨-, h⟩ := step_split hs
  · exact change_api hb hl hs
  · exact h

lemma api_of_step {l : Admin.Label} (hs : Admin.step cfg cap digest s l = some s') :
    s'.api = s.api ∨ ∃ i, Api.step cfg.toSettings cap digest s.api i = some s'.api ∧
      ∀ q, i = .request q → l = .base (.request (.tunnel q)) := by
  obtain ⟨l, i, rfl, hl, hs⟩ | ⟨ha, -⟩ := step_split hs
  · refine .inr ⟨i, (apiStep_some hs).1, ?_⟩
    rintro q rfl
    obtain ⟨q', rfl, he⟩ | rfl := label_cases hl
    · cases he
      rfl
    · cases hl
  · exact .inl ha

structure Sound (digest : Bytes → Digest) (s : State) : Prop where
  base : Base digest s.api
  ids : (s.anns.map (·.announcementId)).Nodup

variable {anns : List Announcement} {f : Announcement → Announcement}

lemma ids_map (hf : ∀ a, (f a).announcementId = a.announcementId) :
    (anns.map f).map (·.announcementId) = anns.map (·.announcementId) := by
  rw [List.map_map]
  exact map_congr_left fun a _ => hf a

lemma ids_if {c : Announcement → Prop} [DecidablePred c]
    (hf : ∀ a, (f a).announcementId = a.announcementId) (a : Announcement) :
    (if c a then f a else a).announcementId = a.announcementId := by
  split_ifs
  · exact hf a
  · rfl

lemma ids_updateAnn {id : Bytes}
    (hn : (anns.map (·.announcementId)).Nodup) (hf : ∀ a, (f a).announcementId = a.announcementId) :
    ((updateAnn id f anns).map (·.announcementId)).Nodup := by
  rw [updateAnn, ids_map (ids_if hf)]
  exact hn

variable {t : Api.Turn}

lemma ids_follow {now : ℕ} :
    (follow now t anns).map (·.announcementId) = anns.map (·.announcementId) := by
  unfold follow
  split
  · exact ids_map (ids_if fun _ => rfl)
  · exact ids_map (ids_if fun _ => rfl)
  · rfl

lemma ids_create {secret : Option Bytes} {id : Bytes} {now : ℕ}
    {db : List Api.Row} (hn : (anns.map (·.announcementId)).Nodup) :
    ((createAnnouncement cfg cap body secret id now db anns).1.map (·.announcementId)).Nodup := by
  unfold createAnnouncement
  split
  · exact hn
  · split
    · exact hn
    · split_ifs with hf
      · exact hn
      · rw [map_append, nodup_append]
        refine ⟨hn, by simp, fun y hy z hz => ?_⟩
        obtain ⟨a, ha, rfl⟩ := mem_map.1 hy
        obtain rfl : z = id := by simpa using hz
        have hne : ∀ c ∈ anns, c.announcementId ≠ z := by simpa [findAnn] using hf
        exact hne a ha

lemma AdminAnnouncementPatch.apply_ids {now : ℕ} (body : AdminAnnouncementPatch)
    (json : Option Bytes) (a : Announcement) :
    (body.apply json now a).announcementId = a.announcementId := by
  unfold AdminAnnouncementPatch.apply
  split_ifs <;> rfl

lemma Sound.step {l : Admin.Label} (h : Sound digest s)
    (hs : Admin.step cfg cap digest s l = some s') : Sound digest s' := by
  refine ⟨?_, ?_⟩
  · obtain ha | ⟨i, hi, -⟩ := api_of_step hs
    · exact ha ▸ h.base
    · exact h.base.step hi
  cases change h.base hs with
  | handled _ _ hann | resumed _ _ _ hann =>
    rw [hann, ids_follow]
    exact h.ids
  | reaps _ _ hann | quiet _ _ _ hann _ => exact hann ▸ h.ids
  | create _ hann => exact hann ▸ ids_create h.ids
  | update _ hann =>
    rw [hann, updateAnnouncement]
    split
    · exact h.ids
    · split
      · exact h.ids
      · exact ids_updateAnn h.ids fun a => (AnnouncementPatch.apply_ids _ _ a).2
  | delete _ hann =>
    rw [hann, deleteAnnouncement]
    split
    · exact h.ids
    · exact ids_updateAnn h.ids fun _ => rfl
  | @admin q _ hann =>
    rw [hann]
    cases q with
    | updateAnnouncement =>
      unfold Admin.handle adminUpdateAnnouncement
      dsimp only
      split
      · exact h.ids
      · split
        · exact h.ids
        · exact ids_updateAnn h.ids fun a => AdminAnnouncementPatch.apply_ids _ _ a
    | deleteAnnouncement =>
      unfold Admin.handle adminDeleteAnnouncement
      dsimp only
      split_ifs
      · exact h.ids.sublist (filter_sublist.map _)
      · exact h.ids

lemma Sound.init (h : Init s) : Sound digest s := by
  refine ⟨.init h.1, ?_⟩
  rw [h.2]
  exact nodup_nil

lemma turn_unchanged (hf : Foreign T s.api.db t) (hdb : s'.api.db = t.db)
    (hann : s'.anns = follow s.api.now t s.anns) :
    findRow T s'.api.db = findRow T s.api.db ∧ ofTunnel T s'.anns = ofTunnel T s.anns := by
  rw [hdb, hann]
  exact ⟨hf.row, ofTunnel_follow hf⟩

lemma own_unchanged (hS : Sound digest s) (hc : Clear n T s.api) (ho : OfRequest n s.api l)
    (hq : NoSecret cap T s l) (h : step cfg cap digest s l = some s') :
    findRow T s'.api.db = findRow T s.api.db ∧ ofTunnel T s'.anns = ofTunnel T s.anns := by
  cases change (l := .base l) hS.base h with
  | handled hh ha hann =>
    obtain ⟨hb, hsec⟩ := hq _ rfl
    exact turn_unchanged (hh.foreign hb hsec) (by rw [ha, turn_db]) hann
  | @resumed u _ _ _ _ hu hd ha hann =>
    obtain ⟨hn, hw⟩ := ho
    have hg : get u.ref s.api.tasks = some u := get_of_mem hS.base.tasks.nodup hu
    rw [hg, any_some] at hw
    have hf := hd.foreign hc.named (hc.owned u (.inl hu) hn) (not_mem_reaps hw)
    exact turn_unchanged hf (by rw [ha, turn_db]) hann
  | reaps => exact ho.elim
  | quiet hdb _ _ hann _ => exact ⟨by rw [hdb], by rw [hann]⟩
  | create ha hann => exact ⟨by rw [ha], hann ▸ ofTunnel_create (hq _ rfl).2⟩
  | update ha hann => exact ⟨by rw [ha], hann ▸ ofTunnel_update hS.ids (hq _ rfl).2⟩
  | delete ha hann => exact ⟨by rw [ha], hann ▸ ofTunnel_delete hS.ids (hq _ rfl).2⟩

lemma own_broker (hS : Sound digest s) (hc : Clear n T s.api) (hd : Undrawn T s.api)
    (ho : OfRequest n s.api l) (h : step cfg cap digest s l = some s') :
    SameTunnel T s.api.broker s'.api.broker := by
  cases change (l := .base l) hS.base h with
  | handled _ ha _ | resumed _ _ ha _ | reaps _ ha _ =>
    rw [ha, turn_broker]
    exact .refl
  | quiet _ _ _ _ hbr =>
    obtain he | ⟨u, hu, hn, hw, d, a, hx⟩ := hbr n ho
    · exact he ▸ .refl
    · exact exec_same hS.base.wf (target_ne hw (hc.owned u (.inr hu) hn) (hd u (.inr hu))) hx
  | create ha _ | update ha _ | delete ha _ => exact ha ▸ .refl

/-! ## The reaper -/

structure Held (T : Bytes) (row : Api.Row) (anns : List Announcement) (s : State) : Prop where
  owned : ∀ u ∈ s.api.tasks, u.wait.owned ≠ some T
  reaps : ∀ u ∈ s.api.tasks, T ∈ u.wait.reaps → row.expiresAt ≤ s.api.now
  anns : ofTunnel T s.anns = anns
  row : findRow T s.api.db = some row ∨
    row.expiresAt ≤ s.api.now ∧ findRow T s.api.db = some (markDeleted row)

variable {row : Api.Row} {anns : List Announcement}

section

variable (h : Held T row anns s)
include h

lemma Held.named : Api.Named T s.api.db := by
  rcases h.row with hr | ⟨-, hr⟩ <;> exact ⟨_, findRow_some hr⟩

lemma Held.expired (hS : Sound digest s)
    (hT : T ∈ expiredIds s.api.now s.api.db) : row.expiresAt ≤ s.api.now := by
  obtain ⟨r, hr, hid⟩ := mem_map.1 hT
  obtain ⟨hm, he⟩ := mem_filter.1 hr
  simp only [and_eq_true, decide_eq_true_eq] at he
  rcases h.row with hf | ⟨hx, -⟩
  · obtain ⟨hm', hid'⟩ := findRow_some hf
    rw [← inj_on_of_nodup_map hS.base.rows hm hm' (hid.trans hid'.symm)]
    exact he.2
  · exact hx

lemma Held.turn {ts : List Api.Task} {rate : Api.RateWindow} {up : Bool}
    (hf : Foreign T s.api.db t) (hts : ts ⊆ s.api.tasks)
    (ha : s'.api = (s.api.withTasks ts rate up).turn t)
    (hann : s'.anns = follow s.api.now t s.anns) : Held T row anns s' := by
  obtain ⟨hrow, hann⟩ := turn_unchanged hf (by rw [ha, turn_db]) hann
  have hnow : s'.api.now = s.api.now := by
    rw [ha, turn_now]
    rfl
  have htasks : ∀ u ∈ s'.api.tasks, t.wait = some u.wait ∨ u ∈ s.api.tasks := by
    intro u hu
    rw [ha, mem_turn_tasks] at hu
    rcases hu with ⟨w, hw, rfl⟩ | hu
    · exact .inl hw
    · exact .inr (hts hu)
  refine ⟨fun u hu => ?_, fun u hu hT => ?_, hann.trans h.anns, ?_⟩
  · exact (htasks u hu).elim (hf.owned _) (h.owned u)
  · rw [hnow]
    exact (htasks u hu).elim (fun hw => absurd hT (hf.reaps _ hw)) fun hu => h.reaps u hu hT
  · rw [hrow, hnow]
    exact h.row

lemma Held.reaped (id : Bytes) (hx : row.expiresAt ≤ s.api.now)
    (ht : ∀ u ∈ s'.api.tasks, u.wait.owned = none ∨ u ∈ s.api.tasks)
    (hd : s'.api.db = updateRow id markDeleted s.api.db) (ha : s'.anns = s.anns)
    (hn : s'.api.now = s.api.now) : Held T row anns s' := by
  refine ⟨fun u hu => ?_, fun u hu hT => hn ▸ hx, ha ▸ h.anns, ?_⟩
  · exact (ht u hu).elim (fun he => by simp [he]) (h.owned u)
  · have hf : findRow T s'.api.db =
        (findRow T s.api.db).map fun r => if id = T then markDeleted r else r :=
      (congrArg (findRow T) hd).trans (findRow_updateRow fun _ => rfl)
    rw [hf, hn]
    by_cases hid : id = T
    · refine .inr ⟨hx, ?_⟩
      rcases h.row with hr | ⟨-, hr⟩ <;> simp [hr, hid, markDeleted]
    · simpa only [hid, if_false, Option.map_id'] using h.row

lemma Held.step (hS : Sound digest s) (hq : NoSecret cap T s l)
    (hs : Announce.step cfg cap digest s l = some s') : Held T row anns s' := by
  have other : s'.api = s.api → ofTunnel T s'.anns = ofTunnel T s.anns → Held T row anns s' :=
    fun ha he => ⟨ha ▸ h.owned, ha ▸ h.reaps, he.trans h.anns, ha ▸ h.row⟩
  cases change (l := .base l) hS.base hs with
  | handled hh ha hann =>
    obtain ⟨hb, hsec⟩ := hq _ rfl
    exact h.turn (hh.foreign hb hsec) (.refl _) ha hann
  | @resumed u _ _ _ t hu hd ha hann =>
    by_cases hT : T ∈ u.wait.reaps
    · obtain ⟨id, rest, hw⟩ := reap_of_mem hT
      obtain ⟨hdb, hresp⟩ : t.db = updateRow id markDeleted s.api.db ∧
          t.response = none := by
        rw [hw] at hd
        cases hd with
        | reaped | reapedNext => exact ⟨rfl, rfl⟩
        | restored hr | restores hr _ => cases hr
      refine h.reaped id (h.reaps u hu hT) (fun v hv => ?_) (by rw [ha, turn_db, hdb])
        (by rw [hann, follow, hresp]) (by rw [ha, turn_now]; rfl)
      rw [ha, mem_turn_tasks] at hv
      rcases hv with ⟨w, hw, rfl⟩ | hv
      · exact .inl (hd.wait hw).1
      · exact .inr (mem_del.1 hv).1
    · exact h.turn (hd.foreign h.named (h.owned u hu) hT) (fun _ hv => (mem_del.1 hv).1) ha hann
  | reaps he ha hann =>
    refine ⟨fun u hu => ?_, fun u hu hT => ?_, hann ▸ h.anns, by rw [ha]; exact h.row⟩ <;>
      rw [ha] at hu <;> rcases mem_cons.1 hu with rfl | hu
    · simp [Api.Wait.owned]
    · exact h.owned u hu
    · exact ha ▸ h.expired hS (he ▸ hT)
    · exact ha ▸ h.reaps u hu hT
  | quiet hdb hnow htasks hann _ =>
    refine ⟨fun u hu => ?_, fun u hu hT => ?_, hann ▸ h.anns, ?_⟩
    · exact (htasks u hu).elim (h.owned u) fun he => by simp [he.1]
    · refine (htasks u hu).elim (fun hu => (h.reaps u hu hT).trans hnow) fun he => ?_
      rw [he.2] at hT
      cases hT
    · rw [hdb]
      exact h.row.imp_right fun hr => ⟨hr.1.trans hnow, hr.2⟩
  | create ha hann => exact other ha (hann ▸ ofTunnel_create (hq _ rfl).2)
  | update ha hann => exact other ha (hann ▸ ofTunnel_update hS.ids (hq _ rfl).2)
  | delete ha hann => exact other ha (hann ▸ ofTunnel_delete hS.ids (hq _ rfl).2)

end

/-! ## Two requests -/

lemma apiStep_request {q q' : Api.Request}
    (h : Api.handle cfg.toSettings cap q' s.api.now s.api.mono s.api.rate s.api.db =
      Api.handle cfg.toSettings cap q s.api.now s.api.mono s.api.rate s.api.db) :
    s.apiStep cfg cap digest (.request q') = s.apiStep cfg cap digest (.request q) := by
  simp only [State.apiStep, Api.step, turnOf, h, reduceCtorEq, if_false]

lemma step_withTunnelId (hq : Outside cap T s q) (ht : q.tunnelId = some T)
    (hx : findRow x s.api.db = none) (hq' : q.withTunnelId x = some q') :
    step cfg cap digest s (.request q') = step cfg cap digest s (.request q) := by
  obtain ⟨ha, hs⟩ := hq
  have hT := owner_none hs
  cases q with
  | tunnel q =>
    cases hq'
    simp only [step, apiStep_request (handle_withTunnelId ha hs ht hx)]
  | getTunnel =>
    cases ht
    cases hq'
    simp only [Request.secret] at hT
    simp only [step, getTunnel, hT, owner_missing hx]
  | createAnnouncement =>
    cases ht
    simp only [Request.withTunnelId, dite_none_right_eq_some] at hq'
    obtain ⟨hlen, hq'⟩ := hq'
    cases hq'
    simp only [Request.secret] at hT
    simp only [step, createAnnouncement, hT, owner_missing hx]
  | updateAnnouncement _ _ _ | deleteAnnouncement _ _ => cases ht

lemma announcement_none (hS : Sound digest s) (ha : a ∈ s.anns)
    {secret : Option Bytes} (hs : ¬ Authorised cap a.tunnelId secret s.api.db) :
    announcementForOwner cap a.announcementId secret s.api.db s.anns = none := by
  cases h : announcementForOwner cap a.announcementId secret s.api.db s.anns with
  | none => rfl
  | some => exact absurd rfl (announcement_ne hS.ids hs h a ha rfl)

lemma step_withAnnouncementId (hS : Sound digest s)
    (hq : Outside cap a.tunnelId s q) (ha : a ∈ s.anns)
    (hid : q.announcementId = some a.announcementId) (hx : findAnn x s.anns = none) :
    step cfg cap digest s (.request (q.withAnnouncementId x)) =
      step cfg cap digest s (.request q) := by
  have hn := announcement_none hS ha hq.2
  cases q with
  | updateAnnouncement =>
    cases hid
    simp only [Request.secret] at hn
    simp only [Request.withAnnouncementId, step, updateAnnouncement, hn, announcement_missing hx]
  | deleteAnnouncement =>
    cases hid
    simp only [Request.secret] at hn
    simp only [Request.withAnnouncementId, step, deleteAnnouncement, hn, announcement_missing hx]
  | _ => cases hid

variable {s₀ : State} {tr₀ tr : List (State × Label)}

section

variable (h₀ : Sound digest s₀)
include h₀

lemma sound_clear (hT : findRow T s₀.api.db = some row)
    (h : Trace (step cfg cap digest) (· = s₀) tr s) (hq : ∀ p ∈ tr, NoSecret cap T p.1 p.2) :
    Sound digest s ∧ Clear s₀.api.nextRef T s.api := by
  refine h.inv_of_ok (I := fun s => Sound digest s ∧ Clear s₀.api.nextRef T s.api) ?_
    (fun s l s' hI hok hs => ⟨hI.1.step (l := .base l) hs, ?_⟩) hq
  · rintro _ rfl
    refine ⟨h₀, le_rfl, ⟨row, findRow_some hT⟩, fun u hu hr => ?_⟩
    exact absurd hr (Nat.not_le.2 (hu.elim (h₀.base.tasks.lt u) (h₀.base.sent.lt u)))
  · obtain ha | ⟨i, hi, hl⟩ := api_of_step (l := .base l) hs
    · exact ha ▸ hI.2
    · exact hI.2.step hI.1.base hi fun q hq => hok _ (Admin.Label.base.inj (hl q hq))

lemma undrawn (hd : Undrawn T s₀.api) (h : Trace (step cfg cap digest) (· = s₀) tr s)
    (hq : ∀ p ∈ tr, ∀ q, p.2 = .request q → q.drawn ≠ some T) : Undrawn T s.api := by
  have hstep : ∀ s l s', Sound digest s ∧ Undrawn T s.api →
      (∀ q, l = .request q → q.drawn ≠ some T) → step cfg cap digest s l = some s' →
      Sound digest s' ∧ Undrawn T s'.api := by
    rintro s l s' ⟨hS, hd⟩ hok hs
    refine ⟨hS.step (l := .base l) hs, ?_⟩
    obtain ha | ⟨i, hi, hl⟩ := api_of_step (l := .base l) hs
    · exact ha ▸ hd
    · exact hd.step hS.base hi fun q hq => hok _ (Admin.Label.base.inj (hl q hq))
  exact (h.inv_of_ok (by rintro _ rfl; exact ⟨h₀, hd⟩) hstep hq).2

lemma held (hT : findRow T s₀.api.db = some row)
    (h : Trace (step cfg cap digest) (· = s₀) tr s) (hq : ∀ p ∈ tr, NoSecret cap T p.1 p.2)
    (hi : ∀ u ∈ s₀.api.tasks, u.wait.owned ≠ some T ∧ T ∉ u.wait.reaps) :
    Held T row (ofTunnel T s₀.anns) s := by
  refine (h.inv_of_ok (I := fun s => Sound digest s ∧ Held T row (ofTunnel T s₀.anns) s) ?_
    (fun s l s' hI hok hs => ⟨hI.1.step (l := .base l) hs, hI.2.step hI.1 hok hs⟩) hq).2
  rintro _ rfl
  exact ⟨h₀, fun u hu => (hi u hu).1, fun u hu hm => absurd hm (hi u hu).2, rfl, .inl hT⟩

end

/-- Along a run in which nobody without admin rights presents a secret that is accepted for the
tunnel, requests leave its row and its announcements alone, and the broker's tunnel as long as its
id is not drawn again; and each does what it does with an id that does not exist. -/
theorem management_scoped (h₀ : Trace (step cfg cap digest) Init tr₀ s₀)
    (hT : findRow T s₀.api.db = some row) (h : Trace (step cfg cap digest) (· = s₀) tr s)
    (hq : ∀ p ∈ tr, NoSecret cap T p.1 p.2) :
    (∀ p ∈ tr, OfRequest s₀.api.nextRef p.1.api p.2 → ∀ u, step cfg cap digest p.1 p.2 = some u →
      findRow T u.api.db = findRow T p.1.api.db ∧ ofTunnel T u.anns = ofTunnel T p.1.anns ∧
        (Undrawn T s₀.api → (∀ p ∈ tr, ∀ q, p.2 = .request q → q.drawn ≠ some T) →
          SameTunnel T p.1.api.broker u.api.broker)) ∧ (∀ p ∈ tr, ∀ q, p.2 = .request q →
      (q.tunnelId = some T → ∀ x q', findRow x p.1.api.db = none → q.withTunnelId x = some q' →
        step cfg cap digest p.1 (.request q') = step cfg cap digest p.1 (.request q)) ∧
      ∀ a ∈ p.1.anns, a.tunnelId = T → q.announcementId = some a.announcementId →
        ∀ x, findAnn x p.1.anns = none →
          step cfg cap digest p.1 (.request (q.withAnnouncementId x)) =
            step cfg cap digest p.1 (.request q)) ∧
    ((∀ u ∈ s₀.api.tasks, u.wait.owned ≠ some T ∧ T ∉ u.wait.reaps) →
      ofTunnel T s.anns = ofTunnel T s₀.anns ∧ (findRow T s.api.db = some row ∨
          row.expiresAt ≤ s.api.now ∧ findRow T s.api.db = some (markDeleted row))) := by
  have hS₀ : Sound digest s₀ := h₀.inv (fun _ => .init) fun _ l _ hS hs => hS.step (l := .base l) hs
  refine ⟨fun p hp ho u hu => ?_, fun p hp q he => ?_, fun hi => ?_⟩
  · obtain ⟨tr', -, h', -, hsuf⟩ := h.of_mem hp
    have hmem : ∀ p' ∈ tr', p' ∈ tr := fun p' hp' => hsuf.subset (mem_cons_of_mem p hp')
    obtain ⟨hS, hc⟩ := sound_clear hS₀ hT h' fun p' hp' => hq p' (hmem p' hp')
    obtain ⟨hrow, hann⟩ := own_unchanged hS hc ho (hq p hp) hu
    refine ⟨hrow, hann, fun hd hdraw => ?_⟩
    exact own_broker hS hc (undrawn hS₀ hd h' fun p' hp' => hdraw p' (hmem p' hp')) ho hu
  · obtain ⟨tr', -, h', -, hsuf⟩ := h.of_mem hp
    have hS := (sound_clear hS₀ hT h' fun p' hp' => hq p' (hsuf.subset (mem_cons_of_mem p hp'))).1
    refine ⟨fun ht x q' hx hq' => step_withTunnelId (hq p hp q he) ht hx hq', ?_⟩
    rintro a ha rfl hid x hx
    exact step_withAnnouncementId hS (hq p hp q he) ha hid hx
  · have hh := held hS₀ hT h hq hi
    exact ⟨hh.anns, hh.row⟩

instance {secret : Option Bytes} {db : List Api.Row} : Decidable (Authorised cap T secret db) :=
  decidable_of_iff
    (secret.any (fun x => (findRow T db).any fun row => cap x = row.managementHmac) = true) <| by
      simp [Authorised, Option.any_eq_true]

instance : Decidable (NoSecret cap T s l) :=
  match l with
  | .request q => decidable_of_iff (q.byAdmin = false ∧ ¬ Authorised cap T q.secret s.api.db)
      ⟨fun h _ he => Label.request.inj he ▸ h, fun h => h q rfl⟩
  | .fetched _ _ => .isTrue fun _ he => by cases he
  | .api _ => .isTrue fun _ he => by cases he

def smallStep : State → Label → Option State :=
  step { smallSettings with brokerControlPort := 7000 } (fun x => x) padDigest

def announced : List Label :=
  [.request (.tunnel (.createTunnel {} [] false (.replicate 8 97) [7])), .api (.exec 0 {}),
    .api (.resume 0 .answered true),
    .request (.createAnnouncement ⟨.replicate 8 97, [], [], [], .ok [], by decide⟩ (some [7]) [1])]

def meddled : List Label :=
  [.request (.tunnel (.deleteTunnel (.owner (some [8])) (.replicate 8 97))),
    .request (.deleteAnnouncement [1] (some [8])),
    .request (.tunnel (.createTunnel {} [] false (.replicate 8 98) [8])), .api (.exec 1 {}),
    .api (.resume 1 .answered true),
    .request (.tunnel (.deleteTunnel (.owner (some [8])) (.replicate 8 98))), .api (.exec 2 {}),
    .api (.resume 2 .answered true)]

theorem management_scoped_small : ∃ tr s₀ s, Trace smallStep (· = s₀) tr s ∧ tr.length = 8 ∧
    (ofTunnel (replicate 8 97) s.anns).length = 1 ∧
    ofTunnel (replicate 8 97) s.anns = ofTunnel (replicate 8 97) s₀.anns := by
  have hrun : ((replay smallStep { api := smallState } announced []).bind fun r =>
      (replay smallStep r.2 meddled []).map (r, ·)).any (fun p =>
        (findRow (.replicate 8 97) p.1.2.api.db).isSome && p.1.2.api.tasks.isEmpty &&
        p.2.1.all (fun e => decide (NoSecret (fun x => x) (.replicate 8 97) e.1 e.2)) &&
        p.2.1.length = 8 && (ofTunnel (.replicate 8 97) p.2.2.anns).length = 1) = true := by
    decide +kernel
  obtain ⟨⟨⟨tr₀, s₀⟩, tr, s⟩, hr, hp⟩ := (any_eq_true _ _).1 hrun
  obtain ⟨r, hr₀, hr⟩ := bind_eq_some_iff.1 hr
  obtain ⟨r', hr₁, he⟩ := map_eq_some_iff.1 hr
  obtain ⟨rfl, rfl⟩ := Prod.mk.inj he
  simp only [and_eq_true, List.all_eq_true, decide_eq_true_eq, List.isEmpty_iff] at hp
  obtain ⟨⟨⟨⟨hrow, htasks⟩, hq⟩, hlen⟩, hann⟩ := hp
  obtain ⟨row, hrow⟩ := isSome_iff_exists.1 hrow
  have h₀ : Trace smallStep Init tr₀ s₀ :=
    replay_trace announced (.start ⟨smallState_init, rfl⟩) hr₀
  have h : Trace smallStep (· = s₀) tr s := replay_trace meddled (.start rfl) hr₁
  refine ⟨tr, s₀, s, h, hlen, hann, ?_⟩
  exact ((management_scoped h₀ hrow h hq).2.2 (by rw [htasks]; simp)).1

end Runs

end TunnelMate.Announce
