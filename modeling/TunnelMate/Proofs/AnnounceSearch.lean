import Mathlib.Data.List.Infix
import TunnelMate.AnnounceSearch

/-!
# What a search finds
-/

namespace TunnelMate.Announce

open List

def Occurs (text column : Bytes) : Prop := (chars text).map lower <:+: (chars column).map lower

instance (text column : Bytes) : Decidable (Occurs text column) :=
  inferInstanceAs (Decidable (_ <:+: _))

/-- What an announcement is to have for a query. -/
def Query.wants (str : Bytes → Bytes → Option Bytes) (q : Query) (a : Announcement) : Bool :=
  decide (q.text = [] ∨ Occurs q.text a.serviceName ∨ Occurs q.text a.serviceId) && q.givens a &&
    q.attributes.all fun kv => str a.attributesJson kv.1 = some kv.2

/-- What makes a row of the query for SQLite that the filter keeps one that was not asked for: the
text matched by a wildcard only, an attribute is not there but asked to be `None`, or a key has two
values of which the last alone is tested. -/
def Query.Misread (str : Bytes → Bytes → Option Bytes) (q : Query) (a : Announcement) : Prop :=
  (q.text ≠ [] ∧ ¬ Occurs q.text a.serviceName ∧ ¬ Occurs q.text a.serviceId) ∨
    ∃ kv ∈ q.attributes, (str a.attributesJson kv.1 = none ∧ kv.2 = ascii "None") ∨
      ∃ kv' ∈ q.attributes, kv'.1 = kv.1 ∧ kv'.2 ≠ kv.2

variable {str : Bytes → Bytes → Option Bytes} {q : Query} {t s : List Bytes} {a : Announcement}
  {items : List (Bytes × Bytes)}

/-! ## `LIKE` -/

lemma like_of_prefix (h : t.map lower <+: s.map lower) : like (t ++ [[37]]) s = true := by
  induction t generalizing s with
  | nil => simp [like]
  | cons p t ih =>
    rcases s with _ | ⟨c, s⟩
    · simp at h
    rw [map_cons, map_cons, cons_prefix_cons] at h
    rw [cons_append, like.eq_def]
    dsimp only
    split_ifs
    · exact any_eq_true.2 ⟨s, (mem_tails _ _).2 (suffix_cons c s), ih h.2⟩
    · simp [h.1, ih h.2]

lemma prefix_of_like (hw : [37] ∉ t ∧ [95] ∉ t) (h : like (t ++ [[37]]) s = true) :
    t.map lower <+: s.map lower := by
  induction t generalizing s with
  | nil => exact nil_prefix
  | cons p t ih =>
    simp only [mem_cons, not_or] at hw
    obtain ⟨⟨hp, ht⟩, hp', ht'⟩ := hw
    rw [cons_append, like.eq_def] at h
    simp only [Ne.symm hp, if_false] at h
    rcases s with _ | ⟨c, s⟩
    · simp at h
    · simp only [Ne.symm hp', decide_false, Bool.false_or, Bool.and_eq_true, decide_eq_true_eq] at h
      exact cons_prefix_cons.2 ⟨h.1, ih ⟨ht, ht'⟩ h.2⟩

lemma like_anywhere : like ([37] :: t) s = s.tails.any (like t) := by
  exact if_pos rfl

lemma like_of_occurs {text column : Bytes} (h : Occurs text column) :
    like ([37] :: (chars text ++ [[37]])) (chars column) = true := by
  obtain ⟨v, hv, hs⟩ := infix_iff_prefix_suffix.1 h
  rw [suffix_iff_eq_drop, ← map_drop] at hs
  rw [like_anywhere, any_eq_true]
  exact ⟨_, (mem_tails _ _).2 (drop_suffix _ _), like_of_prefix (hs ▸ hv)⟩

lemma occurs_of_like {text column : Bytes} (hw : [37] ∉ chars text ∧ [95] ∉ chars text)
    (h : like ([37] :: (chars text ++ [[37]])) (chars column) = true) : Occurs text column := by
  rw [like_anywhere, any_eq_true] at h
  obtain ⟨u, hu, hl⟩ := h
  exact (prefix_of_like hw hl).isInfix.trans (((mem_tails _ _).1 hu).map lower).isInfix

/-! ## The attributes -/

lemma attrFilters_subset : attrFilters items ⊆ items := by
  induction items with
  | nil => exact .refl _
  | cons kv items ih =>
    rw [attrFilters]
    split_ifs
    · exact subset_cons_of_subset _ ih
    · exact cons_subset_cons _ ih

lemma exists_attrFilter {kv : Bytes × Bytes} (h : kv ∈ items) :
    ∃ kv' ∈ attrFilters items, kv'.1 = kv.1 := by
  induction items generalizing kv with
  | nil => cases h
  | cons x items ih =>
    rw [attrFilters]
    split_ifs with hx
    · obtain rfl | h := mem_cons.1 h
      · obtain ⟨y, hy, he⟩ := any_eq_true.1 hx
        obtain ⟨z, hz, hz'⟩ := ih hy
        exact ⟨z, hz, hz'.trans (of_decide_eq_true he)⟩
      · exact ih h
    · obtain rfl | h := mem_cons.1 h
      · exact ⟨_, mem_cons_self, rfl⟩
      · obtain ⟨z, hz, hz'⟩ := ih h
        exact ⟨z, mem_cons_of_mem _ hz, hz'⟩

lemma wants_eq_true : q.wants str a = true ↔
    ((q.text = [] ∨ Occurs q.text a.serviceName ∨ Occurs q.text a.serviceId) ∧
      q.givens a = true) ∧ ∀ kv ∈ q.attributes, str a.attributesJson kv.1 = some kv.2 := by
  simp only [Query.wants, Bool.and_eq_true, decide_eq_true_eq, all_eq_true]

lemma clauses_of_wants (h : q.wants str a = true) : q.clauses a = true := by
  obtain ⟨⟨ht, hg⟩, -⟩ := wants_eq_true.1 h
  simp only [Query.clauses, Bool.and_eq_true, Bool.or_eq_true, decide_eq_true_eq]
  exact ⟨ht.imp_right (.imp like_of_occurs like_of_occurs), hg⟩

lemma filters_of_wants (h : q.wants str a = true) : q.filters str a = true := by
  refine all_eq_true.2 fun kv hm => decide_eq_true ?_
  rw [(wants_eq_true.1 h).2 kv (attrFilters_subset hm), Option.getD_some]

lemma not_misread_of_wants (h : q.wants str a = true) : ¬ q.Misread str a := by
  obtain ⟨⟨ht, -⟩, ha⟩ := wants_eq_true.1 h
  rintro (⟨hn, h₁, h₂⟩ | ⟨kv, hm, ⟨hn, -⟩ | ⟨kv', hm', he, hv⟩⟩)
  · exact ht.elim hn fun h => h.elim h₁ h₂
  · exact absurd ((ha kv hm).symm.trans hn) nofun
  · have h' := ha kv' hm'
    rw [he, ha kv hm] at h'
    exact hv (Option.some.inj h').symm

lemma wants_of_not_misread (hc : q.clauses a = true) (hf : q.filters str a = true)
    (h : ¬ q.Misread str a) : q.wants str a = true := by
  obtain ⟨ht, ha⟩ := not_or.1 h
  simp only [not_and_or, not_not] at ht
  simp only [Query.clauses, Bool.and_eq_true] at hc
  refine wants_eq_true.2 ⟨⟨ht, hc.2⟩, fun kv hm => ?_⟩
  obtain ⟨kv', hm', hk⟩ := exists_attrFilter hm
  have hv : kv'.2 = kv.2 := by
    by_contra hv
    exact ha ⟨kv, hm, .inr ⟨kv', attrFilters_subset hm', hk, hv⟩⟩
  have hs := of_decide_eq_true (all_eq_true.1 hf kv' hm')
  rw [hk, hv] at hs
  cases hn : str a.attributesJson kv.1 with
  | none =>
    rw [hn, Option.getD_none] at hs
    exact absurd ⟨kv, hm, .inl ⟨hn, hs.symm⟩⟩ ha
  | some u =>
    rw [hn, Option.getD_some] at hs
    rw [hs]

/-! ## The result -/

section

variable (str : Bytes → Bytes → Option Bytes) (q : Query) (now : ℕ) (db : List Api.Row)
  (anns : List Announcement)

/-- The visible announcements that meet the clauses, the last updated first. -/
def Query.sorted : List Announcement :=
  (anns.filter fun a => visible now db a && q.clauses a).insertionSort (·.updatedAt ≥ ·.updatedAt)

/-- The announcements that are visible and asked for. -/
def Query.wanted : List Announcement := anns.filter fun a => visible now db a && q.wants str a

/-- The result is the first 200 of what is asked for, the last updated first. -/
def Query.Exact : Prop := ∃ l : List Announcement, l.Perm (q.wanted str now db anns) ∧
  l.Pairwise (·.updatedAt ≥ ·.updatedAt) ∧ search str q now db anns = l.take 200

/-- The rows SQLite gives have all that is asked for, or 200 that are. -/
def Query.Reached : Prop :=
  (q.wanted str now db anns).length ≤ ((q.sorted now db anns).take 200).countP (q.wants str) ∨
    200 ≤ ((q.sorted now db anns).take 200).countP (q.wants str)

/-- The text has no wildcards, a key has one value, and none is to be `None`. -/
def Query.Plain : Prop := ([37] ∉ chars q.text ∧ [95] ∉ chars q.text) ∧
  ∀ kv ∈ q.attributes, kv.2 ≠ ascii "None" ∧ ∀ kv' ∈ q.attributes, kv'.1 = kv.1 → kv'.2 = kv.2

variable {str q now db anns}

lemma clauses_of_sorted (h : a ∈ q.sorted now db anns) : q.clauses a = true := by
  have := (mem_filter.1 ((perm_insertionSort _ _).subset h)).2
  exact (Bool.and_eq_true_iff.1 this).2

lemma pairwise_sorted : (q.sorted now db anns).Pairwise (·.updatedAt ≥ ·.updatedAt) := by
  exact pairwise_insertionSort _ _

lemma wanted_perm :
    ((q.sorted now db anns).filter (q.wants str)).Perm (q.wanted str now db anns) := by
  have hp := (perm_insertionSort (·.updatedAt ≥ ·.updatedAt)
    (anns.filter fun a => visible now db a && q.clauses a)).filter (q.wants str)
  have hw (a : Announcement) : (q.wants str a && (visible now db a && q.clauses a)) =
      (visible now db a && q.wants str a) := by
    cases h : q.wants str a with
    | false => simp
    | true => simp [clauses_of_wants h]
  rwa [filter_filter, funext hw] at hp

lemma search_eq (h : ∀ a ∈ search str q now db anns, q.wants str a = true) :
    search str q now db anns = ((q.sorted now db anns).take 200).filter (q.wants str) := by
  refine filter_congr fun a ha => Bool.eq_iff_iff.2 ⟨fun hf => ?_, filters_of_wants⟩
  exact h a (mem_filter.2 ⟨ha, hf⟩)

lemma exact_iff_of_wants (h : ∀ a ∈ search str q now db anns, q.wants str a = true) :
    q.Exact str now db anns ↔ q.Reached str now db anns := by
  have hlen : _ = (q.wanted str now db anns).length := wanted_perm.length_eq
  rw [Query.Reached, countP_eq_length_filter, ← search_eq h]
  constructor
  · rintro ⟨l, hp, -, he⟩
    rw [he, length_take, hp.length_eq]
    omega
  · intro hr
    refine ⟨_, wanted_perm, pairwise_sorted.sublist filter_sublist, ?_⟩
    have hpre := ( take_prefix 200 (q.sorted now db anns)).filter (q.wants str)
    have hle : (search str q now db anns).length ≤ 200 :=
      (length_filter_le _ _).trans (length_take_le _ _)
    rw [← search_eq h, prefix_iff_eq_take] at hpre
    rw [hpre]
    obtain hr | hr := hr
    · rw [take_of_length_le (hlen.trans_le hr), take_of_length_le (by omega)]
    · rw [le_antisymm hle hr]

lemma wants_iff_of_search (h : a ∈ search str q now db anns) :
    q.wants str a = true ↔ ¬ q.Misread str a := by
  obtain ⟨hm, hf⟩ := mem_filter.1 h
  exact ⟨not_misread_of_wants, wants_of_not_misread (clauses_of_sorted (mem_of_mem_take hm)) hf⟩

lemma Query.Plain.not_misread (h : q.Plain) (hc : q.clauses a = true) : ¬ q.Misread str a := by
  simp only [Query.clauses, Bool.and_eq_true, Bool.or_eq_true, decide_eq_true_eq] at hc
  rintro (⟨hn, h₁, h₂⟩ | ⟨kv, hm, ⟨-, hv⟩ | ⟨kv', hm', hk, hv⟩⟩)
  · exact (hc.1.resolve_left hn).elim (h₁ ∘ occurs_of_like h.1) (h₂ ∘ occurs_of_like h.1)
  · exact (h.2 kv hm).1 hv
  · exact hv ((h.2 kv hm).2 kv' hm' hk)

lemma Query.Plain.reached (h : q.Plain)
    (hl : q.attributes = [] ∨ (q.sorted now db anns).length ≤ 200) : q.Reached str now db anns := by
  by_cases hle : (q.sorted now db anns).length ≤ 200
  · left
    rw [take_of_length_le hle, countP_eq_length_filter, wanted_perm.length_eq]
  · right
    have hf (a : Announcement) : q.filters str a = true := by
      rw [Query.filters, hl.resolve_right hle]
      rfl
    have hw : ∀ a ∈ (q.sorted now db anns).take 200, q.wants str a = true := fun a ha =>
      have hc := clauses_of_sorted (mem_of_mem_take ha)
      wants_of_not_misread hc (hf a) (h.not_misread hc)
    rw [countP_eq_length.2 hw, length_take]
    omega

end

def oneTunnel : Api.Row :=
  { tunnelId := [1], protocol := .tcp, closed := false, publicPort := 1, agentSecretHmac := [],
    sharedTokenHmac := [], managementHmac := [], sourceIp := [], createdAt := 0, expiresAt := 9 }

def oneAnnouncement : Announcement :=
  { announcementId := [1], tunnelId := [1], protocol := .tcp, closed := false,
    peerAddress := .direct .tcp 1, serviceName := [97, 66], serviceId := [], llms := [],
    attributesJson := [], createdAt := 0, updatedAt := 0, expiresAt := 9 }

end TunnelMate.Announce
