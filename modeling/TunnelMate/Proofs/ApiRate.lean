import Mathlib.Data.List.TakeWhile
import TunnelMate.Api

/-!
# The sliding window of the API

`RateWindow.allow` drops the times that have left the window only when their key is asked for again.
-/

namespace TunnelMate.Api

open List

variable {seconds now : ℕ} {key k : Bytes} {limit : ℤ} {w w' : RateWindow}

structure AllowCall where
  key : Bytes
  limit : ℤ
  now : ℕ

def allowStep (seconds : ℕ) (w : RateWindow) (c : AllowCall) : Option RateWindow :=
  some (w.allow c.key c.limit seconds c.now).2

abbrev AllowCalls := List (RateWindow × AllowCall)

def admittedFor (seconds : ℕ) (key : Bytes) (tr : AllowCalls) : List ℕ :=
  (tr.filter fun c =>
    c.2.key = key && (c.1.allow c.2.key c.2.limit seconds c.2.now).1).map (·.2.now)

def RateWindow.times (w : RateWindow) (key : Bytes) : List ℕ := (w.entries.lookup key).getD []

def AllowCall.next (seconds : ℕ) (c : AllowCall) (q : List ℕ) : List ℕ :=
  let q := q.dropWhile (· + seconds ≤ c.now)
  if (q.length : ℤ) ≥ c.limit then q else q ++ [c.now]

lemma allow_eq : (w.allow key limit seconds now).1 =
    decide ((((w.times key).dropWhile (· + seconds ≤ now)).length : ℤ) < limit) := by
  unfold RateWindow.allow RateWindow.times
  dsimp only
  split_ifs with h
  · simpa using h
  · simpa using h

lemma times_allow (c : AllowCall) : (w.allow c.key c.limit seconds c.now).2.times k =
    if k = c.key then c.next seconds (w.times k) else w.times k := by
  have hput (q : List ℕ) :
      RateWindow.times { entries := (c.key, q) :: w.entries.filter (·.1 ≠ c.key) } k =
        if k = c.key then q else w.times k := by
    unfold RateWindow.times
    split_ifs with hk
    · simp [hk]
    · rw [lookup_cons, beq_false_of_ne hk]
      dsimp only
      induction w.entries with
      | nil => rfl
      | cons e es ih =>
        by_cases he : e.1 = c.key
        · rw [filter_cons_of_neg (by simpa using he), ih, lookup_cons, beq_false_of_ne (he ▸ hk)]
        · rw [filter_cons_of_pos (by simpa using he), lookup_cons, lookup_cons]
          split
          · rfl
          · exact ih
  unfold RateWindow.allow
  dsimp only
  split_ifs with hl hk hk
  · rw [hput, if_pos hk, AllowCall.next, hk]
    exact (if_pos hl).symm
  · rw [hput, if_neg hk]
  · rw [hput, if_pos hk, AllowCall.next, hk]
    exact (if_neg hl).symm
  · rw [hput, if_neg hk]

lemma dropWhile_eq_filter : ∀ {q : List ℕ}, q.Pairwise (· ≤ ·) →
    q.dropWhile (· + seconds ≤ now) = q.filter (now < · + seconds)
  | [], _ => rfl
  | x :: q, h => by
    rw [pairwise_cons] at h
    by_cases hx : x + seconds ≤ now
    · rw [dropWhile_cons_of_pos (by simpa using hx), filter_cons_of_neg (by simp; omega),
        dropWhile_eq_filter h.2]
    · rw [dropWhile_cons_of_neg (by simpa using hx), filter_eq_self.2]
      refine forall_mem_cons.2 ⟨by simp; omega, fun y hy => ?_⟩
      have := h.1 y hy
      simp
      omega

def Ends (seconds : ℕ) (key : Bytes) (tr : AllowCalls) (w : RateWindow) : Prop :=
  ∃ old, (admittedFor seconds key tr).reverse = old ++ w.times key ∧
    ∀ x ∈ old, ∃ c ∈ tr, x + seconds ≤ c.2.now

lemma Ends.step {tr : AllowCalls} (h : Ends seconds key tr w) (c : AllowCall) :
    Ends seconds key ((w, c) :: tr) (w.allow c.key c.limit seconds c.now).2 := by
  obtain ⟨old, he, ho⟩ := h
  have ho' (x : ℕ) (hx : x ∈ old) : ∃ e ∈ (w, c) :: tr, x + seconds ≤ e.2.now :=
    (ho x hx).imp fun _ hc => ⟨mem_cons_of_mem _ hc.1, hc.2⟩
  by_cases hk : c.key = key
  · subst hk
    have hold (x : ℕ) (hx : x ∈ old ++ (w.times c.key).takeWhile (· + seconds ≤ c.now)) :
        ∃ e ∈ (w, c) :: tr, x + seconds ≤ e.2.now := by
      rcases mem_append.1 hx with hx | hx
      · exact ho' x hx
      · exact ⟨_, mem_cons_self, by simpa using mem_takeWhile_imp hx⟩
    refine ⟨_, ?_, hold⟩
    rw [times_allow, if_pos rfl, AllowCall.next, append_assoc]
    have ha : (w.allow c.key c.limit seconds c.now).1 = _ := allow_eq
    split_ifs with hl
    · rw [admittedFor, filter_cons_of_neg (by simp [ha]; omega), takeWhile_append_dropWhile]
      exact he
    · rw [admittedFor, filter_cons_of_pos (by simp [ha]; omega), map_cons,
        reverse_cons, ← append_assoc (.takeWhile _ _),
        takeWhile_append_dropWhile, ← append_assoc]
      exact congrArg (· ++ [c.now]) he
  · refine ⟨old, ?_, ho'⟩
    rw [times_allow, if_neg (Ne.symm hk), admittedFor, filter_cons_of_neg (by simp [hk])]
    exact he

lemma times_of_trace {tr : AllowCalls} (h : Trace (allowStep seconds) (· = {}) tr w) (key : Bytes) :
    w.times key = ((tr.map Prod.snd).filter (·.key = key)).foldr (AllowCall.next seconds) [] := by
  induction h with
  | start hi =>
    subst hi
    rfl
  | @next _ _ _ c _ hs ih =>
    cases hs
    rw [times_allow, map_cons]
    split_ifs with hk
    · rw [filter_cons_of_pos (by simp [hk]), foldr_cons, ih]
    · rw [filter_cons_of_neg (by simpa using Ne.symm hk), ih]

/-- A call is admitted exactly if fewer than `limit` calls for its key were admitted in the window
before it. The calls for other keys make no difference. -/
theorem allow_iff {tr : AllowCalls} (h : Trace (allowStep seconds) (· = {}) tr w)
    (hm : (tr.map (·.2.now)).Pairwise (· ≥ ·)) (key : Bytes) (limit : ℤ) (now : ℕ)
    (hnow : ∀ c ∈ tr, c.2.now ≤ now) : ((w.allow key limit seconds now).1 = true ↔
      (admittedFor seconds key tr).countP (fun x => now < x + seconds && x ≤ now) < limit) ∧
    ∀ tr' w', Trace (allowStep seconds) (· = {}) tr' w' →
      (tr'.map Prod.snd).filter (·.key = key) = (tr.map Prod.snd).filter (·.key = key) →
      (w'.allow key limit seconds now).1 = (w.allow key limit seconds now).1 := by
  refine ⟨?_, fun tr' w' h' he => ?_⟩
  · obtain ⟨old, he, ho⟩ : Ends seconds key tr w := by
      refine h.inv_hist (I := Ends seconds key) (fun w hw => ⟨[], ?_, by simp⟩) ?_
      · subst hw
        rfl
      · rintro tr w c _ - hi ⟨⟩
        exact hi.step c
    have hsub : (admittedFor seconds key tr).Pairwise (· ≥ ·) := hm.sublist (filter_sublist.map _)
    have hord : (w.times key).Pairwise (· ≤ ·) := by
      have := pairwise_reverse.2 hsub
      rw [he] at this
      exact (pairwise_append.1 this).2.1
    have hcount : (admittedFor seconds key tr).countP (fun x => now < x + seconds && x ≤ now) =
        ((w.times key).dropWhile (· + seconds ≤ now)).length := by
      have hle (x : ℕ) (hx : x ∈ admittedFor seconds key tr) : x ≤ now := by
        obtain ⟨c, hc, rfl⟩ := mem_map.1 hx
        exact hnow c (mem_filter.1 hc).1
      rw [dropWhile_eq_filter hord, ← countP_eq_length_filter, ← countP_reverse, he,
        countP_append, countP_eq_zero.2, Nat.zero_add]
      · refine countP_congr fun x hx => ?_
        have := hle x (mem_reverse.1 (he ▸ mem_append_right _ hx))
        simp [this]
      · intro x hx
        obtain ⟨c, hc, hx⟩ := ho x hx
        have := hnow c hc
        simp
        omega
    rw [allow_eq, decide_eq_true_eq, hcount]
  · rw [allow_eq, allow_eq, times_of_trace h key, times_of_trace h' key, he]

theorem allow_iff_again : ∃ tr w, Trace (allowStep 60) (· = {}) tr w ∧
    (w.allow [1] 1 60 70).1 = false ∧ (w.allow [1] 1 60 71).1 = true := by
  obtain ⟨tr, w, h, hm, hnow, hc, hc'⟩ := exists_trace (allowStep 60) (· = {}) rfl
    [⟨[2], 1, 10⟩, ⟨[1], 1, 11⟩, ⟨[2], 1, 70⟩]
    (fun r => (r.1.map (·.2.now)).Pairwise (· ≥ ·) ∧ (∀ c ∈ r.1, c.2.now ≤ 70) ∧
      (admittedFor 60 [1] r.1).countP (fun x => 70 < x + 60 && x ≤ 70) = 1 ∧
      (admittedFor 60 [1] r.1).countP (fun x => 71 < x + 60 && x ≤ 71) = 0) (by decide)
  refine ⟨tr, w, h, ?_, ?_⟩
  · rw [← Bool.not_eq_true, (allow_iff h hm [1] 1 70 hnow).1, hc]
    decide
  · rw [(allow_iff h hm [1] 1 71 fun c hc => (hnow c hc).trans (by decide)).1, hc']
    decide

end TunnelMate.Api
