import Mathlib.Data.List.Count

/-!
# Fixed windows

A limiter that counts in windows: a window begins with the first request that comes `period` or more
after the last window began, and at most `limit` requests are admitted in each.
-/

namespace TunnelMate.RateWindow

lemma countP_or_le {α : Type*} (p q : α → Bool) (xs : List α) :
    xs.countP (fun x => p x || q x) ≤ xs.countP p + xs.countP q := by
  induction xs with
  | nil => simp
  | cons x xs ih =>
    simp only [List.countP_cons]
    cases p x <;> cases q x <;> simp <;> omega

structure Limited (period limit start count : ℕ) (times : List ℕ) : Prop where
  current : times.countP (start ≤ ·) = count
  le : count ≤ limit
  before : times.countP (fun x => x < start && start ≤ x + period) ≤ limit
  lt : ∀ x ∈ times, x < start + period
  span : ∀ t, times.countP (fun x => t ≤ x && x ≤ t + period) ≤ 2 * limit

namespace Limited

variable {period limit start count now : ℕ} {times : List ℕ}

lemma nil : Limited period limit 0 0 [] := ⟨rfl, Nat.zero_le _, by simp, by simp, by simp⟩

section

variable (h : Limited period limit start count times)
include h

lemma span_start {t : ℕ} (ht : start ≤ t + period) :
    times.countP (fun x => t ≤ x && x ≤ t + period) ≤ count + limit := by
  calc times.countP (fun x => t ≤ x && x ≤ t + period)
      ≤ times.countP (fun x => start ≤ x || (x < start && start ≤ x + period)) := by
        refine List.countP_mono_left fun x _ hx => ?_
        simp only [Bool.and_eq_true, Bool.or_eq_true, decide_eq_true_eq] at hx ⊢
        omega
    _ ≤ times.countP (start ≤ ·) + times.countP (fun x => x < start && start ≤ x + period) :=
        countP_or_le _ _ times
    _ ≤ count + limit := by
        rw [h.current]
        exact Nat.add_le_add_left h.before _

lemma take (hs : start ≤ now) (hn : now < start + period) (hc : count < limit) :
    Limited period limit start (count + 1) (now :: times) where
  current := by simp [h.current, hs]
  le := hc
  before := by
    rw [List.countP_cons_of_neg (by simp; omega)]
    exact h.before
  lt := List.forall_mem_cons.2 ⟨hn, h.lt⟩
  span t := by
    by_cases ht : t ≤ now ∧ now ≤ t + period
    · have := h.span_start (t := t) (by omega)
      rw [List.countP_cons_of_pos (by simp [ht])]
      omega
    · rw [List.countP_cons_of_neg (by simpa using ht)]
      exact h.span t

lemma renew (hn : start + period ≤ now) : Limited period limit now 0 times where
  current := List.countP_eq_zero.2 fun x hx => by
    have := h.lt x hx
    simp
    omega
  le := Nat.zero_le _
  before := by
    refine Nat.le_trans (List.countP_mono_left fun x _ hx => ?_)
      (Nat.le_trans (Nat.le_of_eq h.current) h.le)
    simp only [Bool.and_eq_true, decide_eq_true_eq] at hx ⊢
    omega
  lt x hx := by
    have := h.lt x hx
    omega
  span := h.span

end

end Limited

end TunnelMate.RateWindow
