import Mathlib.Data.List.Basic

/-!
# Items in a stream that arrives in pieces

A framing takes an item off the front of a stream, if a whole one is there.
-/

namespace TunnelMate

structure Framing (α β : Type*) where
  next : List α → Option (β × List α)
  shorter : ∀ {xs b rest}, next xs = some (b, rest) → rest.length < xs.length
  append : ∀ {xs b rest} ys, next xs = some (b, rest) → next (xs ++ ys) = some (b, rest ++ ys)

namespace Framing

variable {α β : Type*} (F : Framing α β) (stop : List β → β → Bool)

def after (seen : List β) (xs : List α) : Option (List α) :=
  match _h : F.next xs with
  | none => none
  | some (b, rest) => if stop seen b then some rest else after (b :: seen) rest
termination_by xs.length
decreasing_by exact F.shorter ‹_›

variable {F stop} {seen : List β} {b : β} {xs rest inp : List α}

lemma after_stop (h : F.next xs = some (b, rest)) (hb : stop seen b = true) :
    F.after stop seen xs = some rest := by
  rw [after, h]
  exact if_pos hb

lemma after_skip (h : F.next xs = some (b, rest)) (hb : stop seen b = false) :
    F.after stop seen xs = F.after stop (b :: seen) rest := by
  rw [after, h]
  exact if_neg (by simp [hb])

variable (F stop) in
def Behind (inp : List α) (seen : List β) (buf : List α) : Prop :=
  ∀ ys, F.after stop [] (inp ++ ys) = F.after stop seen (buf ++ ys)

namespace Behind

variable {buf : List α}

lemma start : F.Behind stop [] [] [] := fun _ => rfl

lemma feed (h : F.Behind stop inp seen buf) (d : List α) :
    F.Behind stop (inp ++ d) seen (buf ++ d) := fun ys => by
  rw [List.append_assoc, List.append_assoc]
  exact h (d ++ ys)

lemma skip (h : F.Behind stop inp seen buf) (hn : F.next buf = some (b, rest))
    (hb : stop seen b = false) : F.Behind stop inp (b :: seen) rest := fun ys =>
  (h ys).trans (after_skip (F.append ys hn) hb)

lemma found (h : F.Behind stop inp seen buf) (hn : F.next buf = some (b, rest))
    (hb : stop seen b = true) (ys : List α) : F.after stop [] (inp ++ ys) = some (rest ++ ys) :=
  (h ys).trans (after_stop (F.append ys hn) hb)

end Behind

/-! ## All items -/

variable (F) in
def all (xs : List α) : List β × List α :=
  match _h : F.next xs with
  | none => ([], xs)
  | some (b, rest) => (b :: (all rest).1, (all rest).2)
termination_by xs.length
decreasing_by all_goals exact F.shorter ‹_›

lemma all_none (h : F.next xs = none) : F.all xs = ([], xs) := by
  rw [all]
  split
  · rfl
  · rename_i h'
    rw [h] at h'
    cases h'

lemma all_some (h : F.next xs = some (b, rest)) :
    F.all xs = (b :: (F.all rest).1, (F.all rest).2) := by
  rw [all]
  split
  · rename_i h'
    rw [h] at h'
    cases h'
  · rename_i h'
    rw [h] at h'
    cases h'
    rfl

lemma all_append (xs ys : List α) : F.all (xs ++ ys) =
    ((F.all xs).1 ++ (F.all ((F.all xs).2 ++ ys)).1, (F.all ((F.all xs).2 ++ ys)).2) := by
  induction xs using all.induct (F := F) with
  | case1 xs h => rw [all_none h, List.nil_append]
  | case2 xs b rest h ih => rw [all_some h, all_some (F.append ys h), ih, List.cons_append]

lemma all_left (xs : List α) : F.all (F.all xs).2 = ([], (F.all xs).2) := by
  induction xs using all.induct (F := F) with
  | case1 xs h =>
    rw [all_none h]
    exact all_none h
  | case2 xs b rest h ih => rw [all_some h, ih]

end Framing

end TunnelMate
