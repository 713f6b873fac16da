import Mathlib.Data.List.Nodup

/-!
# Lists of objects with an identity

A linked list of heap objects: every object has a key (its address), an operation on one of them
names it by its key, and a new object has a key that was never used before.
-/

namespace TunnelMate

open List

/-- Objects with an identity. -/
class Keyed (α : Type*) where
  key : α → ℕ

namespace Table

open Keyed (key)

variable {α : Type*} [Keyed α] {k : ℕ} {f : α → α} {x y : α} {xs ys : List α}

def get (k : ℕ) (xs : List α) : Option α := xs.find? (key · = k)

def upd (k : ℕ) (f : α → α) (xs : List α) : List α := xs.map fun x => if key x = k then f x else x

def del (k : ℕ) (xs : List α) : List α := xs.filter (key · ≠ k)

structure Fresh (n : ℕ) (xs : List α) : Prop where
  nodup : (xs.map key).Nodup
  lt : ∀ x ∈ xs, key x < n

lemma mem_of_get (h : get k xs = some x) : x ∈ xs := mem_of_find?_eq_some h

lemma key_of_get (h : get k xs = some x) : key x = k := by
  simpa using find?_some h

lemma get_none : get k xs = none ↔ ∀ x ∈ xs, key x ≠ k := by
  simp [get]

@[simp]
lemma mem_del : x ∈ del k xs ↔ x ∈ xs ∧ key x ≠ k := by
  simp [del]

lemma mem_upd : y ∈ upd k f xs ↔ ∃ x ∈ xs, y = if key x = k then f x else x := by
  simp [upd, eq_comm]

lemma mem_upd_self (hx : x ∈ xs) (hk : key x = k) : f x ∈ upd k f xs :=
  mem_upd.2 ⟨x, hx, (if_pos hk).symm⟩

lemma eq_of_key (h : (xs.map key).Nodup) (hx : x ∈ xs) (hy : y ∈ xs) (he : key x = key y) : x = y :=
  inj_on_of_nodup_map h hx hy he

lemma get_of_mem (h : (xs.map key).Nodup) (hx : x ∈ xs) : get (key x) xs = some x := by
  cases hg : get (key x) xs with
  | none => exact absurd rfl (get_none.1 hg x hx)
  | some y => rw [eq_of_key h (mem_of_get hg) hx (key_of_get hg)]

lemma get_upd (hf : ∀ x, key (f x) = key x) : get k (upd k f xs) = (get k xs).map f := by
  induction xs with
  | nil => rfl
  | cons x xs ih =>
    by_cases hx : key x = k
    · simp [get, upd, hx, hf]
    · simpa [get, upd, hx] using ih

lemma forall_upd {P : α → Prop} (h : ∀ x ∈ xs, key x ≠ k → P x)
    (hf : ∀ x ∈ xs, key x = k → P (f x)) : ∀ x ∈ upd k f xs, P x := by
  intro y hy
  obtain ⟨x, hx, rfl⟩ := mem_upd.1 hy
  split_ifs with he
  · exact hf x hx he
  · exact h x hx he

lemma exists_upd {P : α → Prop} (h : ∃ x ∈ xs, P x) (hf : ∀ x ∈ xs, key x = k → P x → P (f x)) :
    ∃ x ∈ upd k f xs, P x := by
  obtain ⟨x, hx, hp⟩ := h
  refine ⟨_, mem_upd.2 ⟨x, hx, rfl⟩, ?_⟩
  split_ifs with he
  · exact hf x hx he hp
  · exact hp

lemma map_upd {β : Type*} {g : α → β} (hf : ∀ x ∈ xs, key x = k → g (f x) = g x) :
    (upd k f xs).map g = xs.map g := by
  rw [upd, map_map]
  refine map_congr_left fun x hx => ?_
  by_cases he : key x = k
  · simp [he, hf x hx he]
  · simp [he]

lemma upd_self (h : (xs.map key).Nodup) (hx : x ∈ xs) : upd (key x) (fun _ => x) xs = xs := by
  refine (map_congr_left fun y hy => ?_).trans (map_id xs)
  split_ifs with he
  · exact eq_of_key h hx hy he.symm
  · rfl

lemma upd_upd {g : α → α} (hf : ∀ x ∈ xs, key x = k → key (f x) = k) :
    upd k g (upd k f xs) = upd k (fun x => g (f x)) xs := by
  rw [upd, upd, map_map]
  refine map_congr_left fun x hx => ?_
  by_cases he : key x = k
  · simp [he, hf x hx he]
  · simp [he]

lemma upd_of_ne (h : ∀ x ∈ xs, key x ≠ k) : upd k f xs = xs :=
  (map_congr_left fun x hx => if_neg (h x hx)).trans (map_id xs)

lemma del_of_ne (h : ∀ x ∈ xs, key x ≠ k) : del k xs = xs :=
  filter_eq_self.2 fun x hx => by simpa using h x hx

lemma perm_del (h : (xs.map key).Nodup) (hx : x ∈ xs) : (x :: del (key x) xs).Perm xs := by
  induction xs with
  | nil => simp at hx
  | cons y xs ih =>
    rw [map_cons, nodup_cons] at h
    rcases mem_cons.1 hx with rfl | hx
    · have hne : ∀ y ∈ xs, key y ≠ key x := fun y hy he =>
        h.1 (he ▸ mem_map_of_mem hy)
      rw [del, filter_cons_of_neg (by simp), ← del, del_of_ne hne]
    · have hne : key y ≠ key x := fun he => h.1 (he ▸ mem_map_of_mem hx)
      rw [del, filter_cons_of_pos (by simpa using hne), ← del]
      exact (List.Perm.swap _ _ _).trans ((ih h.2 hx).cons _)

lemma perm_upd (h : (xs.map key).Nodup) (hx : x ∈ xs) :
    (upd (key x) f xs).Perm (f x :: del (key x) xs) := by
  have hd : upd (key x) f (del (key x) xs) = del (key x) xs :=
    upd_of_ne fun y hy => (mem_del.1 hy).2
  refine ((perm_del h hx).symm.map _).trans ?_
  rw [map_cons, if_pos rfl]
  exact .of_eq (congrArg (f x :: ·) hd)

section FilterMap

variable {β : Type*} {g : α → Option β}

lemma filterMap_upd (hf : ∀ x ∈ xs, key x = k → g (f x) = g x) :
    (upd k f xs).filterMap g = xs.filterMap g := by
  rw [upd, filterMap_map]
  refine filterMap_congr fun x hx => ?_
  by_cases he : key x = k
  · simp [he, hf x hx he]
  · simp [he]

lemma filterMap_upd_none {p : β → Bool} (hf : ∀ x ∈ xs, key x = k → g (f x) = none)
    (hp : ∀ x ∈ xs, ∀ y, g x = some y → (p y = true ↔ key x ≠ k)) :
    (upd k f xs).filterMap g = (xs.filterMap g).filter p := by
  induction xs with
  | nil => rfl
  | cons x xs ih =>
    rw [forall_mem_cons] at hf hp
    have ih := ih hf.2 hp.2
    rw [upd] at ih
    rw [upd, map_cons, filterMap_cons, filterMap_cons, ih]
    by_cases he : key x = k
    · rw [if_pos he, hf.1 he]
      cases hg : g x with
      | none => rfl
      | some y =>
        rw [filter_cons_of_neg]
        exact fun hy => (hp.1 y hg).1 hy he
    · rw [if_neg he]
      cases hg : g x with
      | none => rfl
      | some y => rw [filter_cons_of_pos ((hp.1 y hg).2 he)]

lemma filterMap_del (hg : ∀ x ∈ xs, key x = k → g x = none) :
    (del k xs).filterMap g = xs.filterMap g := by
  induction xs with
  | nil => rfl
  | cons x xs ih =>
    rw [forall_mem_cons] at hg
    have ih := ih hg.2
    rw [del] at ih
    by_cases he : key x = k
    · rw [del, filter_cons_of_neg (by simp [he]), ih, filterMap_cons, hg.1 he]
    · rw [del, filter_cons_of_pos (by simp [he]), filterMap_cons, filterMap_cons, ih]

end FilterMap

namespace Fresh

variable {n m : ℕ}

lemma nil : Fresh n ([] : List α) := ⟨by simp, by simp⟩

section

variable (h : Fresh n xs)
include h

lemma mono (hm : n ≤ m) : Fresh m xs :=
  ⟨h.nodup, fun x hx => Nat.lt_of_lt_of_le (h.lt x hx) hm⟩

lemma sublist (hs : ys.Sublist xs) : Fresh n ys :=
  ⟨h.nodup.sublist (hs.map _), fun x hx => h.lt x (hs.subset hx)⟩

lemma of_keys (hp : (ys.map key).Perm (xs.map key)) : Fresh n ys := by
  refine ⟨hp.nodup_iff.2 h.nodup, fun y hy => ?_⟩
  obtain ⟨x, hx, he⟩ := mem_map.1 (hp.subset (mem_map_of_mem hy))
  exact he ▸ h.lt x hx

lemma perm (hp : ys.Perm xs) : Fresh n ys := h.of_keys (hp.map key)

lemma del : Fresh n (del k xs) := h.sublist filter_sublist

lemma upd (hf : ∀ x ∈ xs, key x = k → key (f x) = k) : Fresh n (upd k f xs) := by
  refine h.of_keys (.of_eq (map_upd fun x hx he => ?_))
  exact (hf x hx he).trans he.symm

lemma cons (hx : key x = n) : Fresh (n + 1) (x :: xs) := by
  refine ⟨?_, ?_⟩
  · rw [map_cons, nodup_cons, hx]
    refine ⟨fun hm => ?_, h.nodup⟩
    obtain ⟨y, hy, he⟩ := mem_map.1 hm
    exact absurd (h.lt y hy) (by omega)
  · intro y hy
    rcases mem_cons.1 hy with rfl | hy
    · omega
    · exact Nat.lt_succ_of_lt (h.lt y hy)

end

end Fresh

end Table

end TunnelMate
