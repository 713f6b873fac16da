import TunnelMate.Log
import TunnelMate.Proofs.Token

/-!
# Escaped strings
-/

namespace TunnelMate.Log

open List Json

variable {c : UInt8}

/-- What a byte is written as. -/
def escaped (c : UInt8) : Bytes :=
  match cases.lookup c with
  | some e => [92, e]
  | none => if c < 32 then unicodeEscape c.toNat else [c]

lemma cases_read {e : UInt8} (h : cases.lookup c = some e) :
    e ≠ 117 ∧ unescapeChar e = some c ∧ 32 ≤ e := by
  obtain ⟨l₁, l₂, he, -⟩ := lookup_eq_some_iff.1 h
  have hm : (c, e) ∈ cases := he ▸ mem_append_right _ mem_cons_self
  simp only [cases, mem_cons, Prod.mk.injEq, not_mem_nil, or_false] at hm
  rcases hm with ⟨rfl, rfl⟩ | ⟨rfl, rfl⟩ | ⟨rfl, rfl⟩ | ⟨rfl, rfl⟩ | ⟨rfl, rfl⟩ <;> decide

lemma control_read : ∀ n < 32, codepointToUtf8 n = some [n.toUInt8] ∧
    (unicodeEscape n).all (32 ≤ ·) = true := by
  decide

lemma ne_of_cases (h : cases.lookup c = none) : c ≠ 34 ∧ c ≠ 92 := by
  rw [lookup_eq_none_iff] at h
  exact ⟨by simpa using h (34, 34) (by decide), by simpa using h (92, 92) (by decide)⟩

/-- A byte is written as at most six that are printable, and that a reader takes for it. -/
lemma escaped_spec (c : UInt8) :
    Reads (escaped c) [c] ∧ (∀ b ∈ escaped c, 32 ≤ b) ∧ (escaped c).length ≤ 6 := by
  unfold escaped
  split
  · rename_i e he
    obtain ⟨h1, h2, h3⟩ := cases_read he
    exact ⟨reads_char h1 h2, by simpa using h3, by simp⟩
  · rename_i hn
    split_ifs with hc
    · have hc : c.toNat < 32 := hc
      obtain ⟨hv, hb⟩ := control_read _ hc
      rw [Nat.toUInt8_eq, UInt8.ofNat_toNat] at hv
      exact ⟨reads_unicode (by omega) (.inl (by omega)) hv, by simpa using hb, le_rfl⟩
    · exact ⟨reads_plain (ne_of_cases hn).1 (ne_of_cases hn).2, by simpa using hc, by simp⟩

/-! ## The buffer: what has been written, and the rest -/

lemma write_append {b d x : Bytes} {n : ℕ} (hd : d.length = n) (h : b.length ≤ x.length) :
    write n b (d ++ x) = some (d ++ b ++ x.drop b.length) := by
  subst hd
  rw [write, if_pos (by simpa using h), take_left, drop_length_add_append]

lemma put_append {x : Bytes} (d : Bytes) (h : 6 < x.length) :
    ∃ y, put c d.length (d ++ x) = some ((d ++ escaped c).length, d ++ escaped c ++ y) ∧
      (escaped c).length + y.length = x.length := by
  unfold put escaped
  rcases cases.lookup c with _ | e
  · dsimp only
    split_ifs
    · refine ⟨0 :: x.drop 7, ?_, by simp [unicodeEscape]; omega⟩
      rw [write_append rfl (by simp; omega), Option.bind_some]
      -- `snprintf` has room for the four digits and a NUL
      rw [if_neg (by simp; omega), take_of_length_le (by simp [unicodeEscape]; omega),
        write_append (by simp) (by simp [unicodeEscape]; omega)]
      simp [unicodeEscape]
    · refine ⟨x.drop 1, ?_, by simp; omega⟩
      rw [write_append rfl (by simp; omega)]
      simp
  · refine ⟨x.drop 2, ?_, by simp; omega⟩
    dsimp only
    rw [write_append rfl (by simp; omega)]
    simp

/-- The text that is written stands for the first `k` bytes of the string. -/
lemma jsonEscape_append (s : Bytes) {x : Bytes} (d : Bytes) (h : 0 < x.length) :
    ∃ k y, jsonEscape s d.length (d ++ x) = some ((d ++ (s.take k).flatMap escaped).length,
      d ++ (s.take k).flatMap escaped ++ 0 :: y) ∧
      ((s.take k).flatMap escaped).length + 1 + y.length = x.length ∧
      (6 * s.length < x.length → s.take k = s) := by
  have hw := write_append (b := [0]) (x := x) (d := d) rfl h
  induction s generalizing x d with
  | nil =>
    refine ⟨0, x.drop 1, ?_, by simp; omega, fun _ => rfl⟩
    rw [jsonEscape, hw]
    simp
  | cons c s ih =>
    rw [jsonEscape]
    split_ifs with hc
    · have hc : 6 < x.length := by simpa using hc
      obtain ⟨y, hp, hl⟩ := put_append (c := c) d hc
      have h6 := (escaped_spec c).2.2
      have hy : 0 < y.length := by omega
      obtain ⟨k, z, he, hz, hall⟩ := ih (d ++ escaped c) hy (write_append rfl hy)
      refine ⟨k + 1, z, ?_, ?_, fun hs => ?_⟩
      · rw [hp, Option.bind_some, he]
        simp [append_assoc]
      · simp only [take_succ_cons, flatMap_cons, length_append]
        omega
      · rw [length_cons] at hs
        rw [take_succ_cons, hall (by omega)]
    · refine ⟨0, x.drop 1, ?_, by simp; omega, fun hs => ?_⟩
      · rw [hw]
        simp
      · simp at hc hs
        omega

lemma reads_flatMap (s : Bytes) : Reads (s.flatMap escaped) s := by
  have h := Reads.flatMap (fun c => (escaped_spec c).1) s
  rwa [flatMap_singleton'] at h

theorem log_text_contained (s out : Bytes) (h : 7 ≤ out.length) :
    ∃ t rest k, jsonEscape s 0 out = some (t.length, t ++ 0 :: rest) ∧
      t.length + 1 + rest.length = out.length ∧ (∀ b ∈ t, 32 ≤ b) ∧
      (∀ r, literal (t ++ 34 :: r) = some (t, r)) ∧ unescape t = some (s.take k) ∧
      (6 * s.length < out.length → s.take k = s) := by
  obtain ⟨k, rest, he, hl, hall⟩ := jsonEscape_append s [] (x := out) (by omega)
  have hr := reads_flatMap (s.take k)
  refine ⟨_, rest, k, he, hl, fun b hb => ?_, hr.literal, hr.unescape, hall⟩
  obtain ⟨c, -, hc⟩ := mem_flatMap.1 hb
  exact (escaped_spec c).2.1 b hc

theorem log_text_contained_one : ∃ t, jsonEscape [34, 10] 0 (replicate 16 0) = some t := by
  obtain ⟨_, _, _, he, -⟩ := log_text_contained [34, 10] (replicate 16 0) (by decide)
  exact ⟨_, he⟩

end TunnelMate.Log
