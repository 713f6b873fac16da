import Mathlib.Data.Nat.Bitwise
import TunnelMate.Common

/-!
# Credentials

`agent_register` and `peer_auth` read a payload as a two-byte length, the id and the secret.
-/

namespace TunnelMate

open List Nat

variable {p : Bytes} {c : Cred}

section Wire

lemma rdU16_eq (p : Bytes) : rdU16 p = (p.getD 0 0).toNat * 256 + (p.getD 1 0).toNat := by
  have h1 : (p.getD 1 0).toNat < 2 ^ 8 := UInt8.toNat_lt _
  rw [rdU16, ← shiftLeft_add_eq_or_of_lt h1, shiftLeft_eq]

lemma rdU16_wrU16_mod (n : ℕ) (r : Bytes) : rdU16 (wrU16 n ++ r) = n % 65536 := by
  rw [rdU16_eq]
  simp [wrU16, shiftRight_eq_div_pow]
  omega

lemma rdU16_wrU16 {n : ℕ} (hn : n < 65536) (r : Bytes) : rdU16 (wrU16 n ++ r) = n := by
  rw [rdU16_wrU16_mod, mod_eq_of_lt hn]

lemma rdU32_wrU32_mod (n : ℕ) (r : Bytes) : rdU32 (wrU32 n ++ r) = n % 2 ^ 32 := by
  have hd : (wrU16 (n >>> 16) ++ (wrU16 n ++ r)).drop 2 = wrU16 n ++ r := rfl
  have hlt : n % 65536 < 2 ^ 16 := mod_lt _ (by decide)
  rw [rdU32, wrU32, append_assoc, hd, rdU16_wrU16_mod, rdU16_wrU16_mod,
    ← shiftLeft_add_eq_or_of_lt hlt, shiftLeft_eq, shiftRight_eq_div_pow]
  omega

lemma wrU16_rdU16 (hp : 2 ≤ p.length) : wrU16 (rdU16 p) ++ p.drop 2 = p := by
  obtain ⟨x, y, r, rfl⟩ : ∃ x y r, p = x :: y :: r := by
    match p, hp with
    | x :: y :: r, _ => exact ⟨x, y, r, rfl⟩
  have hy : y.toNat < 256 := UInt8.toNat_lt _
  have he : rdU16 (x :: y :: r) = x.toNat * 256 + y.toNat := rdU16_eq _
  have h1 : (x.toNat * 256 + y.toNat) >>> 8 = x.toNat := by
    omega
  rw [he, wrU16, h1]
  simp only [drop_succ_cons, drop_zero, cons_append, nil_append, cons.injEq, and_true]
  constructor
  · simp
  · apply UInt8.toNat_inj.1
    simp

end Wire

section Split

lemma credSplit_eq_some : credSplit p = some c ↔
    3 ≤ p.length ∧ p.length ≤ 282 ∧ 0 < rdU16 p ∧ rdU16 p + 2 < p.length ∧
      c = ⟨(p.drop 2).take (rdU16 p), p.drop (2 + rdU16 p)⟩ := by
  simp only [credSplit, tmTunnelIdLen, tmMaxSecret]
  split_ifs with h1 h2 h3
  · simp only [false_iff]
    omega
  · simp only [false_iff]
    omega
  · simp only [false_iff]
    omega
  · rw [Option.some.injEq, eq_comm]
    have : 3 ≤ p.length ∧ p.length ≤ 282 ∧ 0 < rdU16 p ∧ rdU16 p + 2 < p.length := by omega
    tauto

lemma credSplit_lengths (h : credSplit p = some c) :
    c.id.length = rdU16 p ∧ c.secret.length + 2 + rdU16 p = p.length := by
  obtain ⟨-, -, -, h4, rfl⟩ := credSplit_eq_some.1 h
  simp only [length_take, length_drop]
  omega

lemma credSplit_append (h : credSplit p = some c) : wrU16 c.id.length ++ c.id ++ c.secret = p := by
  have hlen := (credSplit_lengths h).1
  obtain ⟨h1, -, -, -, rfl⟩ := credSplit_eq_some.1 h
  rw [hlen, append_assoc, ← drop_drop, take_append_drop, wrU16_rdU16 (by omega)]

lemma credSplit_wrU16 {id secret : Bytes} (hid : 1 ≤ id.length) (hid' : id.length ≤ tmTunnelIdLen)
    (hs : 1 ≤ secret.length) (hs' : secret.length ≤ tmMaxSecret) :
    credSplit (wrU16 id.length ++ id ++ secret) = some ⟨id, secret⟩ := by
  simp only [tmTunnelIdLen, tmMaxSecret] at hid' hs'
  have hrd : rdU16 (wrU16 id.length ++ id ++ secret) = id.length := by
    exact rdU16_wrU16 (by omega) _
  have hlen : (wrU16 id.length ++ id ++ secret).length = 2 + id.length + secret.length := by
    simp [wrU16]
    omega
  rw [credSplit_eq_some, hrd, hlen]
  refine ⟨by omega, by omega, by omega, by omega, ?_⟩
  simp [wrU16, ← drop_drop]

def CredFits (p : Bytes) : Prop :=
  ∀ c, credSplit p = some c → p = wrU16 c.id.length ++ c.id ++ c.secret ∧
    (1 ≤ c.id.length ∧ c.id.length ≤ tmTunnelIdLen) ∧
    (1 ≤ c.secret.length ∧ c.secret.length ≤ tmMaxSecret) ∧
    ∀ i ∈ c.writes, i < tmTunnelIdLen + 1

/-- A payload the comparisons let through stays within the bounds exactly if its length field is at
most 24 and at most 256 bytes follow the id. -/
theorem credSplit_fits_iff (p id secret : Bytes) :
    (CredFits p ↔ (3 ≤ p.length ∧ p.length ≤ 282 ∧ 0 < rdU16 p ∧ rdU16 p + 2 < p.length →
      rdU16 p ≤ 24 ∧ p.length ≤ 2 + rdU16 p + 256)) ∧
    (1 ≤ id.length ∧ id.length ≤ tmTunnelIdLen → 0 ∉ id →
      1 ≤ secret.length ∧ secret.length ≤ tmMaxSecret →
      credSplit (wrU16 id.length ++ id ++ secret) = some ⟨id, secret⟩ ∧ cStr (id ++ [0]) = id) := by
  refine ⟨⟨fun h ⟨h1, h2, h3, h4⟩ => ?_, fun h c hc => ?_⟩, fun hid h0 hs => ?_⟩
  · obtain ⟨c, hc⟩ : ∃ c, credSplit p = some c := ⟨_, credSplit_eq_some.2 ⟨h1, h2, h3, h4, rfl⟩⟩
    obtain ⟨hl1, hl2⟩ := credSplit_lengths hc
    obtain ⟨-, ⟨-, h5⟩, ⟨-, h6⟩, -⟩ := h _ hc
    simp only [tmTunnelIdLen, tmMaxSecret] at h5 h6
    omega
  · obtain ⟨hl1, hl2⟩ := credSplit_lengths hc
    obtain ⟨h1, h2, h3, h4, -⟩ := credSplit_eq_some.1 hc
    refine ⟨(credSplit_append hc).symm, ?_, ?_, fun i hi => ?_⟩
    · simp only [tmTunnelIdLen]
      omega
    · simp only [tmMaxSecret]
      omega
    · simp only [Cred.writes, mem_append, mem_range, mem_singleton] at hi
      simp only [tmTunnelIdLen]
      omega
  · refine ⟨credSplit_wrU16 hid.1 hid.2 hs.1 hs.2, ?_⟩
    rw [cStr, takeWhile_append_of_pos]
    · simp
    · intro x hx
      have : x ≠ 0 := fun h => h0 (h ▸ hx)
      simpa using this

theorem credSplit_fits_iff_ab : CredFits [0, 2, 97, 98, 115] ∧
    credSplit [0, 2, 97, 98, 115] = some ⟨[97, 98], [115]⟩ ∧ cStr [97, 98, 0] = [97, 98] :=
  ⟨(credSplit_fits_iff _ [] []).1.2 (by decide),
    (credSplit_fits_iff [] [97, 98] [115]).2 (by decide) (by decide) (by decide)⟩

/-- A length field of 25 is accepted: the terminator goes one past the end of the buffer. -/
theorem credSplit_overflow : ¬ CredFits (wrU16 25 ++ replicate 25 97 ++ [115]) := by
  intro h
  have hc : credSplit (wrU16 25 ++ replicate 25 97 ++ [115])
      = some ⟨.replicate 25 97, [115]⟩ := by decide
  have := (h _ hc).2.2.2 25 (by decide)
  simp [tmTunnelIdLen] at this

end Split

/-! ## Digests -/

lemma hexval_hexd : ∀ n : Fin 16, hexval (hexd n) = some n.val := by decide

lemma hexval_lt {c : UInt8} {n : ℕ} (h : hexval c = some n) : n < 16 := by
  unfold hexval at h
  split_ifs at h <;> have := Option.some.inj h <;> omega

lemma nibbles (v : UInt8) : (v.toNat >>> 4) <<< 4 ||| (v.toNat &&& 0xF) = v.toNat := by
  have h15 : v.toNat &&& 0xF = v.toNat % 16 := and_two_pow_sub_one_eq_mod v.toNat 4
  rw [h15, ← shiftLeft_add_eq_or_of_lt (mod_lt _ (by decide)), shiftLeft_eq, shiftRight_eq_div_pow]
  omega

lemma toHex_cons (v : UInt8) (d : Bytes) :
    toHex (v :: d) = hexd (v.toNat >>> 4) :: hexd (v.toNat &&& 0xF) :: toHex d := rfl

lemma hexval_nibbles (v : UInt8) : hexval (hexd (v.toNat >>> 4)) = some (v.toNat >>> 4) ∧
      hexval (hexd (v.toNat &&& 0xF)) = some (v.toNat &&& 0xF) := by
  have hv : v.toNat < 256 := v.toNat_lt
  exact ⟨hexval_hexd ⟨_, by rw [shiftRight_eq_div_pow]; omega⟩,
    hexval_hexd ⟨_, and_lt_two_pow _ (by decide : 0xF < 2 ^ 4)⟩⟩

lemma fromHex_toHex (d : Bytes) : fromHex (toHex d) = some d := by
  induction d with
  | nil => rfl
  | cons v d ih =>
    obtain ⟨h1, h2⟩ := hexval_nibbles v
    rw [toHex_cons, fromHex, h1, h2, ih]
    simp only [nibbles, toUInt8, UInt8.ofNat_toNat]

lemma ctDiff_toHex : ∀ (d s : Bytes) (k : ℕ),
    ctDiff (toHex d) s k = some 0 ↔ k = 0 ∧ fromHex s = some d
  | [], [], k => by simp [toHex, ctDiff, fromHex]
  | [], [x], k => by simp [toHex, ctDiff, fromHex]
  | [], h :: l :: t, k => by
    simp only [toHex, flatMap_nil, ctDiff, fromHex]
    split <;> simp
  | v :: d, [], k | v :: d, [x], k => by simp [toHex_cons, ctDiff, fromHex]
  | v :: d, bh :: bl :: t, k => by
    obtain ⟨h1, h2⟩ := hexval_nibbles v
    rw [toHex_cons, ctDiff, h1, h2, fromHex]
    rcases hh : hexval bh with _ | h
    · simp
    rcases hl : hexval bl with _ | l
    · simp
    have hlt : h <<< 4 ||| l < 256 :=
      or_lt_two_pow (n := 8)
        (by rw [shiftLeft_eq]; have := hexval_lt hh; omega) (by have := hexval_lt hl; omega)
    rw [ctDiff_toHex d t, nibbles, or_eq_zero_iff, xor_eq_zero_iff]
    rcases fromHex t with _ | t'
    · simp
    · simp only [Option.some.injEq, cons.injEq]
      have : v.toNat = h <<< 4 ||| l ↔ (h <<< 4 ||| l).toUInt8 = v := by
        have hn : (h <<< 4 ||| l).toUInt8.toNat = h <<< 4 ||| l := mod_eq_of_lt hlt
        rw [← UInt8.toNat_inj, hn, eq_comm]
      tauto

lemma fromHex_length : ∀ {s d : Bytes}, fromHex s = some d → s.length = (toHex d).length
  | [], d, h => by
    cases h
    rfl
  | [x], d, h => by simp [fromHex] at h
  | x :: y :: t, d, h => by
    simp only [fromHex] at h
    split at h
    · rename_i ht
      cases h
      simp [toHex_cons, fromHex_length ht]
    · simp at h

lemma tmCtEqHex_toHex (d s : Bytes) : tmCtEqHex (toHex d) s = true ↔ fromHex s = some d := by
  unfold tmCtEqHex
  rw [Bool.and_eq_true, decide_eq_true_eq, decide_eq_true_eq, ctDiff_toHex]
  exact ⟨fun h => h.2.2, fun h => ⟨(fromHex_length h).symm, rfl, h⟩⟩

end TunnelMate
