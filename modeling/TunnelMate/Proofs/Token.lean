import Mathlib.Data.List.TakeWhile
import TunnelMate.Json
import TunnelMate.Proofs.ApiCreds

/-!
# Shared tokens

`parse_string` reads what `json.dumps` has written as the UTF-8 bytes of the string
(`parseString_dumps`).
-/

namespace TunnelMate

open List Option Table Nat SharedToken

variable {p : Bytes}

namespace Json

/-! ## The bytes of a code point -/

variable {k m x n : ℕ}

lemma or_mark (hx : x < 2 ^ k) : x ||| 2 ^ k * m = 2 ^ k * m + x := by
  rw [Nat.or_comm, Nat.two_pow_add_eq_or_of_lt hx]

lemma or_and_absorb (x y : ℕ) : x ||| y &&& x = x := by
  refine eq_of_testBit_eq fun i => ?_
  rw [testBit_or, testBit_and]
  cases x.testBit i <;> simp

lemma continuation (x : ℕ) : (x ||| 0x80) &&& 0xBF = x % 64 + 128 := by
  have h63 : x &&& 63 = x % 64 := and_two_pow_sub_one_eq_mod x 6
  have hor : x % 64 ||| 128 = 128 + x % 64 := or_mark (k := 7) (m := 1) (by omega)
  calc (x ||| 0x80) &&& 0xBF = (x &&& (63 ||| 128)) ||| 128 := and_or_distrib_right x 128 191
    _ = (x &&& 63) ||| ((x &&& 128) ||| 128) := by
      rw [Nat.and_or_distrib_left, Nat.or_assoc]
    _ = x % 64 + 128 := by
      rw [Nat.or_comm (x &&& 128), or_and_absorb, h63, hor, add_comm]

lemma first_byte (hx : x < 2 ^ k) (hm : 2 ^ k * m + 2 ^ k ≤ 256) :
    (x ||| 2 ^ k * m) &&& 0xFF = x + 2 ^ k * m := by
  have h255 : (2 ^ k * m + x) &&& 255 = (2 ^ k * m + x) % 256 := and_two_pow_sub_one_eq_mod _ 8
  rw [or_mark hx, h255, mod_eq_of_lt (by omega), add_comm]

lemma toNat_le (c : Char) : c.toNat ≤ 0x10FFFF := by
  rcases c.valid with h | h
  · exact le_of_lt (h.trans (by decide))
  · exact le_of_lt_succ h.2

lemma codepointToUtf8_char (c : Char) :
    codepointToUtf8 c.toNat = some (String.utf8EncodeChar c) := by
  have hle : c.val.toNat ≤ 0x10FFFF := toNat_le c
  have h192 : ∀ {x}, x < 32 → (x ||| 192) &&& 255 = x + 192 :=
    fun hx => first_byte (k := 5) (m := 6) hx (by decide)
  have h224 : ∀ {x}, x < 16 → (x ||| 224) &&& 255 = x + 224 :=
    fun hx => first_byte (k := 4) (m := 14) hx (by decide)
  have h240 : ∀ {x}, x < 8 → (x ||| 240) &&& 255 = x + 240 :=
    fun hx => first_byte (k := 3) (m := 30) hx (by decide)
  have h127 : c.val.toNat &&& 127 = c.val.toNat % 128 := and_two_pow_sub_one_eq_mod _ 7
  change codepointToUtf8 c.val.toNat = _
  unfold codepointToUtf8 String.utf8EncodeChar
  dsimp only
  generalize c.val.toNat = v at *
  simp only [encodeUtf8, continuation, Nat.shiftRight_eq_div_pow, Nat.div_div_eq_div_mul,
    reducePow, reduceMul, toUInt8]
  by_cases h1 : v ≤ 127
  · rw [if_pos (by omega), if_pos h1, h127, mod_eq_of_lt (by omega)]
  by_cases h2 : v ≤ 2047
  · rw [if_neg (by omega), if_pos (by omega), if_neg h1, if_pos h2, h192 (by omega),
      mod_eq_of_lt (show v / 64 < 32 by omega)]
  by_cases h3 : v ≤ 65535
  · rw [if_neg (by omega), if_neg (by omega), if_pos (by omega), if_neg h1, if_neg h2, if_pos h3,
      h224 (by omega), mod_eq_of_lt (show v / 4096 < 16 by omega)]
  · rw [if_neg (by omega), if_neg (by omega), if_neg (by omega), if_pos hle, if_neg h1, if_neg h2,
      if_neg h3, h240 (by omega), mod_eq_of_lt (show v / 262144 < 8 by omega)]

/-! ## Escapes -/

lemma parseHexDigit_hexd (h : n < 16) : parseHexDigit (hexd n) = some n := by
  revert n
  decide

lemma parseHex4_unicodeEscape (h : n < 0x10000) (r : Bytes) :
    parseHex4 ((unicodeEscape n ++ r).drop 2) = n := by
  have h15 : ∀ x : ℕ, x &&& 15 = x % 16 := fun x => and_two_pow_sub_one_eq_mod x 4
  have hd : ∀ x : ℕ, parseHexDigit (hexd (x &&& 15)) = some (x % 16) := fun x => by
    rw [h15]
    exact parseHexDigit_hexd (by omega)
  simp only [unicodeEscape, cons_append, nil_append, drop_succ_cons, drop_zero,
    parseHex4, take_succ_cons, take_zero, mapM_cons, mapM_nil, hd]
  simp only [Option.pure_def, bind_eq_bind, bind_some, foldl_cons,
    foldl_nil, shiftLeft_eq, shiftRight_eq_div_pow, reducePow]
  omega

section Units

variable {r : Bytes} {n : ℕ}

lemma utf16_unit (h : n < 0x10000) (hs : n < 0xD800 ∨ 0xDFFF < n) :
    utf16LiteralToUtf8 (unicodeEscape n ++ r) = (codepointToUtf8 n).map (·, 6) := by
  have hl : ¬ (unicodeEscape n ++ r).length < 6 := by simp [unicodeEscape]
  simp only [utf16LiteralToUtf8, hl, if_false, parseHex4_unicodeEscape h]
  rw [if_neg (by omega), if_neg (by omega)]

lemma utf16_pair {hi lo : ℕ} (hhi : 0xD800 ≤ hi ∧ hi ≤ 0xDBFF) (hlo : 0xDC00 ≤ lo ∧ lo ≤ 0xDFFF) :
    utf16LiteralToUtf8 (unicodeEscape hi ++ (unicodeEscape lo ++ r)) =
      (codepointToUtf8 (0x10000 + ((hi &&& 0x3FF) <<< 10 ||| (lo &&& 0x3FF)))).map (·, 12) := by
  have hl : ¬ (unicodeEscape hi ++ (unicodeEscape lo ++ r)).length < 6 := by simp [unicodeEscape]
  have hd : (unicodeEscape hi ++ (unicodeEscape lo ++ r)).drop 6 = unicodeEscape lo ++ r := rfl
  have hl' : ¬ (unicodeEscape lo ++ r).length < 6 := by simp [unicodeEscape]
  have ht : (unicodeEscape lo ++ r).take 2 = [92, 117] := rfl
  simp only [utf16LiteralToUtf8, hl, hd, hl', ht, if_false, ne_eq, not_true_eq_false,
    parseHex4_unicodeEscape (show hi < 0x10000 by omega),
    parseHex4_unicodeEscape (show lo < 0x10000 by omega)]
  rw [if_neg (by omega), if_pos hhi, if_neg (by omega)]

lemma surrogates (h : n < 0x100000) :
    (0xD800 ≤ 0xD800 ||| (n >>> 10 &&& 0x3FF) ∧ 0xD800 ||| (n >>> 10 &&& 0x3FF) ≤ 0xDBFF) ∧
    (0xDC00 ≤ 0xDC00 ||| (n &&& 0x3FF) ∧ 0xDC00 ||| (n &&& 0x3FF) ≤ 0xDFFF) ∧
    ((0xD800 ||| (n >>> 10 &&& 0x3FF)) &&& 0x3FF) <<< 10 |||
      ((0xDC00 ||| (n &&& 0x3FF)) &&& 0x3FF) = n := by
  have hm : ∀ x : ℕ, x &&& 0x3FF = x % 1024 := fun x => and_two_pow_sub_one_eq_mod x 10
  have hor : ∀ m x : ℕ, 2 ^ 10 * m ||| (x % 1024) = 2 ^ 10 * m + x % 1024 := fun m x =>
    (two_pow_add_eq_or_of_lt (mod_lt x (by decide)) m).symm
  have h1 : ∀ x : ℕ, 0xD800 ||| (x % 1024) = 0xD800 + x % 1024 := hor 54
  have h2 : ∀ x : ℕ, 0xDC00 ||| (x % 1024) = 0xDC00 + x % 1024 := hor 55
  simp only [hm, h1, h2, shiftRight_eq_div_pow, shiftLeft_eq]
  refine ⟨by omega, by omega, ?_⟩
  rw [mul_comm, hor]
  omega

end Units

/-! ## Literals -/

def before (p : Bytes) (x : Bytes × Bytes) : Bytes × Bytes := (p ++ x.1, x.2)

/-- The text `p` of a literal stands for the bytes `v`, whatever follows it. -/
structure Reads (p v : Bytes) : Prop where
  value (r : Bytes) : unescape (p ++ r) = (unescape r).map (v ++ ·)
  text (r : Bytes) : literal (p ++ r) = (literal r).map (before p)

lemma reads_plain {b : UInt8} (h1 : b ≠ 34) (h2 : b ≠ 92) : Reads [b] [b] where
  value r := by
    rw [cons_append, nil_append, unescape.eq_def]
    exact if_pos h2
  text r := by
    rw [cons_append, nil_append, literal.eq_def]
    exact (if_neg h1).trans (if_neg h2)

lemma literal_pair (e : UInt8) (r : Bytes) :
    literal (92 :: e :: r) = (literal r).map (before [92, e]) := by
  rw [literal, if_neg (by simp), if_pos rfl]
  rfl

lemma reads_char {e b : UInt8} (he : e ≠ 117) (h : unescapeChar e = some b) :
    Reads [92, e] [b] where
  value r := by
    rw [cons_append, cons_append, nil_append, unescape, if_neg (by simp), if_neg he, h, bind_some]
    rfl
  text r := literal_pair e r

namespace Reads

lemma nil : Reads [] [] where
  value r := (map_id' (x := unescape r)).symm
  text r := (map_id' (x := literal r)).symm

lemma append {v q w : Bytes} (h : Reads p v) (h' : Reads q w) : Reads (p ++ q) (v ++ w) where
  value r := by
    rw [append_assoc, h.value, h'.value, Option.map_map]
    simp only [Function.comp_def, append_assoc]
  text r := by
    rw [append_assoc, h.text, h'.text, Option.map_map]
    congr 1
    funext x
    simp only [Function.comp, before, append_assoc]

lemma flatMap {α : Type} {f g : α → Bytes} (h : ∀ c, Reads (f c) (g c)) (s : List α) :
    Reads (s.flatMap f) (s.flatMap g) := by
  induction s with
  | nil => exact nil
  | cons c s ih =>
    rw [flatMap_cons, flatMap_cons]
    exact (h c).append ih

lemma unescape {v : Bytes} (h : Reads p v) : Json.unescape p = some v := by
  have hv := h.value []
  rwa [append_nil, Json.unescape, map_some, append_nil] at hv

lemma literal {v : Bytes} (h : Reads p v) (r : Bytes) :
    Json.literal (p ++ 34 :: r) = some (p, r) := by
  have hr : Json.literal (34 :: r) = some ([], r) := by
    rw [Json.literal.eq_def]
    exact if_pos rfl
  rw [h.text, hr, map_some, before, append_nil]

lemma parseString {v : Bytes} (h : Reads p v) :
    Json.parseString (34 :: p ++ [34]) = some (v, []) := by
  rw [cons_append, Json.parseString, if_neg (by simp), h.literal]
  exact map_eq_some_iff.2 ⟨v, h.unescape, rfl⟩

end Reads

lemma unescape_utf16 {out : Bytes} {r : Bytes}
    (h : utf16LiteralToUtf8 (92 :: 117 :: p ++ r) = some (out, k)) (hk : p.length + 2 = k) :
    unescape (92 :: 117 :: p ++ r) = (unescape r).map (out ++ ·) := by
  have hd : (p ++ r).drop (k - 2) = r := by
    rw [← hk, Nat.add_sub_cancel, drop_left]
  rw [cons_append, cons_append] at h ⊢
  rw [unescape, if_neg (by simp), if_pos rfl, h]
  simp only [bind_some, hd]

lemma literal_plains {r : Bytes} (h : ∀ b ∈ p, b ≠ 34 ∧ b ≠ 92) :
    literal (p ++ r) = (literal r).map (before p) := by
  induction p with
  | nil => exact Reads.nil.text r
  | cons b p ih =>
    obtain ⟨hb, hp⟩ := forall_mem_cons.1 h
    rw [cons_append, ← singleton_append, (reads_plain hb.1 hb.2).text, ih hp, Option.map_map]
    rfl

lemma hexd_plain (h : n < 16) : hexd n ≠ 34 ∧ hexd n ≠ 92 := by
  revert n
  decide

lemma literal_unicodeEscape (n : ℕ) (r : Bytes) :
    literal (unicodeEscape n ++ r) = (literal r).map (before (unicodeEscape n)) := by
  have hd : ∀ x : ℕ, hexd (x &&& 15) ≠ 34 ∧ hexd (x &&& 15) ≠ 92 := fun x =>
    hexd_plain (and_lt_two_pow (n := 4) x (by decide))
  rw [unicodeEscape, cons_append, cons_append, literal_pair,
    literal_plains (by simp [hd]), Option.map_map]
  rfl

lemma reads_unicode {v : Bytes} (h : n < 0x10000) (hs : n < 0xD800 ∨ 0xDFFF < n)
    (hv : codepointToUtf8 n = some v) : Reads (unicodeEscape n) v where
  value r := by
    refine unescape_utf16 (k := 6) ((utf16_unit h hs).trans ?_) rfl
    rw [hv]
    rfl
  text := literal_unicodeEscape n

/-! ## What `json.dumps` has written -/

lemma escapeDct_read : ∀ p ∈ escapeDct,
    p.2 ≠ 117 ∧ (unescapeChar p.2).map (fun b => [b]) = some (String.utf8EncodeChar p.1) := by
  decide

lemma not_surrogate (c : Char) : c.toNat < 0xD800 ∨ 0xDFFF < c.toNat :=
  c.valid.imp_right And.left

lemma printable {c : Char} (hl : escapeDct.lookup c = none) (h : c.toNat ≤ 126) :
    c.toNat.toUInt8 ≠ 34 ∧ c.toNat.toUInt8 ≠ 92 := by
  have hd : ∀ d : Char, (escapeDct.lookup d).isSome = true →
      c.toNat.toUInt8 ≠ .ofNat d.toNat ∨ 256 ≤ d.toNat := by
    intro d hd
    refine or_iff_not_imp_right.2 fun hlt he => ?_
    have := congrArg UInt8.toNat he
    rw [UInt8.toNat_ofNat_of_lt' (by show c.toNat < 256; omega),
      UInt8.toNat_ofNat_of_lt' (by show d.toNat < 256; omega)] at this
    obtain rfl := Char.toNat_inj.1 this
    rw [hl] at hd
    cases hd
  exact ⟨(hd '"' rfl).resolve_right (by decide), (hd '\\' rfl).resolve_right (by decide)⟩

lemma reads_escape (c : Char) : Reads (escape c) (String.utf8EncodeChar c) := by
  have hcp := codepointToUtf8_char c
  unfold escape
  cases hl : escapeDct.lookup c with
  | some e =>
    have hm : (c, e) ∈ escapeDct := by
      obtain ⟨l₁, l₂, h, -⟩ := lookup_eq_some_iff.1 hl
      rw [h]
      exact mem_append_right _ mem_cons_self
    obtain ⟨he, hu⟩ := escapeDct_read _ hm
    obtain ⟨b, hb, hc⟩ := map_eq_some_iff.1 hu
    rw [← hc]
    exact reads_char he hb
  | none =>
    dsimp only
    split_ifs with h1 h2
    · have hu : String.utf8EncodeChar c = [c.toNat.toUInt8] := if_pos (show c.toNat ≤ 127 by omega)
      rw [hu]
      exact reads_plain (printable hl h1.2).1 (printable hl h1.2).2
    · exact reads_unicode h2 (not_surrogate c) hcp
    · have hle := toNat_le c
      obtain ⟨hhi, hlo, hn⟩ := surrogates (n := c.toNat - 0x10000) (by omega)
      refine ⟨fun r => ?_, fun r => ?_⟩
      · have hp := utf16_pair (r := r) hhi hlo
        rw [hn, Nat.add_sub_cancel' (by omega), hcp] at hp
        exact unescape_utf16 (k := 12) ((congrArg _ (append_assoc _ _ _)).trans hp) rfl
      · rw [append_assoc, literal_unicodeEscape, literal_unicodeEscape, Option.map_map]
        congr 1

lemma parseString_dumps (s : List Char) :
    parseString (dumps s) = some (s.flatMap String.utf8EncodeChar, []) :=
  (Reads.flatMap reads_escape s).parseString

end Json

/-! ## The token of a tunnel -/

lemma cStr_eq_self (h : 0 ∉ p) : cStr p = p :=
  takeWhile_eq_self_iff.2 fun x hx => by
    simp only [ne_eq, decide_not, Bool.not_eq_true', decide_eq_false_iff_not]
    rintro rfl
    exact h hx

lemma SharedToken.field_eq (token : SharedToken) : token.field = some (cStr token.bytes) := by
  rw [field, Json.parseString_dumps]
  rfl

lemma SharedToken.bytes_pos (token : SharedToken) : 1 ≤ token.bytes.length := by
  obtain ⟨chars, h, -⟩ := token
  cases chars with
  | nil => simp at h
  | cons c =>
    have hc := String.length_utf8EncodeChar c ▸ c.utf8Size_pos
    simp only [bytes, flatMap_cons, length_append]
    omega

namespace Api

variable {cfg : Settings} {cap : Bytes → Bytes} {digest : Bytes → Digest} {s s' : State}
  {i : Label} {u : Task} {t : Turn} {id H : Bytes} {body : TunnelCreate} {ts : List Task}
  {rate : RateWindow} {up : Bool}

variable {a : Answer} {b : Broker} {d : Draw}

lemma exec_token {b' : Broker} {k : BrokerCall} (hw : Wf b)
    (hn : IdsNodup b) (h : k.exec digest d b = some (b', a)) {y : Record} (hy : y ∈ b'.records) :
    (∃ x ∈ b.records, x.id = y.id ∧ x.closed = y.closed ∧ x.sharedTokenHmac = y.sharedTokenHmac) ∨
    (∃ r secret token, k = .createTunnel r ∧ y.id = r.tunnelId ∧ y.closed = r.closed ∧
      y.sharedTokenHmac = tokenHmacOf digest r d.rand' ∧
      a = .reply (.created y.id y.port secret y.agentSecretHmac token y.sharedTokenHmac)) ∨
    k = .rotate .sharedToken y.id := by
  by_cases hk : ∃ r, k = .createTunnel r
  · obtain ⟨r, rfl⟩ := hk
    obtain ⟨rfl, rfl⟩ := exec_ipc rfl h
    rcases records_create digest b r d.rand d.rand' d.bound with
      ⟨hr, -⟩ | ⟨x, hr, -, hid, -, hc, -, -, hth, -, -, secret, token, hm⟩
    · exact .inl ⟨y, hr ▸ hy, rfl, rfl, rfl⟩
    · rcases mem_cons.1 (hr ▸ hy) with rfl | hy
      · exact .inr (.inl ⟨r, secret, token, rfl, hid, hc, hth, congrArg Answer.reply hm⟩)
      · exact .inl ⟨y, hy, rfl, rfl, rfl⟩
  · have he := exec_effect hw hn h
    generalize b'.records = rs at he hy
    cases he with
    | created _ | notCreated => exact absurd ⟨_, rfl⟩ hk
    | deleted => exact .inl ⟨y, (mem_filter.1 hy).1, rfl, rfl, rfl⟩
    | switched =>
      obtain ⟨x, hx, rfl⟩ := mem_map.1 hy
      exact .inl ⟨x, hx, by split_ifs <;> exact ⟨rfl, rfl, rfl⟩⟩
    | @rotated cred =>
      obtain ⟨x, hx, rfl⟩ := mem_map.1 hy
      split_ifs with hi
      · cases cred with
        | agentSecret => exact .inl ⟨x, hx, rfl, rfl, rfl⟩
        | sharedToken => exact .inr (.inr (by rw [setHmac_id, hi]))
      · exact .inl ⟨x, hx, rfl, rfl, rfl⟩
    | _ => exact .inl ⟨y, hy, rfl, rfl, rfl⟩

lemma call_rotate {w : Wait} {cred : Cred} (h : w.call = .rotate cred id) :
    w = .rotate cred id := by
  cases w with
  | rotate =>
    obtain ⟨rfl, rfl⟩ := BrokerCall.rotate.inj h
    rfl
  | update j v => cases v <;> cases h
  | _ =>
    cases h

lemma step_exec {c : Ref} (hs : Api.step cfg cap digest s (.exec c d) = some s') :
    ∃ u ∈ s.sent, u.ref = c ∧ ∃ b a, u.wait.call.exec digest d s.broker = some (b, a) ∧
      s' = s.executed u b a := by
  obtain ⟨u, hu, h⟩ := bind_eq_some_iff.1 hs
  obtain ⟨⟨b, a⟩, hex, rfl⟩ := map_eq_some_iff.1 h
  have hk : u.ref = c := key_of_get hu
  exact ⟨u, mem_of_get hu, hk, b, a, hex, by rw [State.executed, hk]⟩

def Fits (id H : Bytes) (i : Bytes) (closed : Bool) (hmac : Bytes) : Prop :=
  i = id → closed = true ∧ hmac = H

structure Wait.Fits (id H : Bytes) (body : TunnelCreate) (w : Wait) : Prop where
  rows : ∀ row ∈ w.rows, Api.Fits id H row.tunnelId row.closed row.sharedTokenHmac
  create : ∀ body' ip secret, w = .create body' ip id secret → body' = body

structure Answer.Fits (id H : Bytes) (w : Wait) (a : Answer) : Prop where
  created : ∀ body ip secret j p x ah tok th, w = .create body ip id secret →
    a = .reply (.created j p x ah tok th) → body.closed = true ∧ th = H
  rotated : ∀ secret h, w = .rotate .sharedToken id → a ≠ .reply (.rotated secret h)

structure Bears (id H : Bytes) (body : TunnelCreate) (s : State) : Prop where
  records : ∀ x ∈ s.broker.records, Fits id H x.id x.closed x.sharedTokenHmac
  rows : ∀ row ∈ s.db, Fits id H row.tunnelId row.closed row.sharedTokenHmac
  waits : ∀ u, u ∈ s.tasks ∨ u ∈ s.sent → u.wait.Fits id H body
  answers : ∀ u ∈ s.tasks, ∀ a, s.answers.lookup u.ref = some a → a.Fits id H u.wait

def keepsToken (id : Bytes) (body : TunnelCreate) (s : State) : Label → Bool
  | .request (.createTunnel body' _ _ id' _) => id' ≠ id || body' = body
  | .exec c _ => s.sent.all fun u => u.ref ≠ c || u.wait ≠ .rotate .sharedToken id
  | _ => true

namespace Bears

section

variable (h : Bears id H body s)
include h

lemma turn (hb : Base digest s) (ht : ts ⊆ s.tasks)
    (hrows : ∀ row ∈ t.db, Fits id H row.tunnelId row.closed row.sharedTokenHmac)
    (hw : ∀ w, t.wait = some w → w.Fits id H body) :
    Bears id H body ((s.withTasks ts rate up).turn t) where
  records := by
    rw [turn_broker]
    exact h.records
  rows := by
    rw [turn_db]
    exact hrows
  waits := by
    intro u hu
    rcases calls_turn.1 hu with ⟨w, hwt, rfl⟩ | hu
    · exact hw w hwt
    · exact h.waits u (hu.imp_left (ht ·))
  answers := by
    intro u hu a hl
    obtain ⟨hu, hl⟩ := hb.old hu hl
    exact h.answers u (ht hu) a hl

omit h in
lemma rows_update {db : List Row} {f : Row → Row} {j : Bytes}
    (h : ∀ row ∈ db, Fits id H row.tunnelId row.closed row.sharedTokenHmac)
    (hf : ∀ row, (f row).tunnelId = row.tunnelId ∧ (f row).closed = row.closed ∧
      (row.tunnelId = j → j = id → (f row).sharedTokenHmac = row.sharedTokenHmac)) :
    ∀ row ∈ updateRow j f db, Fits id H row.tunnelId row.closed row.sharedTokenHmac := by
  intro row' hrow'
  obtain ⟨row, hrow, rfl⟩ := mem_map.1 hrow'
  obtain ⟨h1, h2, h3⟩ := hf row
  split_ifs with hj
  · intro hid
    rw [h1] at hid
    rw [h2, h3 hj (hj.symm.trans hid)]
    exact h row hrow hid
  · exact h row hrow

lemma resume {o : Outcome} {r : Except BrokerExc Answer}
    (hb : Base digest s) (hu : u ∈ s.tasks) (hr : o.result (s.answers.lookup u.ref) = some r)
    (hd : Done cfg cap s.now s.db r u.wait t) : Bears id H body ((s.resumed u).turn t) := by
  have hfit := h.waits u (.inl hu)
  have hans : ∀ a, r = .ok a → a.Fits id H u.wait := fun a ha =>
    h.answers u hu a (result_ok (ha ▸ hr))
  have other : ∀ {db : List Row} {w : Option Wait} {resp : Option Response} {st : Bool},
      (∀ row ∈ db, Fits id H row.tunnelId row.closed row.sharedTokenHmac) →
      (∀ w', w = some w' → w'.Fits id H body) →
      Bears id H body ((s.resumed u).turn ⟨db, w, resp, st⟩) := fun hrows hw =>
    h.turn hb (fun _ hv => (mem_del.1 hv).1) hrows hw
  have bare : ∀ {w : Wait}, w.rows = [] → w.creates = false → w.Fits id H body :=
    fun hr hc => ⟨by simp [hr], by rintro _ _ _ rfl; cases hc⟩
  generalize u.wait = w at *
  cases hd with
  | created _ he =>
    refine other (fun row hrow => ?_) (by simp)
    rcases mem_append.1 hrow with hrow | hrow
    · exact h.rows row hrow
    · rw [mem_singleton.1 hrow]
      rintro rfl
      exact (hans _ he).created _ _ _ _ _ _ _ _ _ rfl rfl
  | updated _ _ | deleted _ _ | reaped =>
    exact other (rows_update h.rows fun _ => ⟨rfl, rfl, fun _ _ => rfl⟩) (by simp)
  | reapedNext =>
    refine other (rows_update h.rows fun _ => ⟨rfl, rfl, fun _ _ => rfl⟩) fun w hw => ?_
    cases hw
    exact bare rfl rfl
  | @rotated cred j secret hmac resp _ he =>
    refine other (rows_update h.rows fun row => ?_) (by simp)
    cases cred with
    | agentSecret => exact ⟨rfl, rfl, fun _ _ => rfl⟩
    | sharedToken =>
      refine ⟨rfl, rfl, ?_⟩
      rintro - rfl
      exact absurd rfl ((hans _ he).rotated secret hmac rfl)
  | notStored =>
    refine other h.rows fun w hw => ?_
    cases hw
    exact bare rfl rfl
  | disables =>
    refine other h.rows fun w hw => ?_
    cases hw
    exact ⟨fun row hrow => hfit.rows row (mem_cons_of_mem _ hrow), by simp⟩
  | restores _ hsub =>
    refine other h.rows fun w hw => ?_
    cases hw
    exact ⟨fun row hrow => hfit.rows row (hsub row hrow), by simp⟩
  | _ =>
    exact other h.rows (by simp)

lemma exec (hb : Base digest s)
    (hu : u ∈ s.sent) (hex : u.wait.call.exec digest d s.broker = some (b, a))
    (hne : u.wait ≠ .rotate .sharedToken id) (hlen : H.length = 64) (hc : body.closed = true)
    (hH : ∀ i rand', tokenHmacOf digest (createReq body i) rand' = H) :
    Bears id H body (s.executed u b a) := by
  have hw := hb.wf
  have hfit := h.waits u (.inr hu)
  have hrec : ∀ y ∈ b.records, Fits id H y.id y.closed y.sharedTokenHmac := by
    intro y hy hid
    rcases exec_token hw hb.registry hex hy with ⟨x, hx, h1, h2, h3⟩ |
      ⟨r, secret, token, hk, hi, hcl, hth, -⟩ | hk
    · rw [← h2, ← h3]
      exact h.records x hx (h1.trans hid)
    · rw [hcl, hth]
      rcases call_create hk with ⟨body', ip, j, secret, hwt, rfl⟩ | ⟨row, rest, hwt, rfl⟩
      · obtain rfl : j = id := hi.symm.trans hid
        obtain rfl := hfit.create _ _ _ hwt
        exact ⟨hc, hH _ _⟩
      · have hrow := hfit.rows row (by rw [hwt]; exact mem_cons_self) (hi.symm.trans hid)
        refine ⟨hrow.1, ?_⟩
        have : (restoreReq row).sharedTokenHmac.filter (·.length = 64) = some H := by
          simp [restoreReq, hrow.2, hlen]
        rw [tokenHmacOf, this]
        rfl
    · rw [hid] at hk
      exact absurd (call_rotate hk) hne
  refine ⟨hrec, h.rows, fun v hv => h.waits v (hv.imp_right fun hv => (mem_del.1 hv).1), ?_⟩
  intro v hv a' hl
  rw [hb.answer_exec hu hv] at hl
  split_ifs at hl with hvu
  · cases hl
    subst hvu
    refine ⟨?_, fun _ _ hwt => absurd hwt hne⟩
    rintro body' ip secret j p x ah tok th hwt rfl
    have he := exec_effect hw hb.registry hex
    rw [hwt] at he
    obtain ⟨y, hy, hrs, -, rfl, -⟩ := he.created_inv
    refine ⟨(hfit.create _ _ _ hwt).symm ▸ hc, ?_⟩
    exact (hrec y (hrs ▸ mem_cons_self) hy.id).2
  · exact h.answers v hv a' hl

omit h in
lemma init (hi : Init s) : Bears id H body s := by
  obtain ⟨⟨c, -, hc⟩, he⟩ := hi
  rw [hc] at he
  subst he
  exact ⟨fun x hx => (by cases hx), by simp, by simp, by simp⟩

lemma step (hb : Base digest s) (hk : keepsToken id body s i = true)
    (hlen : H.length = 64) (hc : body.closed = true)
    (hH : ∀ i rand', tokenHmacOf digest (createReq body i) rand' = H)
    (hs : Api.step cfg cap digest s i = some s') : Bears id H body s' := by
  cases hb.does hs with
  | tick => exact { h with }
  | request hq =>
    cases hq with
    | refused => exact h.turn hb (.refl _) h.rows (by simp)
    | renewed =>
      exact h.turn hb (.refl _) (rows_update h.rows fun _ => ⟨rfl, rfl, fun _ _ => rfl⟩) (by simp)
    | begins hbeg =>
      refine h.turn hb (.refl _) h.rows fun w hw => ?_
      cases hw
      cases hbeg with
      | create _ =>
        refine ⟨by simp [Wait.rows], fun body' ip secret hw => ?_⟩
        obtain ⟨rfl, -, rfl, -⟩ := Wait.create.inj hw
        simpa [keepsToken] using hk
      | _ => exact ⟨by simp [Wait.rows], by simp⟩
  | idle => exact h
  | reap =>
    refine h.turn hb (.refl _) h.rows fun w hw => ?_
    cases hw
    exact ⟨by simp [Wait.rows], by simp⟩
  | @exec d u b a hu he =>
    have hne : u.wait ≠ .rotate .sharedToken id := by simpa using all_eq_true.1 hk u hu
    obtain ⟨v, hv, hvu, b', a', hex, he'⟩ := step_exec hs
    obtain rfl : v = u := eq_of_key hb.sent.nodup hv hu hvu
    rw [he']
    exact h.exec hb hv hex hne hlen hc hH
  | drop _ =>
    exact ⟨h.records, h.rows, fun v hv => h.waits v (hv.imp_right fun hv => (mem_del.1 hv).1),
      h.answers⟩
  | resume hu hr hd => exact h.resume hb hu hr hd
  | broker hr =>
    refine ⟨?_, h.rows, h.waits, h.answers⟩
    rw [hr]
    exact h.records
  | brokerRestart =>
    exact ⟨fun x hx => (by cases hx), h.rows, fun u hu => h.waits u (.inl (by simpa using hu)),
      h.answers⟩
  | apiRestart =>
    refine h.turn hb (nil_subset _) h.rows fun w hw => ?_
    cases hw
    refine ⟨fun row hrow => ?_, by simp⟩
    exact h.rows row (mem_restorable hrow)

end

end Bears

lemma peerAuth_accepts {tun : Tunnel} {secret : Bytes} {f : Frame} (c : Conn)
    (w : Write) (hid : 1 ≤ id.length) (hid' : id.length ≤ tmTunnelIdLen) (h0 : 0 ∉ id)
    (hs : 1 ≤ secret.length) (hs' : secret.length ≤ tmMaxSecret)
    (hf : f.payload = wrU16 id.length ++ id ++ secret) (ht : tmTunnelFind id b = some tun)
    (he : tun.enabled = true) (hc : tun.closed = true)
    (hh : tun.sharedTokenHmac = hexOf digest secret) :
    peerAuth digest c f w b = sendFrameRaw { conn := c.ref, type := .authOk } w
      (b.updConn c.ref fun c => { c with peerAuthed := true, peerTun := some tun.ref }) := by
  have hne : hexOf digest secret ≠ [] := by
    intro h
    have := length_hexOf digest secret
    rw [h] at this
    cases this
  have hu : tun.usable = true := by simp [Tunnel.usable, he, hc, hh, hne]
  have heq : tmCtEqHex (hexOf digest secret) tun.sharedTokenHmac = true := by
    rw [hh]
    exact (tmCtEqHex_toHex _ _).2 (fromHex_toHex _)
  rw [peerAuth, hf, credSplit_wrU16 hid hid' hs hs']
  dsimp only
  rw [cStr_eq_self h0, ht]
  simp [hu, heq, Option.filter]

/-- As long as the tunnel is enabled and its token was not rotated, the broker accepts the bytes of
a token of at most 256 bytes without a NUL, whatever restarts and lost calls there were. -/
theorem shared_token_accepted {tr : List (State × Label)}
    (h : Trace (Api.step cfg cap digest) Init tr s) (token : SharedToken) (protocol : Proto)
    (preferPort : Option ℕ) (hlen : token.bytes.length ≤ tmMaxSecret) (hnul : 0 ∉ token.bytes)
    (hid : 1 ≤ id.length) (hid' : id.length ≤ tmTunnelIdLen) (h0 : 0 ∉ id)
    (hk : ∀ p ∈ tr, keepsToken id (token.body protocol preferPort) p.1 p.2 = true)
    {tun : Tunnel} (ht : tmTunnelFind id s.broker = some tun) (he : tun.enabled = true)
    (c : Conn) (f : Frame) (w : Write) (hf : f.payload = wrU16 id.length ++ id ++ token.bytes) :
    peerAuth digest c f w s.broker = sendFrameRaw { conn := c.ref, type := .authOk } w
      (s.broker.updConn c.ref fun c => { c with peerAuthed := true, peerTun := some tun.ref }) := by
  have hfield : token.field = some token.bytes := by
    rw [token.field_eq, cStr_eq_self hnul]
  have hne : token.bytes ≠ [] := length_pos_iff.1 token.bytes_pos
  have hH : ∀ i rand', tokenHmacOf digest (createReq (token.body protocol preferPort) i) rand' =
      hexOf digest token.bytes := by
    intro i rand'
    simp [tokenHmacOf, createReq, body, hfield, secretOr, hne, take_of_length_le hlen]
  obtain ⟨-, hb⟩ := h.inv_of_ok
    (I := fun s => Base digest s ∧
      Bears id (hexOf digest token.bytes) (token.body protocol preferPort) s)
    (fun s hi => ⟨.init hi, .init hi⟩)
    (fun s i s' hi hk hs => ⟨hi.1.step hs, hi.2.step hi.1 hk (length_hexOf digest _) rfl hH hs⟩) hk
  obtain ⟨hm, hti⟩ := record_of_find ht
  obtain ⟨hc, hh⟩ := hb.records _ hm hti
  exact peerAuth_accepts c w hid hid' h0 token.bytes_pos hlen hf ht he hc hh

def Response.isCreated : Response → Bool
  | .created .. => true
  | _ => false

def asciiToken : SharedToken := ⟨.replicate 16 'a', by decide, by decide⟩

theorem shared_token_accepted_ascii : ∃ tr s, Trace smallStep Init tr s ∧
    s.responses.map Response.isCreated = [true] ∧ ∃ tun, tmTunnelFind [65] s.broker = some tun ∧
      peerAuth padDigest { ref := 9 } ⟨.auth, 0, [0, 1, 65] ++ asciiToken.bytes⟩ .taken s.broker =
        sendFrameRaw { conn := 9, type := .authOk } .taken (s.broker.updConn 9 fun c =>
          { c with peerAuthed := true, peerTun := some tun.ref }) := by
  have hb : asciiToken.bytes = replicate 16 97 := by decide
  have hbody : asciiToken.body .tcp none =
      { closed := true, sharedToken := some (.replicate 16 97) } := by
    rw [body, asciiToken.field_eq, hb]
    rfl
  obtain ⟨tr, s, h, hk, hr, ht⟩ :=
    exists_trace smallStep Init smallState_init
      [.request (.createTunnel { closed := true, sharedToken := some (.replicate 16 97) } []
          false [65] [7]), .exec 0 {}, .resume 0 .answered true]
      (fun r => (∀ p ∈ r.1, keepsToken [65]
          { closed := true, sharedToken := some (.replicate 16 97) } p.1 p.2 = true) ∧
        r.2.responses.map Response.isCreated = [true] ∧
        (tmTunnelFind [65] r.2.broker).any (·.enabled) = true)
      (by decide)
  obtain ⟨tun, ht, he⟩ := (any_eq_true _ _).1 ht
  refine ⟨tr, s, h, hr, tun, ht, ?_⟩
  exact shared_token_accepted h asciiToken .tcp none (by rw [hb]; decide) (by rw [hb]; decide)
    (by decide) (by decide) (by decide) (hbody ▸ hk) ht he _ _ _ rfl

def lengthDigest (s : Bytes) : Digest := .replicate 32 s.length.toUInt8

def longToken : SharedToken := ⟨.replicate 129 'é', by simp, by simp⟩

def longBody : TunnelCreate :=
  { closed := true, sharedToken := some (replicate 129 [195, 169]).flatten }

lemma longToken_bytes : longToken.bytes = (replicate 129 [195, 169]).flatten :=
  flatMap_replicate

lemma longToken_body : longToken.body .tcp none = longBody := by
  have h0 : 0 ∉ longToken.bytes := by
    rw [longToken_bytes]
    intro h
    obtain ⟨l, hl, h⟩ := mem_flatten.1 h
    rw [eq_of_mem_replicate hl] at h
    revert h
    decide
  rw [body, longToken.field_eq, cStr_eq_self h0, longToken_bytes]
  rfl

/-- The token of 258 bytes is cut to 256. The request succeeds, and the peer is turned away. -/
theorem shared_token_cut : ∃ tr s,
    Trace (Api.step smallSettings (fun x => x) lengthDigest) Init tr s ∧
    (∀ p ∈ tr, keepsToken [65] (longToken.body .tcp none) p.1 p.2 = true) ∧
    s.responses.map Response.isCreated = [true] ∧
    (tmTunnelFind [65] s.broker).any (·.enabled) = true ∧
    peerAuth lengthDigest { ref := 9 } ⟨.auth, 0, [0, 1, 65] ++ longToken.bytes⟩ .taken s.broker =
      sendAndClose { conn := 9, type := .authError, msg := "bad credentials" } .taken
        s.broker.failedAuth := by
  rw [longToken_body, longToken_bytes]
  obtain ⟨tr, s, h, hk, hr, ht, hne⟩ :=
    exists_trace (Api.step smallSettings (fun x => x) lengthDigest) Init smallState_init
      [.request (.createTunnel longBody [] false [65] [7]), .exec 0 {}, .resume 0 .answered true]
      (fun r => (∀ p ∈ r.1, keepsToken [65] longBody p.1 p.2 = true) ∧
        r.2.responses.map Response.isCreated = [true] ∧
        (tmTunnelFind [65] r.2.broker).any (·.enabled) = true ∧
        ((tmTunnelFind [65] r.2.broker).filter fun t => t.usable && tmCtEqHex
          (hexOf lengthDigest (replicate 129 [195, 169]).flatten) t.sharedTokenHmac).isNone =
            true) (by decide +kernel)
  refine ⟨tr, s, h, hk, hr, ht, ?_⟩
  have hs : credSplit ([0, 1, 65] ++ (replicate 129 [195, 169]).flatten) =
      some ⟨[65], (replicate 129 [195, 169]).flatten⟩ := by decide +kernel
  rw [peerAuth, hs]
  dsimp only
  rw [show cStr [65] = [65] from rfl, isNone_iff_eq_none.1 hne]

end Api

end TunnelMate
