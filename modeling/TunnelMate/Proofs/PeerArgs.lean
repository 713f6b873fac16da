import Mathlib.Data.List.TakeWhile
import TunnelMate.PeerArgs
import TunnelMate.Proofs.Config

/-!
# What the peer's addresses are
-/

namespace TunnelMate.PeerArgs

open List

/-- The digits `p` write the port `n`. -/
def Number (p : Bytes) (n : ℕ) : Prop :=
  p ≠ [] ∧ (∀ b ∈ p, isDigit b = true) ∧ decimal p = n ∧ 1 ≤ n ∧ n ≤ 65535

/-- What is taken for the port `n`: its digits may have white space and a plus sign before them. -/
def Taken (p : Bytes) (n : ℕ) : Prop := ∃ ws sign digits, p = ws ++ (sign ++ digits) ∧
  (∀ b ∈ ws, isSpace b = true) ∧ (sign = [] ∨ sign = [43]) ∧ Number digits n

/-- The text `t` behind a host stands for the port `n`. -/
inductive PortText : Bytes → ℕ → Prop
  | absent : PortText [] 7000
  | given {p : Bytes} {n : ℕ} : Number p n → PortText (58 :: p) n

/-- `s` is the host, with brackets or without, and the text `t`. -/
def Written (s host t : Bytes) : Prop :=
  host.head? ≠ some 91 ∧ s = host ++ t ∨ s = 91 :: host ++ 93 :: t

variable {c : UInt8} {s a b p host : Bytes} {n : ℕ}

lemma strchr_eq_some : strchr c s = some (a, b) ↔ s = a ++ c :: b ∧ c ∉ a := by
  unfold strchr
  constructor
  · intro h
    split_ifs at h with hc
    obtain ⟨s₁, s₂, rfl, hs⟩ := eq_append_cons_of_mem hc
    rw [(Config.cut_at hs _).1, (Config.cut_at hs _).2] at h
    cases h
    exact ⟨rfl, hs⟩
  · rintro ⟨rfl, ha⟩
    rw [if_pos (by simp), (Config.cut_at ha _).1, (Config.cut_at ha _).2, tail_cons]

lemma strrchr_eq_some : strrchr c s = some (a, b) ↔ s = a ++ c :: b ∧ c ∉ b := by
  have hs (x : Bytes × Bytes) :
      (x.2.reverse, x.1.reverse) = (a, b) ↔ x = (b.reverse, a.reverse) := by
    rcases x with ⟨y, z⟩
    simp only [Prod.mk.injEq, reverse_eq_iff]
    exact and_comm
  simp only [strrchr, Option.map_eq_some_iff, hs, exists_eq_right, strchr_eq_some, mem_reverse,
    reverse_eq_iff, reverse_append, reverse_cons, reverse_reverse, append_assoc, singleton_append]

lemma strrchr_eq_none : strrchr c s = none ↔ c ∉ s := by
  simp [strrchr, strchr]

/-! ## The port -/

lemma isDigit_iff : isDigit c = true ↔ 48 ≤ c.toNat ∧ c.toNat ≤ 57 := by
  simp [isDigit, UInt8.le_iff_toNat_le]

lemma isSpace_iff : isSpace c = true ↔ c.toNat = 32 ∨ 9 ≤ c.toNat ∧ c.toNat ≤ 13 := by
  simp [isSpace, UInt8.le_iff_toNat_le, ← UInt8.toNat_inj]

lemma number_eq {u : Bytes} : number u = some (n, []) ↔
    u ≠ [] ∧ (∀ b ∈ u, isDigit b = true) ∧ decimal u = n := by
  unfold number
  constructor
  · intro h
    split_ifs at h with hn
    simp only [Option.some.injEq, Prod.mk.injEq, dropWhile_eq_nil_iff] at h
    rw [takeWhile_eq_self_iff.2 h.2] at hn h
    exact ⟨hn, h.2, h.1⟩
  · rintro ⟨hn, hd, rfl⟩
    rw [takeWhile_eq_self_iff.2 hd, dropWhile_eq_nil_iff.2 hd, if_neg hn]

lemma taken_of_port (h : port p = some n) : Taken p n := by
  have hp := takeWhile_append_dropWhile (p := isSpace) (l := p)
  have hw : ∀ b ∈ p.takeWhile isSpace, isSpace b = true := fun b hb => mem_takeWhile_imp hb
  unfold port at h
  dsimp only at h
  split_ifs at h with hr
  simp only [not_or, ne_eq, not_not, not_lt] at hr
  obtain ⟨hr, hl, hg⟩ := hr
  unfold strtol at h hr hl hg
  dsimp only at h hr hl hg
  split_ifs at h hr hl hg with hneg hpos
  · rcases hv : number (p.dropWhile isSpace).tail with _ | ⟨v, r⟩ <;> rw [hv] at hl
    · simp at hl
    · simp only [Option.elim_some] at hl
      omega
  all_goals
    rcases hv : number _ with _ | ⟨v, r⟩ <;> rw [hv] at h hr hl hg
    · simp at hl
    simp only [Option.elim_some] at h hr hl hg
    subst hr
    obtain ⟨hne, hd, rfl⟩ := number_eq.1 hv
    have hn := Option.some.inj h
  · obtain ⟨u, hu⟩ := head?_eq_some_iff.1 hpos
    rw [hu, tail_cons] at hne hd hl hg hn
    rw [hu] at hp
    exact ⟨_, [43], u, hp.symm, hw, .inr rfl, hne, hd, by omega, by omega, by omega⟩
  · exact ⟨_, [], _, hp.symm, hw, .inl rfl, hne, hd, by omega, by omega, by omega⟩

lemma port_of_taken (h : Taken p n) : port p = some n := by
  obtain ⟨ws, sign, ds, rfl, hws, hsign, hne, hd, rfl, hl, hg⟩ := h
  have hnum := number_eq.2 ⟨hne, hd, rfl⟩
  obtain ⟨d, ds', rfl⟩ := exists_cons_of_ne_nil hne
  have hdig := isDigit_iff.1 (hd d mem_cons_self)
  have hs (b : UInt8) (hb : b.toNat < 48) : d ≠ b := by
    rintro rfl
    omega
  have h0 : ¬ isSpace d = true := by
    rw [isSpace_iff]
    omega
  have hst : strtol (ws ++ (sign ++ d :: ds')) =
      (min (decimal (d :: ds') : ℤ) (2 ^ 63 - 1), []) := by
    unfold strtol
    rw [dropWhile_append_of_pos hws]
    rcases hsign with rfl | rfl
    · rw [nil_append, dropWhile_cons_of_neg h0]
      simp only [head?_cons, Option.some.injEq, hs 45 (by decide), hs 43 (by decide), if_false,
        hnum, Option.elim_some]
    · rw [singleton_append, dropWhile_cons_of_neg (by decide)]
      simp [hnum]
  rw [port, hst]
  dsimp only
  rw [if_neg (by simp only [ne_eq, not_true, false_or]; omega)]
  congr 1
  omega

/-! ## The host -/

/-- How `parse_tunnel_url` cuts the text before the `/`: a host in brackets ends at the first
closing bracket, and a bare one at the last colon. -/
def Cut (s host t : Bytes) : Prop :=
  s = 91 :: host ++ 93 :: t ∧ 93 ∉ host ∨
    s.head? ≠ some 91 ∧ s = host ++ t ∧ 58 ∉ t.tail ∧ (t = [] → 58 ∉ host)

lemma authority_cases (s : Bytes) : authority s = .error .refused ∨
    ∃ host n t, authority s = .ok (host, n) ∧ Cut s host t ∧
      (t = [] ∧ n = 7000 ∨ ∃ p, t = 58 :: p ∧ Taken p n) := by
  unfold authority
  split_ifs with hb
  · obtain ⟨t, rfl⟩ := head?_eq_some_iff.1 hb
    split
    · exact .inl rfl
    rename_i inner after hs
    obtain ⟨he, hm⟩ := strchr_eq_some.1 hs
    rcases inner with _ | ⟨x, inner⟩
    · cases he
    obtain ⟨rfl, rfl⟩ := cons.inj he
    rw [if_neg (by simp)]
    have hc : Cut (91 :: inner ++ 93 :: after) inner after :=
      .inl ⟨rfl, fun h => hm (mem_cons_of_mem _ h)⟩
    split_ifs with h₁ h₂
    · exact .inr ⟨inner, _, _, rfl, hc, .inl ⟨h₁, rfl⟩⟩
    · obtain ⟨p, rfl⟩ := head?_eq_some_iff.1 h₂
      cases hp : port p with
      | none => exact .inl (by simp [hp])
      | some v => exact .inr ⟨inner, v, _, by simp [hp], hc, .inr ⟨p, rfl, taken_of_port hp⟩⟩
    · exact .inl rfl
  · split
    · rename_i hs
      refine .inr ⟨s, _, [], rfl, .inr ⟨hb, (append_nil s).symm, by simp, fun _ => ?_⟩,
        .inl ⟨rfl, rfl⟩⟩
      exact strrchr_eq_none.1 hs
    rename_i host p hs
    cases hp : port p with
    | none => exact .inl rfl
    | some v =>
      obtain ⟨he, hm⟩ := strrchr_eq_some.1 hs
      exact .inr ⟨host, v, _, rfl, .inr ⟨hb, he, hm, nofun⟩, .inr ⟨p, rfl, taken_of_port hp⟩⟩

lemma authority_cut (hc : Cut s host (58 :: p)) (h : Taken p n) : authority s = .ok (host, n) := by
  have hp := port_of_taken h
  unfold authority
  obtain ⟨rfl, hm⟩ | ⟨hb, he, hm, -⟩ := hc
  · have hs : strchr 93 (91 :: host ++ 93 :: 58 :: p) = some (91 :: host, 58 :: p) :=
      strchr_eq_some.2 ⟨rfl, by simpa using hm⟩
    rw [if_pos (by rfl), hs]
    simp [hp]
  · have hs : strrchr 58 s = some (host, p) := strrchr_eq_some.2 ⟨he, hm⟩
    rw [if_neg hb]
    simp [hs, hp]

/-- What `parse_tunnel_url` finds in a URL: the text before the `/`, the host, the text behind it
and the id, all of lengths it can store. -/
structure Parts (url s host t id : Bytes) : Prop where
  url : url = scheme ++ s ++ 47 :: id
  slash : 47 ∉ s
  cut : Cut s host t
  lengths : s.length < 512 ∧ id ≠ [] ∧ id.length ≤ 128 ∧ host ≠ [] ∧ host.length < 256

lemma parseTunnelUrl_cases (url : Bytes) : parseTunnelUrl url = .error .refused ∨
    ∃ s host t id n, parseTunnelUrl url = .ok (host, n, id) ∧ Parts url s host t id ∧
      (t = [] ∧ n = 7000 ∨ ∃ p, t = 58 :: p ∧ Taken p n) := by
  unfold parseTunnelUrl
  split_ifs with hu
  · obtain ⟨rest, rfl⟩ := hu
    split
    · exact .inl rfl
    rename_i s id hs
    split_ifs with hl
    · exact .inl rfl
    obtain he | ⟨host, n, t, he, hc, ht⟩ := authority_cases s
    · exact .inl (by rw [he]; rfl)
    rw [he, Except.bind]
    split_ifs with hl'
    · exact .inl rfl
    simp only [not_or, not_le, not_lt] at hl hl'
    obtain ⟨hr, hm⟩ := strchr_eq_some.1 hs
    refine .inr ⟨s, host, t, id, n, rfl, ⟨?_, hm, hc, hl.2.1, hl.2.2.1, hl.2.2.2, hl'⟩, ht⟩
    rw [append_assoc, ← hr]
    rfl
  · exact .inl rfl

lemma parseTunnelUrl_parts {url id : Bytes} (h : Parts url s host (58 :: p) id) (ht : Taken p n) :
    parseTunnelUrl url = .ok (host, n, id) := by
  obtain ⟨rfl, hs, hc, h₁, h₂, h₃, h₄, h₅⟩ := h
  have hne : s ≠ [] := by
    rintro rfl
    obtain ⟨hn, -⟩ | ⟨-, hn, -⟩ := hc <;> simp at hn
  have hd : strchr 47 ((scheme ++ s ++ 47 :: id).drop 9) = some (s, id) := by
    refine strchr_eq_some.2 ⟨?_, hs⟩
    rfl
  unfold parseTunnelUrl
  rw [if_pos ⟨s ++ 47 :: id, by rw [append_assoc]⟩]
  simp only [hd]
  rw [if_neg (by simp only [not_or, not_le, not_lt]; exact ⟨hne, h₁, h₂, h₃⟩),
    authority_cut hc ht, Except.bind, if_neg (by simp only [not_or, not_le]; exact ⟨h₄, h₅⟩)]

/-! ## What is stored -/

/-- `parse_tunnel_url` refuses the URL, or stores what is written there. -/
def UrlRight (url : Bytes) : Prop := parseTunnelUrl url = .error .refused ∨
  ∃ s host n t id, parseTunnelUrl url = .ok (host, n, id) ∧ url = scheme ++ s ++ 47 :: id ∧
    Written s host t ∧ PortText t n

/-- `parse_listen` refuses the string, or stores what is written there. -/
def ListenRight (s : Bytes) : Prop := parseListen s = .error .refused ∨
  ∃ host n p, parseListen s = .ok (host, n) ∧ Written s host (58 :: p) ∧ Number p n

/-- In a URL with parts of the right lengths, what is taken for a port is just its digits. -/
def UrlPlain (url : Bytes) : Prop :=
  ∀ s host p id n, Parts url s host (58 :: p) id → Taken p n → Number p n

/-- A host to listen on, if it is not too long, is more than a bracket, and before something that is
taken for a port it ends with a bracket if it begins with one, and the port is just its digits. -/
def ListenPlain (s : Bytes) : Prop :=
  ∀ host p, s = host ++ 58 :: p → 58 ∉ p → host ≠ [] → host.length < 256 →
    host ≠ [91] ∧ ∀ n, Taken p n → Number p n ∧ (host.head? = some 91 → host.getLast? = some 93)

lemma urlRight_iff (url : Bytes) : UrlRight url ↔ UrlPlain url := by
  constructor
  · intro h s host p id n hp ht
    have hok := parseTunnelUrl_parts hp ht
    obtain h | ⟨s', host', n', t, id', h, hu, hw, hn⟩ := h
    · rw [hok] at h
      cases h
    rw [hok] at h
    cases h
    obtain rfl : s = s' := by
      have := hp.url.symm.trans hu
      simpa using this
    have ht' : t = 58 :: p := by
      obtain ⟨rfl, -⟩ | ⟨hb, rfl, -⟩ := hp.cut
      · obtain ⟨hh, he⟩ | he := hw
        · obtain ⟨x, host, rfl⟩ := exists_cons_of_ne_nil hp.lengths.2.2.2.1
          obtain ⟨rfl, -⟩ := cons.inj he
          exact absurd rfl hh
        · simpa using he.symm
      · obtain ⟨-, he⟩ | he := hw
        · simpa using he.symm
        · rw [he] at hb
          exact absurd rfl hb
    subst ht'
    cases hn with
    | given hn => exact hn
  · intro h
    obtain he | ⟨s, host, t, id, n, he, hp, ht⟩ := parseTunnelUrl_cases url
    · exact .inl he
    have hw : Written s host t := by
      obtain ⟨rfl, -⟩ | ⟨hb, rfl, -⟩ := hp.cut
      · exact .inr rfl
      · refine .inl ⟨fun hh => hb ?_, rfl⟩
        rw [head?_append, hh]
        rfl
    refine .inr ⟨s, host, n, t, id, he, hp.url, hw, ?_⟩
    obtain ⟨rfl, rfl⟩ | ⟨p, rfl, ht⟩ := ht
    · exact .absent
    · exact .given (h s host p id n hp ht)

lemma parseListen_eq (h : 58 ∉ p) : parseListen (host ++ 58 :: p) =
    if host = [] ∨ host.length ≥ 256 then .error .refused
    else if host.head? = some 91 ∧ host.length < 2 then .error .outside
    else (port p).elim (.error .refused) fun v =>
      .ok (if host.head? = some 91 then host.tail.dropLast else host, v) := by
  have hs : strrchr 58 (host ++ 58 :: p) = some (host, p) := strrchr_eq_some.2 ⟨rfl, h⟩
  rw [parseListen, hs]

lemma Number.no_colon (h : Number p n) : 58 ∉ p := fun hm => absurd (h.2.1 58 hm) (by decide)

lemma last_colon {p' : Bytes} (h : a ++ 58 :: p = b ++ 58 :: p') (hp : 58 ∉ p) (hp' : 58 ∉ p') :
    a = b ∧ p = p' := by
  have ha : strrchr 58 (a ++ 58 :: p) = some (a, p) := strrchr_eq_some.2 ⟨rfl, hp⟩
  have hb : strrchr 58 (a ++ 58 :: p) = some (b, p') := strrchr_eq_some.2 ⟨h, hp'⟩
  simpa using ha.symm.trans hb

lemma listenRight_iff (s : Bytes) : ListenRight s ↔ ListenPlain s := by
  constructor
  · rintro h host p rfl hm hne hlen
    rw [ListenRight, parseListen_eq hm,
      if_neg (by simp only [not_or, not_le]; exact ⟨hne, hlen⟩)] at h
    have h91 : host ≠ [91] := by
      rintro rfl
      simp at h
    refine ⟨h91, fun n ht => ?_⟩
    by_cases hb : host.head? = some 91 ∧ host.length < 2
    · rw [if_pos hb] at h
      simp at h
    rw [if_neg hb, port_of_taken ht] at h
    obtain h | ⟨host', n', p', h, hw, hn⟩ := h
    · cases h
    simp only [Option.elim_some, Except.ok.injEq, Prod.mk.injEq] at h
    obtain ⟨h, rfl⟩ := h
    obtain ⟨hh, he⟩ | he := hw
    · obtain ⟨rfl, rfl⟩ := last_colon he hm hn.no_colon
      exact ⟨hn, fun h => absurd h hh⟩
    · rw [append_cons (91 :: host')] at he
      obtain ⟨rfl, rfl⟩ := last_colon he hm hn.no_colon
      exact ⟨hn, fun _ => getLast?_concat⟩
  · intro h
    cases hs : strrchr 58 s with
    | none => exact .inl (by rw [parseListen, hs])
    | some x =>
      obtain ⟨host, p⟩ := x
      obtain ⟨rfl, hm⟩ := strrchr_eq_some.1 hs
      rw [ListenRight, parseListen_eq hm]
      split_ifs with h₁ h₂ hb
      · exact .inl rfl
      all_goals
        rw [not_or, not_le] at h₁
        obtain ⟨h91, hp⟩ := h host p rfl hm h₁.1 h₁.2
      · obtain ⟨r, rfl⟩ := head?_eq_some_iff.1 h₂.1
        rw [length_cons] at h₂
        exact absurd (by rw [eq_nil_of_length_eq_zero (by omega : r.length = 0)]) h91
      all_goals
        rcases hv : port p with _ | n
        · exact .inl rfl
        obtain ⟨hn, hl⟩ := hp n (taken_of_port hv)
        refine .inr ⟨_, n, p, rfl, ?_, hn⟩
      · obtain ⟨r, rfl⟩ := head?_eq_some_iff.1 hb
        obtain ⟨q, hq⟩ := getLast?_eq_some_iff.1 (hl rfl)
        rcases q with _ | ⟨x, q⟩
        · cases hq
        obtain ⟨rfl, rfl⟩ := cons.inj hq
        exact .inr (by simp)
      · exact .inl ⟨hb, rfl⟩

/-- For every URL and every string to listen on: the function stays in range, and what it stores is
what is written, if and only if the text is plain. -/
theorem addresses_parsed (url s : Bytes) :
    (UrlRight url ↔ UrlPlain url) ∧ (ListenRight s ↔ ListenPlain s) :=
  ⟨urlRight_iff url, listenRight_iff s⟩

/-- Without a closing bracket a length goes below zero, or a character is lost; and a port may have
a blank and a sign. -/
theorem listen_unclosed : parseListen [91, 58, 56] = .error .outside ∧
    parseListen [91, 97, 98, 58, 56] = .ok ([97], 8) ∧
    parseListen [104, 58, 32, 43, 56] = .ok ([104], 8) := by
  decide

end TunnelMate.PeerArgs
