import TunnelMate.Config

/-!
# Reading configuration files
-/

namespace TunnelMate.Config

open List

/-! ## Line endings -/

def crlf (text : Bytes) : Bytes := text.flatMap fun b => if b = 10 then [13, 10] else [b]

/-- The pieces between the newlines, with a carriage return at each but the last. -/
def returns : List Bytes → List Bytes
  | [] => []
  | [l] => [l]
  | l :: m :: ls => (l ++ [13]) :: returns (m :: ls)

lemma returns_cons {l : Bytes} {ls : List Bytes} (h : ls ≠ []) :
    returns (l :: ls) = (l ++ [13]) :: returns ls := by
  rcases ls with _ | ⟨m, ls⟩
  · exact absurd rfl h
  · rfl

lemma splitOn_crlf (text : Bytes) : (crlf text).splitOn 10 = returns (text.splitOn 10) := by
  induction text with
  | nil => rfl
  | cons b text ih =>
    by_cases hb : b = 10
    · subst hb
      have h1 : crlf (10 :: text) = 13 :: 10 :: crlf text := rfl
      rw [h1, splitOn_cons_eq_if_modifyHead, splitOn_cons_eq_if_modifyHead, ih,
        splitOn_cons_eq_if_modifyHead]
      simp [returns_cons, splitOn_ne_nil]
    · have h1 : crlf (b :: text) = b :: crlf text := by simp [crlf, hb]
      rw [h1, splitOn_cons_eq_if_modifyHead, splitOn_cons_eq_if_modifyHead, ih]
      simp only [beq_iff_eq, if_neg hb]
      rcases text.splitOn 10 with _ | ⟨l, _ | ⟨m, ls⟩⟩ <;> rfl

lemma dropWhile_return {s : Bytes} :
    (s ++ [13]).dropWhile isBlank = s.dropWhile isBlank ++ [13] := by
  induction s with
  | nil => rfl
  | cons b s ih =>
    rw [cons_append, dropWhile_cons, dropWhile_cons]
    split_ifs
    · exact ih
    · rfl

lemma trim_return (v : Bytes) : trim (v ++ [13]) = trim v := by
  rw [trim, dropWhile_return, reverse_append, reverse_singleton, singleton_append, dropWhile_cons,
    if_pos (by decide), trim]

lemma cut_at {b : UInt8} {s : Bytes} (h : b ∉ s) (t : Bytes) :
    (s ++ b :: t).takeWhile (· ≠ b) = s ∧ (s ++ b :: t).dropWhile (· ≠ b) = b :: t := by
  have hs : ∀ x ∈ s, decide (x ≠ b) = true := fun x hx => by
    simpa using fun hb : x = b => h (hb ▸ hx)
  rw [takeWhile_append_of_pos hs, dropWhile_append_of_pos hs]
  simp

lemma cut_return {b : UInt8} {x : Bytes} (h : b ∈ x) :
    (x ++ [13]).takeWhile (· ≠ b) = x.takeWhile (· ≠ b) ∧
      ((x ++ [13]).dropWhile (· ≠ b)).tail = (x.dropWhile (· ≠ b)).tail ++ [13] := by
  obtain ⟨s, t, rfl, hs⟩ := eq_append_cons_of_mem h
  rw [append_assoc, cons_append, (cut_at hs _).1, (cut_at hs _).2, (cut_at hs _).1, (cut_at hs _).2]
  exact ⟨rfl, rfl⟩

lemma parseLine_return {l : Bytes} (hl : l.dropWhile isBlank ≠ []) (st : Bytes × Kvs) (n : ℕ) :
    parseLine st (l ++ [13]) n = parseLine st l n := by
  obtain ⟨c, r, hp⟩ := exists_cons_of_ne_nil hl
  have hr : (l ++ [13]).dropWhile isBlank = c :: (r ++ [13]) := by
    rw [dropWhile_return, hp, cons_append]
  simp only [parseLine, hp, hr]
  by_cases hc : c = 91
  · rw [if_pos hc, if_pos hc]
    by_cases h : 93 ∈ r
    · rw [if_pos h, if_pos (mem_append_left _ h), (cut_return h).1]
    · rw [if_neg h, if_neg (by simpa using h)]
  rw [if_neg hc, if_neg hc]
  by_cases hh : c = 35
  · rw [if_pos hh, if_pos hh]
  rw [if_neg hh, if_neg hh, ← cons_append]
  by_cases h : 61 ∈ c :: r
  · rw [if_neg (not_not.2 h), if_neg (not_not.2 (mem_append_left _ h)), (cut_return h).1,
      (cut_return h).2, trim_return]
  · rw [if_pos h, if_pos (by simpa using h)]

lemma parseLines_returns {ls : List Bytes} (h : ∀ l ∈ ls.dropLast, l.dropWhile isBlank ≠ [])
    (st : Bytes × Kvs) (n : ℕ) :
    parseLines st ((returns ls).filter (· ≠ [])) n = parseLines st (ls.filter (· ≠ [])) n := by
  induction ls generalizing st n with
  | nil => rfl
  | cons l ls ih =>
    rcases ls with _ | ⟨m, ls⟩
    · rfl
    rw [dropLast_cons_cons, forall_mem_cons] at h
    have hl : l ≠ [] := fun he => h.1 (by rw [he]; rfl)
    rw [returns_cons (by simp), filter_cons_of_pos (by simp), filter_cons_of_pos (by simp [hl]),
      parseLines, parseLines, parseLine_return h.1]
    exact congrArg _ (funext fun st => ih h.2 st (n + 1))

lemma parseLine_blank {l : Bytes} (hl : l.dropWhile isBlank = []) (st : Bytes × Kvs) (n : ℕ) :
    parseLine st (l ++ [13]) n = .error (n, "expected '='") := by
  simp only [parseLine, dropWhile_return, hl, nil_append]
  rfl

/-- A blank line with a carriage return stops the parser, if nothing before it does. -/
lemma parseLines_blank {ls : List Bytes} {l : Bytes} (hm : l ∈ ls.dropLast)
    (hl : l.dropWhile isBlank = []) (st : Bytes × Kvs) (n : ℕ) :
    ∃ e, parseLines st ((returns ls).filter (· ≠ [])) n = .error e := by
  induction ls generalizing st n with
  | nil => cases hm
  | cons k ls ih =>
    rcases ls with _ | ⟨m, ls⟩
    · cases hm
    rw [returns_cons (by simp), filter_cons_of_pos (by simp), parseLines]
    rcases mem_cons.1 hm with rfl | hm
    · exact ⟨_, by rw [parseLine_blank hl]; rfl⟩
    · cases parseLine st (k ++ [13]) n with
      | error e => exact ⟨e, rfl⟩
      | ok st => exact ih hm st (n + 1)

/-- Every line that a newline ends has something in it. -/
def Solid (text : Bytes) : Prop := ∀ l ∈ (text.splitOn 10).dropLast, l.dropWhile isBlank ≠ []

/-- A text without blank lines is read alike with either line ending, and of the texts that are
accepted only these are. -/
theorem crlf_same (c : Kvs) (text : Bytes) :
    (Solid text → configParseBuf c (crlf text) = configParseBuf c text) ∧
    ∀ kvs, configParseBuf c text = .ok kvs →
      (configParseBuf c (crlf text) = .ok kvs ↔ Solid text) := by
  have same (h : Solid text) : configParseBuf c (crlf text) = configParseBuf c text := by
    rw [configParseBuf, lines, splitOn_crlf, parseLines_returns h]
    rfl
  refine ⟨same, fun kvs hk => ⟨fun hc l hm hl => ?_, fun h => (same h).trans hk⟩⟩
  obtain ⟨e, he⟩ := parseLines_blank hm hl ([], c) 1
  rw [configParseBuf, lines, splitOn_crlf, he] at hc
  cases hc

theorem crlf_same_one : Solid [97, 61, 49, 10] ∧
    configParseBuf [] (crlf [97, 61, 49, 10]) = configParseBuf [] [97, 61, 49, 10] := by
  have h : Solid [97, 61, 49, 10] := by unfold Solid; decide
  exact ⟨h, (crlf_same [] _).1 h⟩

/-- With the other line ending a blank line is no longer blank. -/
theorem crlf_blank_line : configParseBuf [] [10] = .ok [] ∧
    configParseBuf [] (crlf [10]) = .error (1, "expected '='") := ⟨rfl, rfl⟩

/-! ## Round trip -/

/-- What a line of a rendered configuration is for. -/
inductive Item
  | blank (ws : Bytes)
  | comment (ws text : Bytes)
  | sect (name : Bytes)
  | assign (key value : Bytes)

namespace Item

def line : Item → Bytes
  | .blank ws => ws
  | .comment ws text => ws ++ 35 :: text
  | .sect name => 91 :: (name ++ [93])
  | .assign key value => (key ++ [32]) ++ 61 :: 32 :: 34 :: (value ++ [34])

def Valid : Item → Prop
  | .blank ws => ∀ b ∈ ws, isBlank b
  | .comment ws text => (∀ b ∈ ws, isBlank b) ∧ 10 ∉ text ∧ 0 ∉ text
  | .sect name => 93 ∉ name ∧ 10 ∉ name ∧ 0 ∉ name
  | .assign key value => 61 ∉ key ∧ (10 ∉ key ∧ 0 ∉ key) ∧ (10 ∉ value ∧ 0 ∉ value) ∧
      (∃ b ∈ key.head?, ¬ isBlank b ∧ b ≠ 35 ∧ b ≠ 91) ∧ ∃ b ∈ key.getLast?, ¬ isBlank b ∧ b ≠ 13

def apply (st : Bytes × Kvs) : Item → Bytes × Kvs
  | .sect name => (name, st.2)
  | .assign key value => (st.1, configSet st.2 st.1 key value)
  | _ => st

end Item

def render (items : List Item) : Bytes := items.flatMap fun i => i.line ++ [10]

/-- The assignments of a configuration, under their full names. -/
def assigned (sect : Bytes) : List Item → Kvs
  | [] => []
  | .sect name :: items => assigned name items
  | .assign key value :: items =>
    (if sect = [] then key else sect ++ 46 :: key, value) :: assigned sect items
  | _ :: items => assigned sect items

lemma trim_between {p s q : Bytes} (hp : ∀ b ∈ p, isBlank b) (hq : ∀ b ∈ q, isBlank b || b = 13)
    (hh : ∃ b ∈ s.head?, ¬ isBlank b) (hl : ∃ b ∈ s.getLast?, ¬ isBlank b ∧ b ≠ 13) :
    trim (p ++ (s ++ q)) = s := by
  obtain ⟨b, hb, hb'⟩ := hh
  obtain ⟨s', rfl⟩ := head?_eq_some_iff.1 hb
  obtain ⟨e, he, he'⟩ := hl
  obtain ⟨t, ht⟩ := getLast?_eq_some_iff.1 he
  rw [trim, dropWhile_append_of_pos hp, cons_append, dropWhile_cons_of_neg hb', ← cons_append, ht,
    reverse_append, dropWhile_append_of_pos (by simpa using hq), reverse_append,
    reverse_singleton, singleton_append, dropWhile_cons_of_neg (by simpa using he')]
  simp

lemma parseLine_item {i : Item} (h : i.Valid) (st : Bytes × Kvs) (n : ℕ) :
    parseLine st i.line n = .ok (i.apply st) := by
  unfold parseLine
  rcases i with ws | ⟨ws, text⟩ | name | ⟨key, value⟩
  · have hd : ws.dropWhile isBlank = [] := by
      rw [← append_nil ws, dropWhile_append_of_pos h]
      rfl
    simp only [Item.line, hd]
    rfl
  · have hd : (ws ++ 35 :: text).dropWhile isBlank = 35 :: text := by
      rw [dropWhile_append_of_pos h.1]
      rfl
    simp only [Item.line, hd]
    rfl
  · have hd : (91 :: (name ++ [93])).dropWhile isBlank = 91 :: (name ++ [93]) := rfl
    simp only [Item.line, hd, (cut_at h.1 []).1]
    simp [Item.apply]
  · obtain ⟨he, -, -, ⟨b, hb, hb', h35, h91⟩, hl⟩ := h
    have hc := cut_at (b := 61) (s := key ++ [32]) (by simpa using he) (32 :: 34 :: (value ++ [34]))
    have hk : trim (key ++ [32]) = key :=
      trim_between (p := []) nofun (by simp [isBlank]) ⟨b, hb, hb'⟩ hl
    have h34 : (34 :: (value ++ [34])).getLast? = some 34 := getLast?_concat (l := 34 :: value)
    have hv : trim (32 :: (34 :: (value ++ [34]))) = 34 :: (value ++ [34]) := by
      have := trim_between (p := [32]) (s := 34 :: (value ++ [34])) (q := [])
        (by simp [isBlank]) nofun ⟨34, rfl, by decide⟩ ⟨34, h34, by decide⟩
      simpa using this
    have hu : unquote (34 :: (value ++ [34])) = value := by simp [unquote, h34]
    obtain ⟨k, rfl⟩ := head?_eq_some_iff.1 hb
    simp only [Item.line, cons_append] at hc hk ⊢
    rw [dropWhile_cons_of_neg hb']
    simp only [hc.1, hc.2, if_neg h91, if_neg h35, tail_cons, hk, hv, hu]
    simp [Item.apply]

lemma splitOn_render {items : List Item} (h : ∀ i ∈ items, i.Valid) :
    (render items).splitOn 10 = items.map Item.line ++ [[]] := by
  induction items with
  | nil => rfl
  | cons i items ih =>
    rw [forall_mem_cons] at h
    have hi : 10 ∉ i.line := by
      have hws {ws : Bytes} (hw : ∀ b ∈ ws, isBlank b) : 10 ∉ ws := fun hm =>
        absurd (hw _ hm) (by decide)
      rcases i with ws | ⟨ws, text⟩ | name | ⟨key, value⟩
      · exact hws h.1
      · simpa [Item.line] using ⟨hws h.1.1, h.1.2.1⟩
      · simpa [Item.line] using h.1.2.1
      · simpa [Item.line] using ⟨h.1.2.1.1, h.1.2.2.1.1⟩
    have hr : render (i :: items) = i.line ++ 10 :: render items := by simp [render]
    rw [hr, splitOn_append_cons_self, splitOn_eq_singleton hi, ih h.2]
    rfl

lemma parseLines_items {items : List Item} (h : ∀ i ∈ items, i.Valid) (st : Bytes × Kvs) (n : ℕ) :
    parseLines st ((items.map Item.line).filter (· ≠ [])) n = .ok (items.foldl Item.apply st) := by
  induction items generalizing st n with
  | nil => rfl
  | cons i items ih =>
    rw [forall_mem_cons] at h
    rw [map_cons, foldl_cons]
    by_cases hi : i.line = []
    · have ha : i.apply st = st := by
        rcases i with ws | ⟨ws, text⟩ | name | ⟨key, value⟩ <;> simp [Item.line] at hi
        rfl
      rw [filter_cons_of_neg (by simpa using hi), ha, ih h.2]
    · rw [filter_cons_of_pos (by simpa using hi), parseLines, parseLine_item h.1]
      exact ih h.2 _ _

lemma lookup_cons (name : Bytes) (k : Bytes × Bytes) (c : Kvs) :
    (k :: c).lookup name = if name = k.1 then some k.2 else c.lookup name := by
  rcases k with ⟨k, v⟩
  rw [List.lookup_cons]
  by_cases h : name = k
  · rw [if_pos h, h, beq_self_eq_true]
  · rw [if_neg h, beq_false_of_ne h]

lemma lookup_replace {full value name : Bytes} {c c' : Kvs} (h : replace full value c = some c') :
    c'.lookup name = if name = full then some value else c.lookup name := by
  induction c generalizing c' with
  | nil => cases h
  | cons k c ih =>
    rw [replace] at h
    by_cases hk : k.1 = full
    · rw [if_pos hk] at h
      obtain rfl := Option.some.inj h
      rw [lookup_cons, lookup_cons, hk]
      split_ifs <;> rfl
    · rw [if_neg hk] at h
      obtain ⟨c', hc, rfl⟩ := Option.map_eq_some_iff.1 h
      rw [lookup_cons, lookup_cons, ih hc]
      split_ifs with h1 h2
      · exact absurd (h1.symm.trans h2) hk
      all_goals rfl

lemma lookup_configSet (c : Kvs) (sect key value name : Bytes) :
    (configSet c sect key value).lookup name =
      if name = fullName sect key then some value else c.lookup name := by
  unfold configSet
  rcases h : replace (fullName sect key) value c with _ | c'
  · exact lookup_cons name _ c
  · exact lookup_replace h

lemma lookup_foldl {items : List Item} {s : Bytes} (c : Kvs)
    (hn : ∀ kv ∈ assigned s items, kv.1.length ≤ 255) (name : Bytes) :
    (items.foldl Item.apply (s, c)).2.lookup name =
      ((assigned s items).reverse.lookup name).or (c.lookup name) := by
  induction items generalizing s c with
  | nil => rfl
  | cons i items ih =>
    rcases i with ws | ⟨ws, text⟩ | sect | ⟨key, value⟩
    · exact ih c hn
    · exact ih c hn
    · exact ih c hn
    · rw [assigned, forall_mem_cons] at hn
      have hf : fullName s key = if s = [] then key else s ++ 46 :: key := take_of_length_le hn.1
      rw [foldl_cons, Item.apply, ih _ hn.2, lookup_configSet, assigned, reverse_cons,
        lookup_append, Option.or_assoc, hf]
      congr 1
      rw [lookup_cons]
      split_ifs <;> rfl

lemma lookup_reverse {name : Bytes} {c : Kvs} (h : ∀ kv ∈ c, kv.1 ≠ name) :
    c.reverse.lookup name = none := by
  refine lookup_eq_none_iff.2 fun kv hm => ?_
  simpa using (h kv (mem_reverse.1 hm)).symm

/-- A rendered configuration is read: each name has the value that was assigned to it last, and
any other name has the default. -/
theorem config_round_trip {items : List Item} (h : ∀ i ∈ items, i.Valid)
    (hn : ∀ kv ∈ assigned [] items, kv.1.length ≤ 255) :
    ∃ c, configParseBuf [] (render items) = .ok c ∧
    (∀ kvs kvs' name value dflt, assigned [] items = kvs ++ (name, value) :: kvs' →
      (∀ kv ∈ kvs', kv.1 ≠ name) → tmConfigGetStr c name dflt = (true, value)) ∧
    ∀ name dflt, (∀ kv ∈ assigned [] items, kv.1 ≠ name) →
      tmConfigGetStr c name dflt = (false, dflt) := by
  have hl : lines (render items) = (items.map Item.line).filter (· ≠ []) := by
    rw [lines, splitOn_render h, filter_append]
    simp
  have hf (name : Bytes) : configFind (items.foldl Item.apply ([], [])).2 name =
      (assigned [] items).reverse.lookup name := by
    rw [configFind, lookup_foldl [] hn]
    exact Option.or_none
  refine ⟨(items.foldl Item.apply ([], [])).2, ?_, fun kvs kvs' name value dflt ha hl => ?_,
    fun name dflt hl => ?_⟩
  · rw [configParseBuf, hl, parseLines_items h]
    rfl
  · have hv : (assigned [] items).reverse.lookup name = some value := by
      rw [ha, reverse_append, reverse_cons, append_assoc, lookup_append, lookup_reverse hl,
        singleton_append, lookup_cons, if_pos rfl]
      rfl
    rw [tmConfigGetStr, hf, hv]
  · rw [tmConfigGetStr, hf, lookup_reverse hl]

theorem config_round_trip_two : ∃ c,
    configParseBuf [] (render [.sect [115], .assign [97] [61], .blank [], .assign [97] [34, 32]]) =
      .ok c ∧ tmConfigGetStr c [115, 46, 97] [] = (true, [34, 32]) ∧
      tmConfigGetStr c [97] [49] = (false, [49]) := by
  obtain ⟨c, hc, hg, hd⟩ := @config_round_trip
    [.sect [115], .assign [97] [61], .blank [], .assign [97] [34, 32]]
    (by simp [Item.Valid, isBlank]) (by decide)
  exact ⟨c, hc, hg [([115, 46, 97], [61])] [] _ _ _ rfl nofun, hd _ _ (by decide)⟩

end TunnelMate.Config
