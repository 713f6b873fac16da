import Mathlib.Data.List.Induction
import TunnelMate.Attributes

/-!
# What attributes are accepted
-/

namespace TunnelMate.Attributes

open List

def Key.Short : Key → Prop
  | .str s => s.length ≤ 128
  | .other => False

def Value.keys : Value → List Key
  | .dict kvs => kvs.map Prod.fst
  | _ => []

def keyCount (ns : List (ℕ × Value)) : ℕ := (ns.map fun n => n.2.keys.length).sum

/-- The depth of a value is allowed, its keys are short strings, and it is a JSON value. -/
def Allowed (maxDepth : ℤ) (n : ℕ × Value) : Prop :=
  n.1 ≤ maxDepth ∧ (∀ k ∈ n.2.keys, k.Short) ∧ n.2 ≠ .other

section

variable {maxDepth maxKeys : ℤ} {keys k : ℕ}

variable (maxDepth maxKeys) in
/-- A walk over `ns` takes the counter from `keys` to `k`. -/
def Fits (keys : ℕ) (ns : List (ℕ × Value)) (k : ℕ) : Prop :=
  (∀ n ∈ ns, Allowed maxDepth n) ∧ ↑(keys + keyCount ns) ≤ maxKeys ∧ k = keys + keyCount ns

lemma fits_append {ns ms : List (ℕ × Value)} : Fits maxDepth maxKeys keys (ns ++ ms) k ↔
    ∃ j, Fits maxDepth maxKeys keys ns j ∧ Fits maxDepth maxKeys j ms k := by
  have hc : keyCount (ns ++ ms) = keyCount ns + keyCount ms := by simp [keyCount]
  simp only [Fits, forall_mem_append, hc]
  constructor
  · rintro ⟨⟨hn, hm⟩, hle, rfl⟩
    exact ⟨_, ⟨hn, by omega, rfl⟩, hm, by omega, by omega⟩
  · rintro ⟨j, ⟨hn, -, rfl⟩, hm, hle, rfl⟩
    exact ⟨⟨hn, hm⟩, by omega, by omega⟩

lemma fits_nil (hk : keys ≤ maxKeys) : Fits maxDepth maxKeys keys [] k ↔ k = keys := by
  simp [Fits, keyCount, hk]

lemma walk_then (x : Except String ℕ) (f : ℕ → Except String ℕ) :
    x.bind f = .ok k ↔ ∃ j, x = .ok j ∧ f j = .ok k := by
  rcases x with e | j
  · exact ⟨nofun, nofun⟩
  · exact ⟨fun h => ⟨j, rfl, h⟩, fun ⟨_, rfl, h⟩ => h⟩

lemma fits_cons {n : ℕ × Value} {ns : List (ℕ × Value)} : Fits maxDepth maxKeys keys (n :: ns) k ↔
      Allowed maxDepth n ∧ Fits maxDepth maxKeys (keys + n.2.keys.length) ns k := by
  have hc : keyCount (n :: ns) = n.2.keys.length + keyCount ns := by simp [keyCount]
  simp only [Fits, forall_mem_cons, hc, and_assoc, Nat.add_assoc]

mutual

lemma walk_eq_ok (v : Value) {depth keys k : ℕ} (hk : keys ≤ maxKeys) :
    walk maxDepth maxKeys depth keys v = .ok k ↔ Fits maxDepth maxKeys keys (nodes depth v) k := by
  rw [walk.eq_def, nodes.eq_def, fits_cons]
  by_cases hd : depth > maxDepth
  · rw [if_pos hd]
    simp only [reduceCtorEq, false_iff]
    exact fun h => absurd h.1.1 (not_le.2 hd)
  rw [if_neg hd]
  have hd : (depth : ℤ) ≤ maxDepth := not_lt.1 hd
  cases v with
  | dict kvs =>
    simp only [Value.keys, length_map]
    by_cases hl : ↑(keys + kvs.length) > maxKeys
    · simp only [if_pos hl, reduceCtorEq, false_iff]
      rintro ⟨-, -, h, -⟩
      omega
    · rw [if_neg hl, walkDict_eq_ok kvs (not_lt.1 hl)]
      simp [Allowed, Value.keys, hd]
  | list xs =>
    simp only
    rw [walkList_eq_ok xs hk]
    simp [Allowed, Value.keys, hd]
  | other => simp [Allowed]
  | _ => simp [fits_nil hk, Allowed, Value.keys, hd, eq_comm]

lemma walkDict_eq_ok (kvs : List (Key × Value)) {depth keys k : ℕ} (hk : keys ≤ maxKeys) :
    walkDict maxDepth maxKeys depth keys kvs = .ok k ↔
      (∀ x ∈ kvs, x.1.Short) ∧ Fits maxDepth maxKeys keys (nodesDict (depth + 1) kvs) k := by
  rcases kvs with _ | ⟨⟨key, v⟩, kvs⟩
  · simp [walkDict, nodesDict, fits_nil hk, eq_comm]
  rw [nodesDict, fits_append, forall_mem_cons]
  rcases key with s | _
  · rw [walkDict]
    by_cases hs : s.length > 128
    · rw [if_pos hs]
      simp [Key.Short]
      omega
    · have hs : (Key.str s).Short := not_lt.1 hs
      rw [if_neg (not_lt.2 hs), walk_then, and_assoc, and_iff_right hs, ← exists_and_left]
      refine exists_congr fun j => ?_
      rw [walk_eq_ok v hk, and_left_comm]
      exact and_congr_right fun h => walkDict_eq_ok kvs (by have := h.2; omega)
  · simp [walkDict, Key.Short]

lemma walkList_eq_ok (xs : List Value) {depth keys k : ℕ} (hk : keys ≤ maxKeys) :
    walkList maxDepth maxKeys depth keys xs = .ok k ↔
      Fits maxDepth maxKeys keys (nodesList (depth + 1) xs) k := by
  rcases xs with _ | ⟨v, xs⟩
  · simp [walkList, nodesList, fits_nil hk, eq_comm]
  rw [walkList, nodesList, fits_append, walk_then]
  refine exists_congr fun j => ?_
  rw [walk_eq_ok v hk]
  exact and_congr_right fun h => walkList_eq_ok xs (by have := h.2; omega)

end

lemma validate_eq_ok {v : Value} {maxBytes : ℤ} :
    validateAttributes v maxDepth maxKeys maxBytes = .ok () ↔
      (∃ k, walk maxDepth maxKeys 1 0 v = .ok k) ∧ ∃ b, dumps v = some b ∧ b.length ≤ maxBytes := by
  rw [validateAttributes]
  cases walk maxDepth maxKeys 1 0 v <;> cases dumps v <;> simp [Except.bind, -String.reduceAppend]
  split_ifs <;> simp

end

/-- A value keeps to the limits: of its depth, its keys and its size. -/
def Within (maxDepth maxKeys maxBytes : ℤ) (v : Value) : Prop :=
  (∀ n ∈ nodes 1 v, Allowed maxDepth n) ∧ keyCount (nodes 1 v) ≤ maxKeys ∧
    ∃ b, dumps v = some b ∧ b.length ≤ maxBytes

lemma validate_iff_within {v : Value} {maxDepth maxKeys maxBytes : ℤ} (h : 0 ≤ maxKeys) :
    validateAttributes v maxDepth maxKeys maxBytes = .ok () ↔
      Within maxDepth maxKeys maxBytes v := by
  rw [validate_eq_ok, Within, ← and_assoc]
  refine and_congr_left fun _ => ?_
  simp only [walk_eq_ok v h, Fits, Nat.zero_add]
  exact ⟨fun ⟨_, ha, hk, _⟩ => ⟨ha, hk⟩, fun ⟨ha, hk⟩ => ⟨_, ha, hk, rfl⟩⟩

theorem validate_attributes_iff (v : Value) (maxDepth maxKeys maxBytes : ℤ) (h : 0 ≤ maxKeys) :
    validateAttributes v maxDepth maxKeys maxBytes = .ok () ↔
      (∀ n ∈ nodes 1 v, Allowed maxDepth n) ∧ keyCount (nodes 1 v) ≤ maxKeys ∧
        ∃ b, dumps v = some b ∧ b.length ≤ maxBytes :=
  validate_iff_within h

theorem validate_attributes_iff_one :
    keyCount (nodes 1 (.dict [(.str [120], .list [.null])])) ≤ (1 : ℤ) :=
  ((validate_attributes_iff (.dict [(.str [120], .list [.null])]) 3 1 14 (by decide)).1
    (by decide)).2.1

/-- The keys are only counted against the limit at a dict. -/
theorem validate_null_negative :
    validateAttributes .null 1 (-1) 4 = .ok () ∧ ¬ keyCount (nodes 1 .null) ≤ (-1 : ℤ) := by
  decide

/-! ## The listing -/

/-- A request that is accepted changes the rows: it makes an announcement, or there is one to
update. -/
def Op.Stored (rows : List Row) : Op → Prop
  | .create _ _ => True
  | .update id _ => rows.any (·.id = id) = true

section

variable {maxDepth maxKeys maxBytes : ℤ} {rows : List Row} {op : Op} {ops pre : List Op}

lemma step_stored (hk : 0 ≤ maxKeys) (hv : Within maxDepth maxKeys maxBytes op.row.attributes)
    (hs : op.Stored rows) :
    ∃ rows' ⊆ rows, step maxDepth maxKeys maxBytes rows op = op.row :: rows' := by
  unfold step
  rw [(validate_iff_within hk).2 hv]
  rcases op with ⟨id, v⟩ | ⟨id, v⟩
  · exact ⟨rows, .refl _, rfl⟩
  · exact ⟨_, filter_subset_self _, if_pos hs⟩

lemma step_cases (hk : 0 ≤ maxKeys) (op : Op) (rows : List Row) :
    step maxDepth maxKeys maxBytes rows op = rows ∨
      Within maxDepth maxKeys maxBytes op.row.attributes ∧ op.Stored rows := by
  rw [← validate_iff_within hk]
  unfold step
  split
  · exact .inl rfl
  rename_i hv
  rcases op with ⟨id, v⟩ | ⟨id, v⟩
  · exact .inr ⟨hv, trivial⟩
  · dsimp only
    split_ifs with hs
    · exact .inr ⟨hv, hs⟩
    · exact .inl rfl

lemma listAnnouncements_eq (h : ∀ r ∈ rows, r.attributes.finite) (clauses filters : Row → Bool) :
    listAnnouncements clauses filters rows = some (searchAnnouncements clauses filters rows) :=
  if_pos (all_eq_true.2 fun r hr => h r (mem_filter.1 (mem_of_mem_take (mem_filter.1 hr).1)).1)

/-- The rows after some requests. -/
def rowsAfter (maxDepth maxKeys maxBytes : ℤ) (ops : List Op) : List Row :=
  ops.foldl (step maxDepth maxKeys maxBytes) []

lemma rowsAfter_concat : rowsAfter maxDepth maxKeys maxBytes (pre ++ [op]) =
    step maxDepth maxKeys maxBytes (rowsAfter maxDepth maxKeys maxBytes pre) op := by
  rw [rowsAfter, foldl_concat, rowsAfter]

lemma finite_rowsAfter (hk : 0 ≤ maxKeys)
    (h : ∀ pre op, pre ++ [op] <+: ops → op.Stored (rowsAfter maxDepth maxKeys maxBytes pre) →
      Within maxDepth maxKeys maxBytes op.row.attributes → op.row.attributes.finite)
    (hp : pre <+: ops) : ∀ r ∈ rowsAfter maxDepth maxKeys maxBytes pre, r.attributes.finite := by
  induction pre using reverseRecOn with
  | nil => exact nofun
  | append_singleton pre op ih =>
    have hrows := ih ((prefix_append _ _).trans hp)
    rw [rowsAfter_concat]
    obtain he | ⟨hv, hs⟩ := step_cases hk op (rowsAfter maxDepth maxKeys maxBytes pre)
    · rw [he]
      exact hrows
    · obtain ⟨rows', hsub, he⟩ := step_stored hk hv hs
      rw [he]
      exact forall_mem_cons.2 ⟨h pre op hp hs hv, fun r hr => hrows r (hsub hr)⟩

end

/-- Every listing at any time is served if and only if no request that stores attributes within the
limits has a number in them that is not finite. -/
theorem attributes_served (maxDepth maxKeys maxBytes : ℤ) (hk : 0 ≤ maxKeys) (ops : List Op) :
    (∀ pre, pre <+: ops → ∀ clauses filters, let rows := rowsAfter maxDepth maxKeys maxBytes pre
      (∀ r ∈ rows, r.attributes.finite) ∧ listAnnouncements clauses filters rows =
        some (searchAnnouncements clauses filters rows)) ↔
    ∀ pre op, pre ++ [op] <+: ops → op.Stored (rowsAfter maxDepth maxKeys maxBytes pre) →
      Within maxDepth maxKeys maxBytes op.row.attributes → op.row.attributes.finite := by
  constructor
  · intro h pre op hp hs hv
    obtain ⟨rows', -, he⟩ := step_stored hk hv hs
    refine (h _ hp (fun _ => true) fun _ => true).1 op.row ?_
    rw [rowsAfter_concat, he]
    exact mem_cons_self
  · intro h pre hp clauses filters
    have hf := finite_rowsAfter hk h hp
    exact ⟨hf, listAnnouncements_eq hf clauses filters⟩

theorem attributes_served_one : (listAnnouncements (fun _ => true) (fun _ => true)
    (rowsAfter 6 128 16384 [.create 7 (.list [.float "0.5" true])])).isSome := by
  have hf : ∀ op : Op, op ∈ [Op.create 7 (.list [.float "0.5" true])] →
      op.row.attributes.finite := by decide
  rw [((attributes_served 6 128 16384 (by decide) [.create 7 (.list [.float "0.5" true])]).2
    (fun pre op hp _ _ => hf op (hp.subset (by simp))) _ (prefix_refl _) _ _).2]
  rfl

/-- A `NaN` under a name is accepted, and a listing that shows it cannot be encoded. -/
theorem nan_stops_listing : let nan : Value := .dict [(.str [120], .float "NaN" false)]
    let list rows := listAnnouncements (fun _ => true) (fun _ => true) rows
    let rows := step 6 128 16384 [] (.create 3 (.dict []))
    validateAttributes nan 6 128 16384 = .ok () ∧ (list rows).isSome ∧
      list (step 6 128 16384 rows (.create 7 nan)) = none := by
  exact ⟨by decide, by decide, rfl⟩

end TunnelMate.Attributes
