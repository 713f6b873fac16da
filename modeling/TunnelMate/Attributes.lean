import TunnelMate.Json

/-!
# Attributes of announcements

`validate_attributes` of the API. Strings are lists of code points, which may be surrogates, and a
float comes with its text.
-/

namespace TunnelMate.Attributes

inductive Key
  | str (s : List ℕ)
  | other
  deriving DecidableEq

inductive Value
  | null
  | bool (b : Bool)
  | int (n : ℤ)
  | float (repr : String) (finite : Bool)
  | str (s : List ℕ)
  | list (xs : List Value)
  | dict (kvs : List (Key × Value))
  /-- What is no JSON value. -/
  | other

section

variable (maxDepth maxKeys : ℤ)

mutual

/-- `walk`, with the counter `keys`. -/
def walk (depth keys : ℕ) (node : Value) : Except String ℕ :=
  if depth > maxDepth then .error "attributes nesting is too deep"
  else
    match node with
    | .dict kvs =>
      if ↑(keys + kvs.length) > maxKeys then .error "attributes contain too many keys"
      else walkDict depth (keys + kvs.length) kvs
    | .list xs => walkList depth keys xs
    | .other => .error "attributes must contain JSON values"
    | _ => .ok keys

def walkDict (depth keys : ℕ) : List (Key × Value) → Except String ℕ
  | [] => .ok keys
  | (key, item) :: kvs =>
    match key with
    | .other => .error "attribute keys must be short strings"
    | .str s =>
      if s.length > 128 then .error "attribute keys must be short strings"
      else (walk (depth + 1) keys item).bind fun keys => walkDict depth keys kvs

def walkList (depth keys : ℕ) : List Value → Except String ℕ
  | [] => .ok keys
  | item :: xs => (walk (depth + 1) keys item).bind fun keys => walkList depth keys xs

end

end

/-! ## `json.dumps` with `ensure_ascii=False`, in UTF-8 -/

/-- A surrogate has no encoding. -/
def escape (c : ℕ) : Option Bytes :=
  match Json.escapeDct.lookup (Char.ofNat c) with
  | some e => some [92, e]
  | none =>
    if c < 32 then some (Json.unicodeEscape c)
    else if 0xD800 ≤ c ∧ c ≤ 0xDFFF then none
    else Json.codepointToUtf8 c

def quoted (s : List ℕ) : Option Bytes := (s.mapM escape).map fun b => 34 :: b.flatten ++ [34]

def ascii (s : String) : Bytes := s.toList.map fun c => c.toNat.toUInt8

mutual

def dumps : Value → Option Bytes
  | .null => some (ascii "null")
  | .bool b => some (ascii (if b then "true" else "false"))
  | .int n => if (toString n.natAbs).length > 4300 then none else some (ascii (toString n))
  | .float repr _ => some (ascii repr)
  | .str s => quoted s
  | .list xs => (dumpsList xs).map fun b => 91 :: [44].intercalate b ++ [93]
  | .dict kvs => (dumpsDict kvs).map fun b => 123 :: [44].intercalate b ++ [125]
  | .other => none

def dumpsList : List Value → Option (List Bytes)
  | [] => some []
  | v :: xs => do some ((← dumps v) :: (← dumpsList xs))

def dumpsDict : List (Key × Value) → Option (List Bytes)
  | [] => some []
  | (.str s, v) :: kvs => do some (((← quoted s) ++ 58 :: (← dumps v)) :: (← dumpsDict kvs))
  | (.other, _) :: _ => none

end

/-! ## Trees -/

mutual

/-- The values in a value, with their depths. -/
def nodes (depth : ℕ) (v : Value) : List (ℕ × Value) :=
  (depth, v) ::
    match v with
    | .dict kvs => nodesDict (depth + 1) kvs
    | .list xs => nodesList (depth + 1) xs
    | _ => []

def nodesDict (depth : ℕ) : List (Key × Value) → List (ℕ × Value)
  | [] => []
  | (_, v) :: kvs => nodes depth v ++ nodesDict depth kvs

def nodesList (depth : ℕ) : List Value → List (ℕ × Value)
  | [] => []
  | v :: xs => nodes depth v ++ nodesList depth xs

end

/-! ## The check -/

/-- What `str` refuses to write. -/
def Value.longInt : Value → Bool
  | .int n => (toString n.natAbs).length > 4300
  | _ => false

/-- The texts are those of the errors raised, but for the position in that of a surrogate. -/
def validateAttributes (value : Value) (maxDepth maxKeys maxBytes : ℤ) : Except String Unit :=
  (walk maxDepth maxKeys 1 0 value).bind fun _ =>
    match dumps value with
    | none =>
      if (nodes 1 value).any (·.2.longInt) then
        .error ("Exceeds the limit (4300 digits) for integer string conversion; " ++
          "use sys.set_int_max_str_digits() to increase the limit")
      else .error "surrogates not allowed"
    | some b => if b.length > maxBytes then .error "attributes are too large" else .ok ()

/-! ## The listing -/

/-- A row of `announcements`, with the attributes as `json.loads` reads them back. -/
structure Row where
  id : ℕ
  attributes : Value

inductive Op
  | create (id : ℕ) (attributes : Value)
  | update (id : ℕ) (attributes : Value)

def Op.row : Op → Row
  | .create id v | .update id v => ⟨id, v⟩

/-- What the encoder of responses takes: it refuses a number that is not finite. -/
def Value.finite (v : Value) : Bool := (nodes 1 v).all fun n => !n.2 matches .float _ false

/-- `rows` is ordered by `updated_at`, the last one first. -/
def step (maxDepth maxKeys maxBytes : ℤ) (rows : List Row) (op : Op) : List Row :=
  match validateAttributes op.row.attributes maxDepth maxKeys maxBytes with
  | .error _ => rows
  | .ok _ =>
    match op with
    | .create id v => ⟨id, v⟩ :: rows
    | .update id v =>
      if rows.any (·.id = id) then ⟨id, v⟩ :: rows.filter (·.id ≠ id) else rows

/-- `search_announcements`, with the clauses and the attribute filters of the query. -/
def searchAnnouncements (clauses filters : Row → Bool) (rows : List Row) : List Row :=
  ((rows.filter clauses).take 200).filter filters

/-- `list_announcements` as the client gets it: nothing if the encoder refuses a value. -/
def listAnnouncements (clauses filters : Row → Bool) (rows : List Row) : Option (List Row) :=
  let items := searchAnnouncements clauses filters rows
  if items.all (·.attributes.finite) then some items else none

end TunnelMate.Attributes
