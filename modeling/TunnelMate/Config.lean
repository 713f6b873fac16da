import TunnelMate.Common

/-!
# Configuration files

`config.c`: the text is cut into lines, and each line is blank, a comment, a section or an
assignment. Texts, names and values are C strings, without a NUL.
-/

namespace TunnelMate.Config

def isBlank (b : UInt8) : Bool := b = 32 || b = 9

def trim (s : Bytes) : Bytes :=
  ((s.dropWhile isBlank).reverse.dropWhile fun b => isBlank b || b = 13).reverse

/-- The quotes around a value go. -/
def unquote (v : Bytes) : Bytes :=
  if v.length ≥ 2 ∧ (v.head? = some 34 ∧ v.getLast? = some 34 ∨
      v.head? = some 39 ∧ v.getLast? = some 39) then v.tail.dropLast
  else v

/-- `tm_config`, the list of its `tm_kv`. -/
abbrev Kvs := List (Bytes × Bytes)

/-- The loop of `config_set` that replaces an existing entry. -/
def replace (full value : Bytes) : Kvs → Option Kvs
  | [] => none
  | k :: c => if k.1 = full then some ((full, value) :: c) else (replace full value c).map (k :: ·)

/-- The name as `snprintf` writes it into `full`. -/
def fullName (sect key : Bytes) : Bytes :=
  (if sect = [] then key else sect ++ 46 :: key).take 255

def configSet (c : Kvs) (sect key value : Bytes) : Kvs :=
  (replace (fullName sect key) value c).getD ((fullName sect key, value) :: c)

/-- The loop body of `config_parse_buf`, with `parse_line`: the section and the entries, or the
number of the line and the error. -/
def parseLine (st : Bytes × Kvs) (line : Bytes) (lineno : ℕ) : Except (ℕ × String) (Bytes × Kvs) :=
  match line.dropWhile isBlank with
  | [] => .ok st
  | c :: r =>
    if c = 91 then
      if 93 ∈ r then .ok (r.takeWhile (· ≠ 93), st.2) else .error (lineno, "unterminated section")
    else if c = 35 then .ok st
    else if 61 ∉ c :: r then .error (lineno, "expected '='")
    else
      let p := trim ((c :: r).takeWhile (· ≠ 61))
      let v := unquote (trim ((c :: r).dropWhile (· ≠ 61)).tail)
      if p = [] then .error (lineno, "empty key") else .ok (st.1, configSet st.2 st.1 p v)

/-- The tokens of `strtok_r`. -/
def lines (text : Bytes) : List Bytes := (text.splitOn 10).filter (· ≠ [])

def parseLines (st : Bytes × Kvs) : List Bytes → ℕ → Except (ℕ × String) (Bytes × Kvs)
  | [], _ => .ok st
  | l :: ls, lineno => (parseLine st l lineno).bind fun st => parseLines st ls (lineno + 1)

def configParseBuf (c : Kvs) (text : Bytes) : Except (ℕ × String) Kvs :=
  (parseLines ([], c) (lines text) 1).map Prod.snd

def configFind (c : Kvs) (key : Bytes) : Option Bytes := c.lookup key

/-- Whether the name is there, and what is written to `out`. -/
def tmConfigGetStr (c : Kvs) (key dflt : Bytes) : Bool × Bytes :=
  match configFind c key with
  | none => (false, dflt)
  | some v => (true, v)

end TunnelMate.Config
