import TunnelMate.Api

/-!
# Strings between the API and the broker

A string of an API request reaches the broker in a line of JSON. `json.dumps` writes it in ASCII,
with escapes for everything else; `parse_string` of `cJSON.c` turns the literal into UTF-8 bytes,
of which the broker sees a C string. The API limits the number of characters.
-/

namespace TunnelMate

namespace Json

/-! ## `json.dumps` -/

/-- A code unit of UTF-16 as `\uXXXX`. -/
def unicodeEscape (n : ℕ) : Bytes :=
  [92, 117, hexd (n >>> 12 &&& 15), hexd (n >>> 8 &&& 15), hexd (n >>> 4 &&& 15), hexd (n &&& 15)]

/-- The short escapes. -/
def escapeDct : List (Char × UInt8) :=
  [('\\', 92), ('"', 34), ('\x08', 98), ('\x0c', 102), ('\n', 110), ('\r', 114), ('\t', 116)]

/-- A character as `json.dumps` writes it: what is not printable ASCII is escaped, beyond the basic
plane as a surrogate pair. -/
def escape (c : Char) : Bytes :=
  match escapeDct.lookup c with
  | some e => [92, e]
  | none =>
    if 32 ≤ c.toNat ∧ c.toNat ≤ 126 then [c.toNat.toUInt8]
    else if c.toNat < 0x10000 then unicodeEscape c.toNat
    else
      let n := c.toNat - 0x10000
      unicodeEscape (0xD800 ||| (n >>> 10 &&& 0x3FF)) ++ unicodeEscape (0xDC00 ||| (n &&& 0x3FF))

def dumps (s : List Char) : Bytes := 34 :: s.flatMap escape ++ [34]

/-! ## `parse_string` -/

def parseHexDigit (c : UInt8) : Option ℕ :=
  if 48 ≤ c.toNat ∧ c.toNat ≤ 57 then some (c.toNat - 48)
  else if 65 ≤ c.toNat ∧ c.toNat ≤ 70 then some (10 + c.toNat - 65)
  else if 97 ≤ c.toNat ∧ c.toNat ≤ 102 then some (10 + c.toNat - 97)
  else none

/-- `parse_hex4`; what is no hex number counts as 0. -/
def parseHex4 (p : Bytes) : ℕ :=
  match (p.take 4).mapM parseHexDigit with
  | some ds => ds.foldl (fun h d => h <<< 4 + d) 0
  | none => 0

/-- The loop that writes the continuation bytes, the last one first, and then the first byte. -/
def encodeUtf8 (mark : ℕ) : ℕ → ℕ → Bytes → Bytes
  | 0, cp, out => ((cp ||| mark) &&& 0xFF).toUInt8 :: out
  | n + 1, cp, out => encodeUtf8 mark n (cp >>> 6) (((cp ||| 0x80) &&& 0xBF).toUInt8 :: out)

def codepointToUtf8 (cp : ℕ) : Option Bytes :=
  if cp < 0x80 then some [(cp &&& 0x7F).toUInt8]
  else if cp < 0x800 then some (encodeUtf8 0xC0 1 cp [])
  else if cp < 0x10000 then some (encodeUtf8 0xE0 2 cp [])
  else if cp ≤ 0x10FFFF then some (encodeUtf8 0xF0 3 cp [])
  else none

/-- `utf16_literal_to_utf8` on input that begins with `\u`: the bytes written and how much of the
input they stand for. -/
def utf16LiteralToUtf8 (p : Bytes) : Option (Bytes × ℕ) :=
  if p.length < 6 then none
  else
    let first := parseHex4 (p.drop 2)
    if 0xDC00 ≤ first ∧ first ≤ 0xDFFF then none
    else if 0xD800 ≤ first ∧ first ≤ 0xDBFF then
      let q := p.drop 6
      if q.length < 6 then none
      else if q.take 2 ≠ [92, 117] then none
      else
        let second := parseHex4 (q.drop 2)
        if second < 0xDC00 ∨ second > 0xDFFF then none
        else
          (codepointToUtf8 (0x10000 + ((first &&& 0x3FF) <<< 10 ||| (second &&& 0x3FF)))).map
            (·, 12)
    else (codepointToUtf8 first).map (·, 6)

/-- The escapes of one character. -/
def unescapeChar (c : UInt8) : Option UInt8 :=
  if c = 98 then some 8
  else if c = 102 then some 12
  else if c = 110 then some 10
  else if c = 114 then some 13
  else if c = 116 then some 9
  else if c = 34 ∨ c = 92 ∨ c = 47 then some c
  else none

/-- The loop over the literal. -/
def unescape (p : Bytes) : Option Bytes :=
  match p with
  | [] => some []
  | c :: r =>
    if c ≠ 92 then (unescape r).map (c :: ·)
    else
      match r with
      | [] => none
      | e :: r' =>
        if e = 117 then
          (utf16LiteralToUtf8 (c :: r)).bind fun (out, n) =>
            (unescape (r'.drop (n - 2))).map (out ++ ·)
        else (unescapeChar e).bind fun b => (unescape r').map (b :: ·)
termination_by p.length

/-- The literal up to the closing quote, and what follows it. A backslash takes the next byte with
it. -/
def literal : Bytes → Option (Bytes × Bytes)
  | [] => none
  | c :: r =>
    if c = 34 then some ([], r)
    else if c = 92 then
      match r with
      | [] => none
      | e :: r => (literal r).map fun (l, r) => (c :: e :: l, r)
    else (literal r).map fun (l, r) => (c :: l, r)

/-- `parse_string`: the bytes of the string, and the input behind it. -/
def parseString (p : Bytes) : Option (Bytes × Bytes) :=
  match p with
  | [] => none
  | q :: r =>
    if q ≠ 34 then none
    else (literal r).bind fun (l, r) => (unescape l).map (·, r)

end Json

/-! ## `shared_token` -/

/-- A `shared_token` that `TunnelCreate` accepts. -/
structure SharedToken where
  chars : List Char
  min_length : 16 ≤ chars.length
  max_length : chars.length ≤ 256

namespace SharedToken

variable (token : SharedToken)

def bytes : Bytes := token.chars.flatMap String.utf8EncodeChar

/-- The C string that the broker finds in the field. -/
def field : Option Bytes := (Json.parseString (Json.dumps token.chars)).map fun x => cStr x.1

/-- The body of a request for a closed tunnel with the token. -/
def body (protocol : Proto) (preferPort : Option ℕ) : Api.TunnelCreate :=
  { closed := true, protocol := protocol, sharedToken := token.field, preferPort := preferPort }

end SharedToken

end TunnelMate
