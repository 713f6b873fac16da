import TunnelMate.Common

/-!
# Addresses on the peer's command line

`parse_tunnel_url` and `parse_listen`. Strings are C strings, without a NUL.
-/

namespace TunnelMate.PeerArgs

/-- A string is refused, or an index or a length is out of range. -/
inductive Fault
  | refused
  | outside
  deriving DecidableEq

/-- What is before and behind the first `c`. -/
def strchr (c : UInt8) (s : Bytes) : Option (Bytes × Bytes) :=
  if c ∈ s then some (s.takeWhile (· ≠ c), (s.dropWhile (· ≠ c)).tail) else none

def strrchr (c : UInt8) (s : Bytes) : Option (Bytes × Bytes) :=
  (strchr c s.reverse).map fun x => (x.2.reverse, x.1.reverse)

/-- `isspace` in the C locale. -/
def isSpace (b : UInt8) : Bool := b = 32 || 9 ≤ b && b ≤ 13

def isDigit (b : UInt8) : Bool := 48 ≤ b && b ≤ 57

/-- The number that digits write. -/
def decimal (digits : Bytes) : ℕ := digits.foldl (fun v b => v * 10 + (b.toNat - 48)) 0

/-- The number at the front, and what is behind it. -/
def number (u : Bytes) : Option (ℕ × Bytes) :=
  if u.takeWhile isDigit = [] then none
  else some (decimal (u.takeWhile isDigit), u.dropWhile isDigit)

/-- `strtol` to the base 10: the value, and what `end` points to. -/
def strtol (s : Bytes) : ℤ × Bytes :=
  let t := s.dropWhile isSpace
  if t.head? = some 45 then
    (number t.tail).elim (0, s) fun v => (max (-v.1) (-2 ^ 63), v.2)
  else
    (number (if t.head? = some 43 then t.tail else t)).elim (0, s) fun v =>
      (min v.1 (2 ^ 63 - 1), v.2)

def port (s : Bytes) : Option ℕ :=
  let (v, rest) := strtol s
  if rest ≠ [] ∨ v < 1 ∨ v > 65535 then none else some v.toNat

/-- What `parse_tunnel_url` does with the text before the `/`. -/
def authority (host : Bytes) : Except Fault (Bytes × ℕ) :=
  if host.head? = some 91 then
    match strchr 93 host with
    | none => .error .refused
    | some (inner, after) =>
      if inner.length < 1 then .error .outside
      else if after = [] then .ok (inner.tail, 7000)
      else if after.head? = some 58 then
        (port after.tail).elim (.error .refused) fun v => .ok (inner.tail, v)
      else .error .refused
  else
    match strrchr 58 host with
    | none => .ok (host, 7000)
    | some (h, p) => (port p).elim (.error .refused) fun v => .ok (h, v)

/-- `tunnel://` -/
def scheme : Bytes := [116, 117, 110, 110, 101, 108, 58, 47, 47]

def parseTunnelUrl (url : Bytes) : Except Fault (Bytes × ℕ × Bytes) :=
  if scheme <+: url then
    match strchr 47 (url.drop 9) with
    | none => .error .refused
    | some (host, id) =>
      if host = [] ∨ host.length ≥ 512 ∨ id = [] ∨ id.length > 128 then .error .refused
      else (authority host).bind fun r =>
        if r.1 = [] ∨ r.1.length ≥ 256 then .error .refused else .ok (r.1, r.2, id)
  else .error .refused

def parseListen (s : Bytes) : Except Fault (Bytes × ℕ) :=
  match strrchr 58 s with
  | none => .error .refused
  | some (host, p) =>
    if host = [] ∨ host.length ≥ 256 then .error .refused
    else if host.head? = some 91 ∧ host.length < 2 then .error .outside
    else (port p).elim (.error .refused) fun v =>
      .ok (if host.head? = some 91 then host.tail.dropLast else host, v)

end TunnelMate.PeerArgs
