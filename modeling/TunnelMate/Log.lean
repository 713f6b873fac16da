import TunnelMate.Json

/-!
# Strings in log lines

`json_escape` of `log.c`: the string is a C string, and `out` the whole buffer of `outlen` bytes.
-/

namespace TunnelMate.Log

/-- The bytes `bs` go to `out + off`, if they are inside the buffer. -/
def write (off : ℕ) (bs out : Bytes) : Option Bytes :=
  if off + bs.length ≤ out.length then some (out.take off ++ bs ++ out.drop (off + bs.length))
  else none

/-- The cases of the `switch`, with the letter behind the backslash. -/
def cases : List (UInt8 × UInt8) := [(34, 34), (92, 92), (10, 110), (13, 114), (9, 116)]

/-- The body of the loop; `snprintf` cuts the text to its size and ends it with a NUL. -/
def put (c : UInt8) (n : ℕ) (out : Bytes) : Option (ℕ × Bytes) :=
  match cases.lookup c with
  | some e => (write n [92, e] out).map (n + 2, ·)
  | none =>
    if c < 32 then
      (write n [92, 117] out).bind fun out =>
        let size := out.length - (n + 2)
        let text := (Json.unicodeEscape c.toNat).drop 2
        if size = 0 then some (n + 6, out)
        else (write (n + 2) (text.take (size - 1) ++ [0]) out).map (n + 6, ·)
    else (write n [c] out).map (n + 1, ·)

def jsonEscape : Bytes → ℕ → Bytes → Option (ℕ × Bytes)
  | [], n, out => (write n [0] out).map (n, ·)
  | c :: p, n, out =>
    if n + 6 < out.length then (put c n out).bind fun r => jsonEscape p r.1 r.2
    else (write n [0] out).map (n, ·)

end TunnelMate.Log
