import TunnelMate.Common

/-!
# The address a request is charged to

`client_ip` of the API, over the parser and the printer of Python's `ipaddress`.
-/

namespace TunnelMate.ClientIp

/-- An `IPv4Address` or an `IPv6Address`, by its number; the latter may have a scope. -/
inductive Address
  | v4 (ip : ℕ)
  | v6 (ip : ℕ) (scopeId : Option (List Char))

/-- `address.ipv4_mapped` in its place where there is one. -/
def Address.folded : Address → Address
  | .v4 ip => .v4 ip
  | .v6 ip scopeId => if ip >>> 32 = 0xFFFF then .v4 (ip &&& 0xFFFFFFFF) else .v6 ip scopeId

def trustedProxies : List (List Char) :=
  ["127.0.0.1".toList, "::1".toList, "::ffff:127.0.0.1".toList]

/-- `str.isspace` of one character. -/
def isSpace (c : Char) : Bool :=
  9 ≤ c.toNat && c.toNat ≤ 13 || 28 ≤ c.toNat && c.toNat ≤ 32 ||
    0x2000 ≤ c.toNat && c.toNat ≤ 0x200A ||
    [0x85, 0xA0, 0x1680, 0x2028, 0x2029, 0x202F, 0x205F, 0x3000].contains c.toNat

def strip (s : List Char) : List Char := ((s.dropWhile isSpace).reverse.dropWhile isSpace).reverse

section

variable (ipAddress : List Char → Option Address) (str : Address → List Char)

/-- `client_ip`, from the host of `request.client` and the `x-forwarded-for` header. -/
def clientIp (host : Option (List Char)) (forwarded : List Char) : List Char :=
  let peer := host.getD "unknown".toList
  if peer ∉ trustedProxies then peer
  else
    match (((forwarded.splitOn ',').map strip).filter (· ≠ [])).getLast? with
    | none => peer
    | some candidate =>
      match ipAddress candidate with
      | none => peer
      | some address => str address.folded

end

end TunnelMate.ClientIp
