import Mathlib.Algebra.Order.Ring.Int
import Mathlib.Data.List.Basic

/-!
# Constants, frames, envelopes and byte helpers

`common.h`, the frame record and the UDP envelope of `frame.c`, the credential payload of REGISTER
and AUTH frames, the hex comparison of `crypto.c`, the address comparison of `net.c` and the limits
of the broker's configuration. Byte strings are lists of bytes; a C string is its bytes without the
terminator. The digest a credential is compared by (HMAC-SHA-256) stays an argument wherever it is
used.
-/

namespace TunnelMate

abbrev Bytes := List UInt8

/-- The identity of a heap object: an accepted connection, an agent, a tunnel, a stream. -/
abbrev Ref := ℕ

def tmTunnelIdLen : ℕ := 24
def tmMaxSecret : ℕ := 256
def tmIoHighWater : ℕ := 256 * 1024

/-- `tm_msg_type`; a type byte outside the enumeration is `unknown`. -/
inductive MsgType
  | hello | helloAck | register | registerOk | registerError | ping | pong
  | openStream | openStreamAck | openStreamError | dataBind | dataBindOk | dataBindError
  | closeStream | goingAway | error | killStream | registerAck | auth | authOk | authError
  | unknown (v : UInt8)
  deriving DecidableEq

/-- `tm_frame`, without the version byte every accepted frame has. -/
structure Frame where
  type : MsgType
  streamId : ℕ
  payload : Bytes
  deriving DecidableEq

/-- `rd_u16` on the first two bytes. -/
def rdU16 (p : Bytes) : ℕ := (p.getD 0 0).toNat <<< 8 ||| (p.getD 1 0).toNat

/-- `wr_u16`. -/
def wrU16 (v : ℕ) : Bytes := [(v >>> 8).toUInt8, v.toUInt8]

def rdU32 (p : Bytes) : ℕ := rdU16 p <<< 16 ||| rdU16 (p.drop 2)

def rdU64 (p : Bytes) : ℕ := rdU32 p <<< 32 ||| rdU32 (p.drop 4)

def wrU32 (v : ℕ) : Bytes := wrU16 (v >>> 16) ++ wrU16 v

def wrU64 (v : ℕ) : Bytes := wrU32 (v >>> 32) ++ wrU32 v

/-- The C string a buffer holds: what stands before the first NUL. -/
def cStr (p : Bytes) : Bytes := p.takeWhile (· ≠ 0)

/-- What the parsing of a credential payload takes from it. -/
structure Cred where
  /-- The bytes `memcpy` puts into the `id` buffer; the terminator goes behind them. -/
  id : Bytes
  secret : Bytes
  deriving DecidableEq

/-- The checks `agent_register` and `peer_auth` both begin with, and the split they then make;
`none` is their `bad register` or `bad credentials`. -/
def credSplit (payload : Bytes) : Option Cred :=
  if payload.length < 3 ∨ payload.length > 2 + tmTunnelIdLen + tmMaxSecret then none
  else
    let idlen := rdU16 payload
    if idlen = 0 ∨ 2 + idlen > payload.length then none
    else
      let slen := payload.length - 2 - idlen
      if slen = 0 then none
      else some { id := (payload.drop 2).take idlen, secret := payload.drop (2 + idlen) }

/-- The indices of the `id` buffer that are written: those of the copy, then the terminator's. -/
def Cred.writes (c : Cred) : List ℕ := List.range c.id.length ++ [c.id.length]

/-- The 32 bytes of a digest. -/
abbrev Digest := Vector UInt8 32

def hexd (n : ℕ) : UInt8 := if n < 10 then (48 + n).toUInt8 else (87 + n).toUInt8

/-- The hex text `tm_sha256_hex` writes for a digest. -/
def toHex (d : Bytes) : Bytes :=
  d.flatMap fun v => [hexd (v.toNat >>> 4), hexd (v.toNat &&& 0xF)]

def hexval (c : UInt8) : Option ℕ :=
  if 48 ≤ c.toNat ∧ c.toNat ≤ 57 then some (c.toNat - 48)
  else if 97 ≤ c.toNat ∧ c.toNat ≤ 102 then some (c.toNat - 97 + 10)
  else if 65 ≤ c.toNat ∧ c.toNat ≤ 70 then some (c.toNat - 65 + 10)
  else none

/-- The loop of `tm_ct_eq_hex`: `none` is its early `return false`, otherwise the accumulated
difference. At an odd end the second character is the terminator, which is no hex digit. -/
def ctDiff : Bytes → Bytes → ℕ → Option ℕ
  | ah :: al :: a, bh :: bl :: b, diff =>
    match hexval ah, hexval al, hexval bh, hexval bl with
    | some ah, some al, some bh, some bl =>
      ctDiff a b (diff ||| ((ah <<< 4 ||| al) ^^^ (bh <<< 4 ||| bl)))
    | _, _, _, _ => none
  | [], [], diff => some diff
  | _, _, _ => none

def tmCtEqHex (a b : Bytes) : Bool :=
  a.length = b.length && ctDiff a b 0 = some 0

/-- The bytes a hex text stands for. -/
def fromHex : Bytes → Option Bytes
  | h :: l :: t =>
    match hexval h, hexval l, fromHex t with
    | some h, some l, some t => some ((h <<< 4 ||| l).toUInt8 :: t)
    | _, _, _ => none
  | [] => some []
  | _ => none

/-! ## UDP envelopes -/

def tmEnvHdrLen : ℕ := 11
def tmEnvFlagAuthReq : UInt8 := 0x02
def tmEnvFlagAuthOk : UInt8 := 0x04
def tmEnvFlagAuthErr : UInt8 := 0x08
def tmEnvFlagAll : UInt8 := 0x0F

structure Env where
  flowId : ℕ
  flags : UInt8
  payload : Bytes

def tmEnvEncode (flowId : ℕ) (flags : UInt8) (payload : Bytes) : Bytes :=
  wrU16 11 ++ wrU64 flowId ++ flags :: payload

def tmEnvDecode (buf : Bytes) : Option Env :=
  if buf.length < tmEnvHdrLen then none
  else if rdU16 buf ≠ 11 then none
  else
    let fl := buf.getD 10 0
    if fl &&& ~~~tmEnvFlagAll ≠ 0 then none
    else some { flowId := rdU64 (buf.drop 2), flags := fl, payload := buf.drop 11 }

/-! ## Addresses -/

inductive Family
  | unspec | inet | inet6
  deriving DecidableEq

/-- `sockaddr_storage`. -/
structure Addr where
  family : Family := .unspec
  ip : Bytes := []
  port : ℕ := 0
  scope : ℕ := 0
  deriving DecidableEq

/-- `tm_addr_eq`: the IPv6 scope is not compared. -/
def tmAddrEq (a b : Addr) : Bool :=
  a.family = b.family && a.family ≠ .unspec && a.port = b.port && a.ip = b.ip

/-- `tm_addr_eq_ip`: every address that is not known counts as the same one. -/
def tmAddrEqIp (a b : Addr) : Bool :=
  a.family = b.family && (a.family = .unspec || a.ip = b.ip)

/-! ## The broker's configuration -/

inductive Proto
  | tcp | udp
  deriving DecidableEq

/-- The limits of `tm_broker_cfg`, each a `long long` with the default `cfg_load` gives it. -/
structure BrokerCfg where
  publicPortStart : ℕ := 20000
  publicPortEnd : ℕ := 40000
  maxTunnels : ℤ := 256
  maxStreams : ℤ := 4096
  maxStreamsPerTunnel : ℤ := 256
  maxPendingStreams : ℤ := 256
  handshakeTimeoutMs : ℤ := 15000
  udpFlowIdleTimeoutMs : ℤ := 30000
  udpMaxFlows : ℤ := 65536
  udpMaxFlowsPerTunnel : ℤ := 4096
  udpMaxDatagramSize : ℤ := 1400
  udpMaxPacketsPerTunnel : ℤ := 2000
  udpMaxPacketsPerSource : ℤ := 200
  udpFlowCreationRate : ℤ := 50
  udpQueuePackets : ℤ := 1024
  connectRatePerIp : ℤ := 30

/-- The cast of a `long long` to `size_t` or `uint64_t`. -/
def toU64 (v : ℤ) : ℕ := (v % 2 ^ 64).toNat

/-- The cast to `uint32_t`. -/
def toU32 (v : ℤ) : ℕ := (v % 2 ^ 32).toNat

/-- `*out_len` of `tm_env_encode`, a sum of 32-bit numbers. -/
def envOutLen (payloadLen : ℕ) : ℕ := toU32 (11 + payloadLen)

/-- `*payload_len` of `tm_env_decode`. -/
def envPayloadLen (len : ℕ) : ℕ := toU32 (len - 11)

end TunnelMate
