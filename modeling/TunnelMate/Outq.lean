import TunnelMate.Tls
import TunnelMate.Udp

/-!
# The bytes of a UDP send queue

`Udp`, `AgentUdp` and `PeerUdp` keep a send queue as the list of its envelopes. Here it is what the
code has: a region of `outq_cap` bytes, in which length-prefixed records stand between `outq_off`
and `outq_len`.
-/

namespace TunnelMate

open Udp (SslAns uint32Max)

/-- Whose copy of the queue it is: the broker's, or that of the agent or the peer with its
`udp_max_datagram_size`. -/
inductive OutqSide
  | broker (cfg : BrokerCfg)
  | client (udpMaxDatagramSize : ℤ)

namespace OutqSide

def maxPackets : OutqSide → ℕ
  | broker cfg => toU64 cfg.udpQueuePackets
  | client _ => 256

def maxBytes : OutqSide → ℕ
  | broker cfg => toU64 cfg.udpQueuePackets * (toU64 cfg.udpMaxDatagramSize + 15) % 2 ^ 64
  | client size => 256 * (toU64 size + 15) % 2 ^ 64

end OutqSide

structure Outq where
  /-- `outq` up to `outq_len`. -/
  mem : Bytes := []
  off : ℕ := 0
  cap : ℕ := 0
  packets : ℕ := 0
  inflight : Bool := false
  /-- The broker's session is closing, or the client's was stopped. -/
  closing : Bool := false
  -- what happened so far: the envelopes let in, and those `SSL_write` took
  accepted : List Bytes := []
  written : List Bytes := []

namespace Outq

variable (q : Outq)

/-! ## Enqueueing -/

def rejects (side : OutqSide) (data : Bytes) : Bool :=
  q.packets ≥ side.maxPackets || data.length > uint32Max ||
    q.mem.length - q.off + 4 + data.length > side.maxBytes

def compact : Outq :=
  if q.off ≠ 0 then { q with mem := q.mem.drop q.off, off := 0 } else q

/-- Room for `n` more bytes. -/
def reserve (n : ℕ) : Outq :=
  if q.mem.length + n > q.cap then
    let q := q.compact
    if q.mem.length + n > q.cap then
      { q with cap := Tls.growCap (q.mem.length + n) 64 (if q.cap ≠ 0 then q.cap * 2 else 4096) }
    else q
  else q

def put (data : Bytes) : Outq :=
  let q := q.reserve (4 + data.length)
  { q with mem := q.mem ++ (wrU32 data.length ++ data), packets := q.packets + 1,
           accepted := q.accepted ++ [data] }

/-! ## Pumping -/

/-- The envelope at `outq_off`, if it is there as a whole. -/
def front : Option Bytes :=
  let plen := rdU32 (q.mem.drop q.off)
  if q.mem.length - q.off < 4 then none
  else if plen > q.mem.length - q.off - 4 then none
  else some ((q.mem.drop (q.off + 4)).take plen)

def advance (env : Bytes) : Outq :=
  { q with off := q.off + (4 + env.length), packets := q.packets - 1,
           written := q.written ++ [env] }

def reset : Outq := if q.off = q.mem.length then { q with mem := [], off := 0 } else q

/-- The broker's `pump_out`. It writes one envelope; `bio` says if there is a record to send. -/
def pumpOut (ans : SslAns) (bio : Bool) : Outq :=
  if q.closing || q.inflight then q
  else if q.off < q.mem.length then
    match q.front, ans with
    | none, _ => q
    | some _, .fail => q
    | some _, .want => { q.reset with inflight := bio }
    | some env, .whole => { (q.advance env).reset with inflight := bio }
  else { q.reset with inflight := bio }

/-- `tm_agent_udp_stop` and `tm_peer_udp_stop`. -/
def stop : Outq := { q with mem := [], off := 0, cap := 0, packets := 0, closing := true }

/-- The client's `pump_out`, which calls itself while something is queued. `SSL_write` gives the
answers of the list, and WANT behind them. -/
def pumpAll : List SslAns → Outq → Outq
  | ans, q =>
    if q.closing then q
    else if q.off < q.mem.length then
      match q.front, ans with
      | none, _ => q
      | some _, [] => q
      | some _, .want :: _ => q
      | some _, .fail :: _ => q.stop
      | some env, .whole :: ans => pumpAll ans (q.advance env).reset
    else q

def pump (side : OutqSide) (ans : List SslAns) (bio : Bool) : Outq :=
  match side with
  | .broker _ => q.pumpOut (ans.headD .want) bio
  | .client _ => pumpAll ans q

/-- `session_queue` and `udp_queue`. -/
def enqueue (side : OutqSide) (data : Bytes) (ans : List SslAns) (bio : Bool) : Outq :=
  if q.closing || q.rejects side data then q else (q.put data).pump side ans bio

end Outq

inductive OutqLabel
  | enqueue (data : Bytes) (ans : List SslAns) (bio : Bool)
  | pump (ans : List SslAns) (bio : Bool)
  /-- `send_done` of the broker. -/
  | sendDone (ans : List SslAns) (bio : Bool)
  /-- The end of the session. -/
  | close

def outqStep (side : OutqSide) (q : Outq) : OutqLabel → Option Outq
  | .enqueue data ans bio => some (q.enqueue side data ans bio)
  | .pump ans bio => some (q.pump side ans bio)
  | .sendDone ans bio =>
    if q.inflight then some (({ q with inflight := false } : Outq).pump side ans bio) else none
  | .close =>
    match side with
    | .broker _ => some { q with closing := true }
    | .client _ => some q.stop

end TunnelMate
