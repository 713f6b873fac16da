import TunnelMate.Duplex
import TunnelMate.Lib.Trace

/-!
# The agent's relay

The agent's `tcp.c`, from the DATA_BIND_OK of a data connection on: the callbacks of the broker
leg (A) and of the local leg (B), and the completion of the local connect. `pending_buf` is `preq`
until the local leg is there, and the `pend` of leg B from then on; `pend_buf` is the `pend` of
leg A. `local_fin` says that the end of the broker leg has been passed on, so it is the `fin` of
leg A, and `broker_fin` that of leg B.
-/

namespace TunnelMate.AgentRelay

open Duplex

/-- Where a relay function goes on after a call that may call back. -/
inductive Tail
  /-- `relay_broker_eof` between its two calls of `flush_pend`. -/
  | brokerEof
  /-- `relay_broker_eof` and `relay_local_eof` after `flush_pend`. -/
  | ended (l : Leg)
  /-- `relay_broker_low` and `relay_local_low` after `flush_pend`. -/
  | low (l : Leg)
  /-- The same after the half-close. -/
  | lowResume (l : Leg)
  /-- `local_connected` after `flush_pend`, after the resume, and after the half-close. -/
  | connected
  | connectedEof
  | connectedClose
  | maybeClose
  deriving DecidableEq

def relayBrokerRead (data : Bytes) (ans : Ans) (s : Stream) : Stream × List (Op Tail) :=
  if s.closing then (s, [])
  else
    let s := { s with upBytes := s.upBytes + data.length }
    if s.b.io = none then (queueEarly data s, []) else relayWrite .a data ans s

def relayLocalRead (data : Bytes) (ans : Ans) (s : Stream) : Stream × List (Op Tail) :=
  if s.closing then (s, [])
  else
    let s := { s with downBytes := s.downBytes + data.length }
    relayWrite .b data ans s

def relayBrokerEof (s : Stream) : Stream × List (Op Tail) :=
  if s.closing then (s, [])
  else
    let s := s.upd (fun x => { x with eof := true }) .a
    if s.b.io = none then (s, [])
    else
      let (s, ops) := flushPend .b s
      (s, ops ++ [.tail .brokerEof])

def relayLocalEof (s : Stream) : Stream × List (Op Tail) :=
  if s.closing then (s, [])
  else
    let (s, ops) := flushPend .a (s.upd (fun x => { x with eof := true }) .b)
    (s, ops ++ [.tail (.ended .b)])

/-- `relay_broker_low`, `relay_local_low`. -/
def relayLow (l : Leg) (s : Stream) : Stream × List (Op Tail) :=
  if s.closing then (s, [])
  else
    let (s, ops) := flushPend l s
    (s, ops ++ [.tail (.low l)])

/-- `local_connected`, `ok` saying whether the connect succeeded. -/
def localConnected (ok : Bool) (s : Stream) : Stream × List (Op Tail) :=
  if s.closing then (s, [])
  else if !ok then (tmStreamClose s, [])
  else
    let s := { s with
      bound := true
      preq := []
      b := { s.b with io := some .tcp, shut := false, drained := true, pend := s.preq } }
    let (s, ops) := flushPend .b s
    (s, ops ++ [.tail .connected])

def localConnectTimeout (s : Stream) : Stream :=
  if s.closing || s.bound then s else tmStreamClose s

def tail (k : Tail) (s : Stream) : Stream × List (Op Tail) :=
  match k with
  | .brokerEof =>
    let (s, ops) := flushPend .a s
    (s, ops ++ [.tail (.ended .a)])
  | .ended l =>
    if (s.side l.other).pend ≠ [] then (streamMaybeClose s, [])
    else
      let (s, ops) := tmIoShutdownSend l.other (s.upd (fun x => { x with fin := true }) l)
      (s, ops ++ [.tail .maybeClose])
  | .low l =>
    if (s.side l).pend ≠ [] then (streamMaybeClose s, [])
    else if (s.side l.other).eof && !(s.side l.other).fin then
      let (s, ops) := tmIoShutdownSend l (s.upd (fun x => { x with fin := true }) l.other)
      (s, ops ++ [.tail (.lowResume l)])
    else (s, [.tail (.lowResume l)])
  | .lowResume l =>
    if (s.side l.other).paused then
      let (s, ops) := tmIoResumeRead l.other (s.upd (fun x => { x with paused := false }) l.other)
      (s, ops ++ [.tail .maybeClose])
    else (s, [.tail .maybeClose])
  | .connected =>
    if s.b.pend ≠ [] then (s.upd (fun x => { x with paused := true }) .a, [.tail .connectedEof])
    else if s.a.paused then
      let (s, ops) := tmIoResumeRead .a (s.upd (fun x => { x with paused := false }) .a)
      (s, ops ++ [.tail .connectedEof])
    else (s, [.tail .connectedEof])
  | .connectedEof =>
    if s.a.eof then
      let (s, ops) := tmIoShutdownSend .b s
      (s, ops ++ [.tail .connectedClose])
    else (s, [])
  | .connectedClose => (if s.b.eof then tmStreamClose s else s, [])
  | .maybeClose => (streamMaybeClose s, [])

/-- What can happen to a stream. -/
inductive Label
  | read (l : Leg) (data : Bytes) (ans : Ans)
  | eof (l : Leg)
  /-- `relay_broker_error`, `relay_local_error`. -/
  | error (l : Leg)
  | low (l : Leg)
  | connect (ok : Bool)
  | connectTimer
  /-- `tm_astream_close` from the control connection. -/
  | close
  | run (ans : Ans)
  /-- The output of a leg's io advances, or fills, without a callback. -/
  | drain (l : Leg) (v : Bool)
  deriving DecidableEq

def relayRead : Leg → Bytes → Ans → Stream → Stream × List (Op Tail)
  | .a => relayBrokerRead
  | .b => relayLocalRead

def relayEof : Leg → Stream → Stream × List (Op Tail)
  | .a => relayBrokerEof
  | .b => relayLocalEof

def step (c : Config Tail) : Label → Option (Config Tail)
  | .read l data ans =>
    if c.open && (c.s.side l).io.isSome then
      some (c.push (relayRead l data ans (c.s.noteRead l data)))
    else none
  | .eof l => if c.open && (c.s.side l).io.isSome then some (c.push (relayEof l c.s)) else none
  | .error l =>
    if c.open && (c.s.side l).io.isSome then some { c with s := tmStreamClose c.s } else none
  | .low l => if c.open && (c.s.side l).io.isSome then some (c.push (relayLow l c.s)) else none
  -- the connect request is answered once, at the event loop
  | .connect ok =>
    if c.todo = [] && !c.s.bound then some (c.push (localConnected ok c.s)) else none
  | .connectTimer => if c.todo = [] then some { c with s := localConnectTimeout c.s } else none
  | .close => if c.todo = [] then some { c with s := tmStreamClose c.s } else none
  | .run ans => c.run tail ans
  | .drain l v => some { c with s := c.s.upd (fun x => { x with drained := v }) l }

/-- A stream as `data_conn_pre_read` leaves it at DATA_BIND_OK: what came behind the frame is
already queued for the local service. -/
def bindOk (leftover : Bytes) : Stream :=
  { a := { io := some (.ssl 0), rd := leftover }, preq := leftover }

def Init (c : Config Tail) : Prop := c.todo = [] ∧ ∃ leftover, c.s = bindOk leftover

end TunnelMate.AgentRelay
