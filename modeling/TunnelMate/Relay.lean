import TunnelMate.Duplex
import TunnelMate.Lib.Trace

/-!
# The broker's relay

`relay.c`: the callbacks of the two legs of a stream, the attachment of the agent's data
connection, and the bind timer. Leg A is the consumer, leg B the agent.
-/

namespace TunnelMate.Relay

open Duplex

/-- Where a relay function goes on after a call that may call back. -/
inductive Tail
  /-- `relay_a_eof`, `relay_a_error` and their leg-B twins after `flush_pend`. -/
  | ended (l : Leg)
  /-- `relay_a_low` and its twin after `flush_pend`. -/
  | low (l : Leg)
  /-- The same after the half-close. -/
  | lowResume (l : Leg)
  /-- `tm_stream_relay_start` after `flush_pend`. -/
  | start
  | maybeClose
  deriving DecidableEq

def relayARead (data : Bytes) (ans : Ans) (s : Stream) : Stream × List (Op Tail) :=
  if s.closing then (s, [])
  else
    let s := { s with upBytes := s.upBytes + data.length }
    if s.b.io = none then
      if s.b.eof then (tmStreamClose s, []) else (queueEarly data s, [])
    else relayWrite .a data ans s

def relayBRead (data : Bytes) (ans : Ans) (s : Stream) : Stream × List (Op Tail) :=
  if s.closing then (s, [])
  else
    let s := { s with downBytes := s.downBytes + data.length }
    if s.a.io = none then (tmStreamClose s, [])
    else relayWrite .b data ans s

/-- What `relay_a_eof` and `relay_a_error` do once `a_eof` is set. -/
def legEnded (l : Leg) (s : Stream) : Stream × List (Op Tail) :=
  if (s.side l.other).io = none then (streamMaybeClose s, [])
  else
    let (s, ops) := flushPend l.other s
    (s, ops ++ [.tail (.ended l)])

/-- `relay_a_eof`, `relay_b_eof`. -/
def relayEof (l : Leg) (s : Stream) : Stream × List (Op Tail) :=
  if s.closing then (s, []) else legEnded l (s.upd (fun x => { x with eof := true }) l)

/-- `relay_a_error`, `relay_b_error`: the leg's io is closed first. -/
def relayError (l : Leg) (s : Stream) : Stream × List (Op Tail) :=
  if s.closing then (s, [])
  else legEnded l (s.upd (fun x => { x with io := none, eof := true }) l)

/-- `relay_a_low`, `relay_b_low`: leg `l` can take more. -/
def relayLow (l : Leg) (s : Stream) : Stream × List (Op Tail) :=
  if s.closing then (s, [])
  else if (s.side l).io = none then (streamMaybeClose s, [])
  else
    let (s, ops) := flushPend l s
    (s, ops ++ [.tail (.low l)])

/-- `tm_stream_relay_start`: a missing leg-A io is made anew over the consumer's socket. -/
def tmStreamRelayStart (s : Stream) : Stream × List (Op Tail) :=
  if s.bound then (s, [])
  else
    let s := { s with bound := true }
    let s := if s.a.io = none then
        s.upd (fun x => { x with io := some .tcp, shut := false, drained := true }) .a
      else s
    if s.preq ≠ [] then
      let s := { s with preq := [], b := { s.b with pend := s.preq } }
      let (s, ops) := flushPend .b s
      (s, ops ++ [.tail .start])
    else (s, [.tail .start])

/-- `tm_stream_relay_attach_agent`. -/
def tmStreamRelayAttachAgent (io : Io) (s : Stream) : Stream × List (Op Tail) :=
  if s.closing || s.bound then (s, [])
  else
    tmStreamRelayStart
      (s.upd (fun x => { x with io := some io, shut := false, drained := true }) .b)

def tail (k : Tail) (s : Stream) : Stream × List (Op Tail) :=
  match k with
  | .ended l =>
    if (s.side l.other).pend ≠ [] then (streamMaybeClose s, [])
    else
      let (s, ops) := tmIoShutdownSend l.other (s.upd (fun x => { x with fin := true }) l)
      (s, ops ++ [.tail .maybeClose])
  | .low l =>
    if (s.side l).pend ≠ [] then (streamMaybeClose s, [])
    else if (s.side l.other).eof && !(s.side l.other).fin then
      let (s, ops) := tmIoShutdownSend l (s.upd (fun x => { x with fin := true }) l.other)
      (s, ops ++ [.tail (.lowResume l)])
    else (s, [.tail (.lowResume l)])
  | .lowResume l =>
    if (s.side l.other).paused && (s.side l.other).io.isSome then
      let (s, ops) := tmIoResumeRead l.other (s.upd (fun x => { x with paused := false }) l.other)
      (s, ops ++ [.tail .maybeClose])
    else (s, [.tail .maybeClose])
  | .start =>
    if s.b.pend ≠ [] then (s.upd (fun x => { x with paused := true }) .a, [])
    else if s.a.paused then tmIoResumeRead .a (s.upd (fun x => { x with paused := false }) .a)
    else (s, [])
  | .maybeClose => (streamMaybeClose s, [])

/-- What can happen to a stream. -/
inductive Label
  -- callbacks of a leg's io, each with the answer to the write it may make
  | read (l : Leg) (data : Bytes) (ans : Ans)
  | eof (l : Leg)
  | error (l : Leg)
  | low (l : Leg)
  -- calls from the rest of the broker
  | ingestA (data : Bytes) (ans : Ans)
  | ingestB (data : Bytes) (ans : Ans)
  | attach (io : Io)
  | bindTimer
  | close
  | run (ans : Ans)
  /-- The output of a leg's io advances, or fills, without a callback. -/
  | drain (l : Leg) (v : Bool)
  deriving DecidableEq

def relayRead : Leg → Bytes → Ans → Stream → Stream × List (Op Tail)
  | .a => relayARead
  | .b => relayBRead

def step (c : Config Tail) : Label → Option (Config Tail)
  | .read l data ans =>
    if c.open && (c.s.side l).io.isSome then
      some (c.push (relayRead l data ans (c.s.noteRead l data)))
    else none
  | .eof l => if c.open && (c.s.side l).io.isSome then some (c.push (relayEof l c.s)) else none
  | .error l =>
    if c.open && (c.s.side l).io.isSome then some (c.push (relayError l c.s)) else none
  | .low l => if c.open && (c.s.side l).io.isSome then some (c.push (relayLow l c.s)) else none
  -- `tm_stream_ingest_a` runs when a peer has just opened the stream, `tm_stream_ingest` when the
  -- agent leg has just been attached; both do nothing on a closing stream
  | .ingestA data ans =>
    if c.todo = [] && !c.s.bound && !c.s.closing then
      some (c.push (relayARead data ans (c.s.noteRead .a data)))
    else none
  | .ingestB data ans =>
    if c.todo = [] && c.s.bound && !c.s.closing then
      some (c.push (relayBRead data ans (c.s.noteRead .b data)))
    else none
  | .attach io => if c.todo = [] then some (c.push (tmStreamRelayAttachAgent io c.s)) else none
  -- `stream_bind_timer_cb`
  | .bindTimer =>
    if c.todo = [] then some { c with s := if c.s.bound then c.s else tmStreamClose c.s } else none
  | .close => if c.todo = [] then some { c with s := tmStreamClose c.s } else none
  | .run ans => c.run tail ans
  | .drain l v => some { c with s := c.s.upd (fun x => { x with drained := v }) l }

/-- A stream as `tm_stream_create_open` leaves it: the public socket has no io yet. -/
def createdOpen : Stream := {}

/-- A stream as `tm_stream_create_closed` leaves it: the peer's TLS io is leg A already. -/
def createdClosed (conn : Ref) : Stream := { a := { io := some (.ssl conn) } }

def Init (c : Config Tail) : Prop :=
  c.todo = [] ∧ (c.s = createdOpen ∨ ∃ conn, c.s = createdClosed conn)

end TunnelMate.Relay
