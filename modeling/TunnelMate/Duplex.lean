import TunnelMate.Common

/-!
# Two legs and their queues

What the broker's `relay.c` and the agent's `tcp.c` share: a stream pairs two io objects and moves
bytes both ways through bounded queues. The io layer may call back into the relay while the relay is
inside one of its functions, so a stream is modelled with its call stack: `todo` lists what is left
to run, the innermost call first. `inIo` on top means the relay is waiting inside the io layer,
where callbacks may arrive; an empty stack is the event loop.

In the broker leg A is the consumer (a public client or an authenticated peer) and leg B the
agent's data connection; in the agent leg A is the data connection to the broker and leg B the
local service. In both, leg B is the one that comes later.
-/

namespace TunnelMate.Duplex

inductive Leg
  | a | b
  deriving DecidableEq

def Leg.other : Leg → Leg
  | a => b
  | b => a

/-- An io object: the raw TCP io of a socket, or the TLS io of an accepted connection. -/
inductive Io
  | tcp
  | ssl (conn : Ref)
  deriving DecidableEq

/-- `TM_OK`, `TM_ERR_BUSY` or an error. -/
inductive Ans
  | ok | busy | err
  deriving DecidableEq

/-- What had happened in the direction into a leg when its half-close was requested. -/
structure Cut where
  rd : Bytes
  acc : Bytes
  queue : Bytes
  deriving DecidableEq

/-- What a stream holds for one leg, and the write side of that leg's io. -/
structure Side where
  /-- `none` is NULL: not there yet, or already closed. -/
  io : Option Io := none
  eof : Bool := false
  paused : Bool := false
  /-- This leg's end has been passed on to the other leg. -/
  fin : Bool := false
  /-- The bytes waiting to go out on this leg. -/
  pend : Bytes := []
  flushing : Bool := false
  /-- The io refuses every further write: half-closed, or failed before. -/
  shut : Bool := false
  drained : Bool := true
  -- what happened so far: bytes read from the leg, bytes it accepted, a write it refused, the
  -- half-closes requested of it
  rd : Bytes := []
  acc : Bytes := []
  lost : Bool := false
  cuts : List Cut := []
  deriving DecidableEq

/-- The relay state of a `tm_stream` or `tm_astream`. `preq` holds the bytes of leg A that arrived
before leg B was there; the agent has one buffer, `pending_buf`, for `preq` and leg B's `pend`. -/
structure Stream where
  a : Side := {}
  b : Side := {}
  bound : Bool := false
  closing : Bool := false
  preq : Bytes := []
  upBytes : ℕ := 0
  downBytes : ℕ := 0
  deriving DecidableEq

namespace Stream

def side (s : Stream) : Leg → Side
  | .a => s.a
  | .b => s.b

def upd (s : Stream) (f : Side → Side) : Leg → Stream
  | .a => { s with a := f s.a }
  | .b => { s with b := f s.b }

/-- The queue into leg `l`. -/
def queue (s : Stream) (l : Leg) : Bytes :=
  (s.side l).pend ++ if l = .b then s.preq else []

/-- The chunk counts as read from the leg, whatever the relay does with it. -/
def noteRead (l : Leg) (data : Bytes) (s : Stream) : Stream :=
  s.upd (fun x => { x with rd := x.rd ++ data }) l

end Stream

/-- What is left to run of a call; `τ` names the continuations of the relay's own functions. -/
inductive Op (τ : Type)
  /-- Inside the io layer. -/
  | inIo
  /-- The loop test of `flush_pend`. -/
  | flushLoop (l : Leg)
  /-- `flush_pend` after a write of `n` bytes was accepted. -/
  | flushShift (l : Leg) (n : ℕ)
  | tail (k : τ)
  deriving DecidableEq

structure Config (τ : Type) where
  s : Stream
  todo : List (Op τ) := []
  deriving DecidableEq

variable {τ : Type}

/-- Callbacks arrive at the event loop, or while the relay is inside the io layer. -/
def Config.open (c : Config τ) : Bool :=
  match c.todo with
  | [] => true
  | .inIo :: _ => true
  | _ => false

def Config.push (c : Config τ) (r : Stream × List (Op τ)) : Config τ :=
  { s := r.1, todo := r.2 ++ c.todo }

/-- `tm_stream_close`, `tm_astream_close`. The queues are freed, their lengths left as they are. -/
def tmStreamClose (s : Stream) : Stream :=
  if s.closing then s
  else { s with closing := true, a := { s.a with io := none }, b := { s.b with io := none } }

/-- `stream_maybe_close`, `astream_maybe_close`. -/
def streamMaybeClose (s : Stream) : Stream :=
  if s.closing || !s.a.eof || !s.b.eof then s
  else if s.a.io.isSome && !s.a.drained then s
  else if s.b.io.isSome && !s.b.drained then s
  else if s.a.pend ≠ [] ∨ s.b.pend ≠ [] ∨ s.preq ≠ [] then s
  else tmStreamClose s

/-- `tm_io_write` on leg `l`, the io answering `ans` unless it is gone or refuses writes. OK takes
the whole chunk, BUSY and an error take nothing; after an error the io refuses every write. -/
def tmIoWrite (l : Leg) (data : Bytes) (ans : Ans) (s : Stream) : Ans × Stream :=
  match if (s.side l).io = none ∨ (s.side l).shut = true then .err else ans with
  | .ok => (.ok, s.upd (fun x => { x with acc := x.acc ++ data, drained := false }) l)
  | .busy => (.busy, s)
  | .err => (.err, s.upd (fun x => { x with shut := true, lost := true }) l)

/-- `tm_io_shutdown_send`. -/
def tmIoShutdownSend (l : Leg) (s : Stream) : Stream × List (Op τ) :=
  if (s.side l).io = none then (s, [])
  else
    let cut : Cut := { rd := (s.side l.other).rd, acc := (s.side l).acc, queue := s.queue l }
    (s.upd (fun x => { x with shut := true, cuts := cut :: x.cuts }) l, [.inIo])

/-- `tm_io_resume_read`: a TLS io delivers what it has buffered before it returns. -/
def tmIoResumeRead (l : Leg) (s : Stream) : Stream × List (Op τ) :=
  if (s.side l).io = none then (s, []) else (s, [.inIo])

/-- `flush_pend` up to its loop. -/
def flushPend (l : Leg) (s : Stream) : Stream × List (Op τ) :=
  if (s.side l).flushing then (s, [])
  else (s.upd (fun x => { x with flushing := true }) l, [.flushLoop l])

/-- A chunk from leg `l` goes behind the queue of the other leg, and `l` is paused. -/
def queueBehind (l : Leg) (data : Bytes) (s : Stream) : Stream :=
  (s.upd (fun x => { x with pend := x.pend ++ data }) l.other).upd
    (fun x => { x with paused := true }) l

/-- The write of the read callbacks: everything queues behind a queue. -/
def relayWrite (l : Leg) (data : Bytes) (ans : Ans) (s : Stream) : Stream × List (Op τ) :=
  if (s.side l.other).pend ≠ [] then (queueBehind l data s, [])
  else
    match tmIoWrite l.other data ans s with
    | (.ok, s) => (s, [.inIo])
    | (.busy, s) => (queueBehind l data s, [])
    | (.err, s) => (tmStreamClose s, [])

/-- How much may wait for a leg that is not there yet. -/
def earlyMax : ℕ := tmIoHighWater + 65536

/-- A chunk from leg A while leg B is not there yet. -/
def queueEarly (data : Bytes) (s : Stream) : Stream :=
  if s.preq.length + data.length > earlyMax then tmStreamClose s
  else
    let s := { s with preq := s.preq ++ data }
    if s.preq.length ≥ tmIoHighWater then s.upd (fun x => { x with paused := true }) .a else s

/-- The most that `flush_pend` hands over at once. -/
def flushMax : ℕ := 65536

/-- Runs the innermost pending operation; `ans` is the io's answer if it writes, `tail` what the
relay's own continuations do. There is no result where the C code would use an io or a queue that
a nested callback has released. -/
def exec (tail : τ → Stream → Stream × List (Op τ)) (ans : Ans) (s : Stream) :
    Op τ → Option (Stream × List (Op τ))
  | .inIo => some (s, [])
  | .flushLoop l =>
    if (s.side l).pend = [] then some (s.upd (fun x => { x with flushing := false }) l, [])
    else if (s.side l).io = none then none
    else
      let n := min (s.side l).pend.length flushMax
      match tmIoWrite l ((s.side l).pend.take n) ans s with
      | (.ok, s) => some (s, [.inIo, .flushShift l n])
      | (.busy, s) => some (s.upd (fun x => { x with flushing := false }) l, [])
      | (.err, s) => some (s.upd (fun x => { x with pend := [], flushing := false }) l, [])
  | .flushShift l n =>
    if s.closing then none
    else some (s.upd (fun x => { x with pend := x.pend.drop n }) l, [.flushLoop l])
  | .tail k => some (tail k s)

/-- The innermost call goes on. -/
def Config.run (tail : τ → Stream → Stream × List (Op τ)) (ans : Ans) (c : Config τ) :
    Option (Config τ) :=
  match c.todo with
  | [] => none
  | op :: rest => (exec tail ans c.s op).map fun r => { s := r.1, todo := r.2 ++ rest }

end TunnelMate.Duplex
