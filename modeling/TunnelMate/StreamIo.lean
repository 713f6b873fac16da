import TunnelMate.Relay
import TunnelMate.TmIo
import Mathlib.Logic.Function.Basic

/-!
# A broker stream with its io objects

The relay of `relay.c` over the io objects of `io.c` and `tls.c`, on one call stack: the relay's
operations are those of `Relay`, and their calls into the io layer are answered by the state of the
leg they go to. The environment is what libuv and OpenSSL answer and which socket event comes next.

A TLS leg comes out of a read callback of its connection, whose read pump is still on the stack
below.
-/

namespace TunnelMate.StreamIo

open Duplex Relay
open Tls (Answers SslRead)
open TmIo (Cb Obj)

/-- A level of the call stack. -/
inductive Level
  /-- The relay. -/
  | op (o : Op Tail)
  /-- The io object of a leg. -/
  | io (l : Leg) (f : TmIo.Frame)
  /-- A callback of a leg that is about to be made. -/
  | cb (l : Leg) (k : Cb)
  deriving DecidableEq

structure Config where
  s : Stream
  io : Leg → Obj
  todo : List Level := []

/-- Legs that the relay closed are gone, legs that it paused are paused, and the relay sees which
legs are drained. -/
def Config.sync (c : Config) : Config :=
  let io := fun l =>
    if (c.s.side l).io = none then .gone
    else if (c.s.side l).paused then (c.io l).pauseRead else c.io l
  { c with
    io := io
    s := (c.s.upd (fun x => { x with drained := (io .a).drained }) .a).upd
      (fun x => { x with drained := (io .b).drained }) .b }

/-- What the io object of a leg did, above what is left to run. -/
def Config.enter (c : Config) (l : Leg) (r : TmIo.Res) (todo : List Level) : Config :=
  { c with
    io := Function.update c.io l r.io
    todo := (r.cb.toList.map (.cb l)) ++ r.frames.map (.io l) ++ todo }

/-- The relay did something without calling the io layer. -/
def Config.relay (c : Config) (r : Stream × List (Op Tail)) (todo : List Level) : Config :=
  { c with s := r.1, todo := r.2.map .op ++ todo }

/-- `relay_a_read`, `relay_b_read`: a chunk that does not queue is written to the other leg. -/
def read (l : Leg) (d : Bytes) (e : Answers) (c : Config) (todo : List Level) : Config :=
  let m := l.other
  if !c.s.closing && (c.s.side m).io.isSome && (c.s.side m).pend.isEmpty then
    let (ans, r) := (c.io m).write d.length e
    let c := c.relay (relayRead l d ans (c.s.noteRead l d)) todo
    c.enter m r c.todo
  else c.relay (relayRead l d .ok (c.s.noteRead l d)) todo

/-- A callback of leg `l`. -/
def callback (l : Leg) (e : Answers) (c : Config) (todo : List Level) : Cb → Config
  | .read d => read l d e c todo
  | .eof => c.relay (relayEof l c.s) todo
  | .error => c.relay (relayError l c.s) todo
  | .low => c.relay (relayLow l c.s) todo

/-- The call into the io layer that a continuation makes if it makes one. -/
def tailCall (k : Tail) (e : Answers) (io : Leg → Obj) : Leg × TmIo.Res :=
  match k with
  | .ended l => (l.other, (io l.other).shutdownSend e)
  | .low l => (l, (io l).shutdownSend e)
  | .lowResume l => (l.other, (io l.other).resumeRead)
  | .start | .maybeClose => (.a, (io .a).resumeRead)

/-- Runs an operation of the relay. -/
def runOp (o : Op Tail) (e : Answers) (c : Config) (todo : List Level) : Option Config :=
  match o with
  | .flushLoop l =>
    if (c.s.side l).pend ≠ [] ∧ (c.s.side l).io ≠ none then
      let (ans, r) := (c.io l).write (min (c.s.side l).pend.length flushMax) e
      (exec tail ans c.s o).map fun q =>
        let c := c.relay q todo
        c.enter l r c.todo
    else (exec tail .ok c.s o).map fun q => c.relay q todo
  | .tail k =>
    let q := tail k c.s
    let d := c.relay q todo
    -- the call is made where the continuation says that it waits inside the io layer
    if .inIo ∈ q.2 then
      let (l, r) := tailCall k e c.io
      some (d.enter l r d.todo)
    else some d
  | _ => (exec tail .ok c.s o).map fun q => c.relay q todo

/-- What a socket or `SSL_read` hands over at once: something, and at most a buffer. -/
def fits (d : Bytes) : Bool := !d.isEmpty && decide (d.length ≤ 65536)

/-- `SSL_read` hands over nothing after the end of the leg. -/
def fitsRead (s : Stream) (l : Leg) : SslRead → Bool
  | .data d _ _ => fits d && !(s.side l).eof
  | _ => true

/-- A raw socket may: `tm_stream_relay_start` makes a raw leg A over the socket of a peer whose TLS
io has failed, and leaves `a_eof` set. -/
def fitsEvent : TmIo.Event → Bool
  | .recv d => fits d
  | _ => true

/-- A TLS stream inside a read callback, as it becomes a leg. -/
def attachable (x : Tls.Stream) : Bool :=
  x.state == .opened && !x.isDtls && x.cbs == {} && x.readStarted && x.reading && !x.readPaused &&
    x.pumpingRead && !x.closeSent && !x.shutdownPending && decide (x.pqOff ≤ x.pqLen) &&
    (x.pqOff != x.pqLen || x.pqLen == 0) && decide (x.sslRetryLen ≤ x.pqLen - x.pqOff)

/-- What is left of the read callback a leg came out of. -/
def readRest (l : Leg) : List Level := [.io l (.tls .readLoop), .io l (.tls .readEnd)]

/-- No call of the relay is running. -/
def idle (todo : List Level) : Bool :=
  todo.all fun
    | .io _ _ => true
    | _ => false

inductive Label
  /-- An event of a leg's socket. -/
  | event (l : Leg) (ev : TmIo.Event) (e : Answers)
  /-- The innermost call goes on. -/
  | run (e : Answers) (r : SslRead)
  -- calls from the rest of the broker
  | ingest (l : Leg) (data : Bytes) (e : Answers)
  | attach (conn : Ref) (x : Tls.Stream)
  | bindTimer
  | close

/-- What a label does; a closed io has no callbacks left to make. -/
def act (c : Config) : Label → Option Config
  | .event l ev e =>
    if c.todo = [] ∧ (c.s.side l).io.isSome ∧ fitsEvent ev then
      ((c.io l).event ev e).map fun r => c.enter l r []
    else none
  | .run e r =>
    match c.todo with
    | [] => none
    | .cb l k :: todo =>
      if (c.s.side l).io.isSome then some (callback l e c todo k) else some { c with todo }
    | .io l f :: todo =>
      if (c.s.side l).io = none then some { c with todo }
      else if fitsRead c.s l r then some (c.enter l ((c.io l).exec e r f) todo)
      else none
    | .op o :: todo => runOp o e c todo
  -- `tm_stream_ingest_a` before the agent leg is there, `tm_stream_ingest` after: what the
  -- connection of a leg had read behind the frame that made it a leg comes first
  | .ingest l d e =>
    if idle c.todo ∧ (c.s.side l).io.isSome ∧ c.s.bound = (l == .b) ∧ c.s.closing = false ∧
        (c.s.side l).rd = [] ∧ d ≠ [] ∧ d.length ≤ 65536 then
      some (read l d e c c.todo)
    else none
  | .attach conn x =>
    if c.todo = [] ∧ c.s.closing = false ∧ c.s.bound = false ∧ attachable x then
      let ioA := if c.s.a.io = none then .tcp (TmIo.tcpStart {}) else c.io .a
      let r := tmStreamRelayAttachAgent (.ssl conn) c.s
      some { s := r.1, todo := r.2.map .op ++ readRest .b
             io := fun l => if l = .a then ioA else .tls x }
    else none
  | .bindTimer =>
    if c.todo = [] then some { c with s := if c.s.bound then c.s else tmStreamClose c.s } else none
  | .close => if c.todo = [] then some { c with s := tmStreamClose c.s } else none

def step (c : Config) (i : Label) : Option Config := (act c i).map .sync

/-- A stream as `tm_stream_create_open` or `tm_stream_create_closed` leaves it. -/
def Init (c : Config) : Prop :=
  c = { s := createdOpen, io := fun _ => .gone } ∨
  ∃ conn x, attachable x ∧
    c = Config.sync { s := createdClosed conn, todo := readRest .a
                      io := fun l => if l = .a then .tls x else .gone }

end TunnelMate.StreamIo
