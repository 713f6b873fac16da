import TunnelMate.Tls

/-!
# The io objects

`io.c`: the raw TCP io with its write buffer, and the dispatch of the `tm_io` calls to it or to a
TLS stream. As in the TLS stream, a function returns the callback it makes last, and what is left
to run after a callback is a frame. The owner sets every callback but `ready_cb`, and drops an io
the moment it closes it, so a closed io makes no callback: `gone` stands for NULL.
-/

namespace TunnelMate.TmIo

open Duplex (Ans)
open Tls (Answers SslRead Status)

inductive Cb
  | read (data : Bytes)
  | eof
  | error
  | low
  deriving DecidableEq

/-- What is left of a call after a callback. -/
inductive Frame
  | tls (f : Tls.Frame)
  /-- `tcp_write_done` after `tcp_maybe_low`. -/
  | tcpPump
  /-- `tcp_pump` after `tcp_maybe_low`. -/
  | tcpFin
  deriving DecidableEq

/-! ## Raw TCP -/

/-- `tm_io_tcp`; the write buffer is its two cursors and its capacity. -/
structure Tcp where
  reading : Bool := false
  writeClosed : Bool := false
  wbLen : ℕ := 0
  wbCap : ℕ := 0
  wbOff : ℕ := 0
  inFlight : ℕ := 0
  wreqPending : Bool := false
  finSent : Bool := false
  /-- libuv delivers what the socket receives. -/
  active : Bool := false
  deriving DecidableEq

/-- The book-keeping at the head of `tcp_write_done`. -/
def tcpAck (t : Tcp) : Tcp :=
  let off := t.wbOff + t.inFlight
  { t with wreqPending := false, inFlight := 0,
           wbOff := if off = t.wbLen then 0 else off,
           wbLen := if off = t.wbLen then 0 else t.wbLen }

/-- `tcp_pump`; `uv` says whether `uv_write` takes the buffer. A refusal is a failed completion. -/
def tcpPump (uv : Bool) (t : Tcp) : Tcp × Option Cb × List Frame :=
  if t.wreqPending then (t, none, [])
  else if t.wbOff = t.wbLen then ({ t with wbLen := 0, wbOff := 0 }, some .low, [.tcpFin])
  else if t.writeClosed && t.finSent then (t, none, [])
  else
    let t := { t with inFlight := t.wbLen - t.wbOff }
    if uv then ({ t with wreqPending := true }, none, []) else (tcpAck t, some .error, [])

def tcpWriteDone (st : Status) (uv : Bool) (t : Tcp) : Tcp × Option Cb × List Frame :=
  let t := tcpAck t
  if st = .error then (t, some .error, [])
  else if t.wbLen = 0 then (t, some .low, [.tcpPump])
  else tcpPump uv t

/-- `tcp_pump` after its `tcp_maybe_low`. -/
def tcpFin (t : Tcp) : Tcp :=
  if t.writeClosed && t.wbLen == 0 then { t with finSent := true } else t

/-- The write buffer with `len` more bytes. -/
def wbAppend (len : ℕ) (t : Tcp) : Tcp :=
  if t.wbLen + len > t.wbCap then
    let used := t.wbLen - t.wbOff
    { t with wbOff := 0, wbLen := used + len,
             wbCap := Tls.growCap (used + len) 64 (if t.wbCap ≠ 0 then t.wbCap * 2 else 65536) }
  else { t with wbLen := t.wbLen + len }

def tcpWrite (len : ℕ) (uv : Bool) (t : Tcp) : Ans × Tcp × Option Cb :=
  if t.writeClosed then (.err, t, none)
  else if t.wbLen + len > tmIoHighWater then (.busy, t, none)
  -- the write in flight reads out of the buffer, which must not move
  else if t.wbLen + len > t.wbCap ∧ t.wreqPending = true then (.busy, t, none)
  else
    let r := tcpPump uv (wbAppend len t)
    (.ok, r.1, r.2.1)

def tcpShutdownSend (t : Tcp) : Tcp :=
  if t.writeClosed then t
  else
    let t := { t with writeClosed := true }
    if t.wreqPending || t.wbLen ≠ 0 then t else { t with finSent := true }

def tcpStart (t : Tcp) : Tcp := if t.reading then t else { t with reading := true, active := true }

def tcpPauseRead (t : Tcp) : Tcp := if t.reading then { t with active := false } else t

def tcpResumeRead (t : Tcp) : Tcp := if t.reading then { t with active := true } else t

def tcpDrained (t : Tcp) : Bool := !t.wreqPending && t.wbLen - t.wbOff == 0

/-! ## Dispatch -/

inductive Obj
  | gone
  | tcp (t : Tcp)
  | tls (x : Tls.Stream)
  deriving DecidableEq

/-- A callback of the TLS stream as the owner of the io sees it; nobody listens to `ready_cb`. -/
def Cb.ofTls : Tls.Cb → Option Cb
  | .handshake => none
  | .read d => some (.read d)
  | .eof => some .eof
  | .error _ => some .error
  | .low => some .low

structure Res where
  io : Obj
  cb : Option Cb := none
  frames : List Frame := []
  deriving DecidableEq

def Res.ofTls (r : Tls.Res) : Res :=
  { io := .tls r.s, cb := r.cb.bind Cb.ofTls, frames := r.frames.map .tls }

def Res.ofTcp (r : Tcp × Option Cb × List Frame) : Res :=
  { io := .tcp r.1, cb := r.2.1, frames := r.2.2 }

/-- `tm_io_write`. -/
def Obj.write (len : ℕ) (e : Answers) : Obj → Ans × Res
  | .gone => (.err, { io := .gone })
  | .tcp t =>
    let (ans, t, cb) := tcpWrite len e.uv t
    (ans, { io := .tcp t, cb := cb })
  | .tls x =>
    let (ans, r) := Tls.tmSslStreamWrite len e x
    (ans, .ofTls (.last r))

/-- `tm_io_shutdown_send`. -/
def Obj.shutdownSend (e : Answers) : Obj → Res
  | .gone => { io := .gone }
  | .tcp t => { io := .tcp (tcpShutdownSend t) }
  | .tls x => .ofTls (.last (Tls.tmSslStreamShutdownSend e x))

/-- `tm_io_pause_read`. -/
def Obj.pauseRead : Obj → Obj
  | .gone => .gone
  | .tcp t => .tcp (tcpPauseRead t)
  | .tls x => .tls (Tls.tmSslStreamPauseRead x)

/-- `tm_io_resume_read`. -/
def Obj.resumeRead : Obj → Res
  | .gone => { io := .gone }
  | .tcp t => { io := .tcp (tcpResumeRead t) }
  | .tls x => .ofTls (Tls.tmSslStreamResumeRead x)

/-- `tm_io_drained`. -/
def Obj.drained : Obj → Bool
  | .gone => true
  | .tcp t => tcpDrained t
  | .tls x => Tls.tmSslStreamDrained x

/-- Goes on after a callback; there is none of TCP's frames on a TLS stream's stack. -/
def Obj.exec (e : Answers) (r : SslRead) : Obj → Frame → Res
  | .tls x, .tls f => .ofTls (Tls.exec e r x f)
  | .tcp t, .tcpPump => .ofTcp (tcpPump e.uv t)
  | .tcp t, .tcpFin => { io := .tcp (tcpFin t) }
  | x, _ => { io := x }

/-- What the event loop reports for a socket. -/
inductive Event
  | writeDone (st : Status)
  | recv (data : Bytes)
  | eof
  | error

/-- `tcp_write_done` and `tcp_read_cb`, or `on_write_done` and `on_read`. -/
def Obj.event (ev : Event) (e : Answers) : Obj → Option Res
  | .gone => none
  | .tcp t =>
    match ev with
    | .writeDone st => if t.wreqPending then some (.ofTcp (tcpWriteDone st e.uv t)) else none
    | .recv d => if t.active then some { io := .tcp t, cb := some (.read d) } else none
    | .eof => if t.active then some { io := .tcp t, cb := some .eof } else none
    | .error => if t.active then some { io := .tcp t, cb := some .error } else none
  | .tls x =>
    match ev with
    | .writeDone st => if x.inflight then some (.ofTls (Tls.onWriteDone st e x)) else none
    | .recv _ => if x.reading then some (.ofTls (Tls.onRead .bytes x)) else none
    | .eof => if x.reading then some (.ofTls (Tls.onRead .eof x)) else none
    | .error => if x.reading then some (.ofTls (Tls.onRead .error x)) else none

end TunnelMate.TmIo
