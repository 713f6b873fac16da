import TunnelMate.Duplex
import TunnelMate.Lib.Trace

/-!
# The TLS stream

`tls.c`: plaintext waits in the queue `pq`, is encrypted into the write BIO and leaves it in one
write of the socket at a time; what the socket reads goes through `SSL_read` to the read callback.
Two routines close a stream, `finish_close` on an error and `tm_ssl_stream_close` for the owner.

The callbacks run the owner's code, which may call back into the stream. A function that makes a
callback as its last act returns it; what a caller still has to do after a callback is a `Frame` on
the call stack of the machine. OpenSSL and libuv are the environment: the labels say what they
answer.
-/

namespace TunnelMate.Tls

def tmSslWbufSize : ℕ := 65536
def tmPqHigh : ℕ := 256 * 1024
def tmPqLow : ℕ := 128 * 1024

inductive State
  | handshake | opened | closed
  deriving DecidableEq

/-- `TM_ERR_IO`, `TM_ERR_EOF`, `TM_ERR_TLS`. -/
inductive Err
  | io | eof | tls
  deriving DecidableEq

inductive Cb
  | handshake
  | read (data : Bytes)
  | eof
  | error (e : Err)
  | low

/-- Which callbacks are not NULL. -/
structure Cbs where
  handshake : Bool := true
  read : Bool := true
  eof : Bool := true
  error : Bool := true
  low : Bool := true
  deriving DecidableEq

/-- `tm_ssl_stream`; the queue is its two cursors and its capacity, the write BIO its length. -/
structure Stream where
  isDtls : Bool := false
  cbs : Cbs := {}
  state : State := .handshake
  readStarted : Bool := false
  closeSent : Bool := false
  shutdownPending : Bool := false
  inflight : Bool := false
  pqLen : ℕ := 0
  pqCap : ℕ := 0
  pqOff : ℕ := 0
  sslRetryLen : ℕ := 0
  wbio : ℕ := 0
  lastErr : Option Err := none
  aboveLow : Bool := false
  readPaused : Bool := false
  pumpingRead : Bool := false
  freePending : Bool := false
  freeing : Bool := false
  /-- libuv delivers what the socket receives. -/
  reading : Bool := false
  -- what happened so far: the owner closed the stream, how often the body of `do_free` ran, and
  -- for each `finish_close` that took effect whether a write was in flight
  closeCalled : Bool := false
  frees : ℕ := 0
  finishes : List Bool := []
  deriving DecidableEq

/-- An answer of `SSL_write`, with the bytes it leaves in the write BIO: a success leaves a record.
Partial writes are not enabled, so a success takes the whole chunk. -/
inductive SslWrite
  | ok (more : ℕ)
  | want (out : ℕ)
  | zeroReturn
  | fail

/-- An answer of `SSL_read`; `init` is `SSL_is_init_finished`, `out` what it leaves in the write
BIO. -/
inductive SslRead
  | data (d : Bytes) (init : Bool) (out : ℕ)
  | zero
  | wantRead (init : Bool) (out : ℕ)
  | wantWrite (out : ℕ)
  | zeroReturn
  | fail

/-- An answer of `SSL_accept` or `SSL_connect`. -/
inductive Handshake
  | done (init : Bool) (out : ℕ)
  | want (out : ℕ)
  | fail

/-- What the environment answers to the calls of one step. -/
structure Answers where
  /-- `uv_write` or `uv_udp_send` takes the chunk. -/
  uv : Bool := true
  /-- The size of the datagram at the head of a DTLS write BIO. -/
  dgram : ℕ := 0
  writes : List SslWrite := []
  /-- The bytes `SSL_shutdown` leaves in the write BIO. -/
  shut : ℕ := 0

/-- What is left of a call after a callback. -/
inductive Frame
  /-- The loop of `pump_read_impl`. -/
  | readLoop
  /-- The loop after `promote_open`, with the chunk still to deliver. -/
  | deliver (d : Bytes)
  /-- The handshake flight to flush after `promote_open`. -/
  | flushFlight
  /-- `pump_read` after `pump_read_impl`. -/
  | readEnd
  /-- `on_write_done` after `pump_write`. -/
  | writeDone
  deriving DecidableEq

def finishClose (s : Stream) : Stream × Option Cb :=
  if s.state = .closed then (s, none)
  else
    let s := { s with state := .closed, finishes := s.inflight :: s.finishes }
    if s.cbs.error then
      ({ s with cbs := { s.cbs with read := false, eof := false, error := false } },
        some (.error (s.lastErr.getD .io)))
    else (s, none)

def doFree (s : Stream) : Stream :=
  if s.freeing then s else { s with freeing := true, frees := s.frees + 1 }

/-- How much `SSL_write` is handed: the pinned length of a retry, else at most one record. -/
def writeLen (s : Stream) : ℕ :=
  if s.sslRetryLen ≠ 0 then s.sslRetryLen else min (s.pqLen - s.pqOff) 16384

/-- The bytes one `BIO_read` takes from a write BIO that is not empty. -/
def bioRead (e : Answers) (s : Stream) : ℕ :=
  if s.isDtls then max 1 (min e.dgram s.wbio) else min s.wbio tmSslWbufSize

/-- The turn of `pump_write`'s loop that finds bytes in the write BIO. -/
def sendChunk (e : Answers) (s : Stream) : Stream × Option Cb :=
  let s := { s with wbio := s.wbio - bioRead e s }
  if e.uv then ({ s with inflight := true }, none)
  else finishClose { s with lastErr := some .io }

def pumpWrite (e : Answers) (s : Stream) : Stream × Option Cb :=
  if s.state = .closed ∨ s.inflight = true then (s, none)
  else if s.wbio ≠ 0 then sendChunk e s
  else if s.pqOff = s.pqLen then
    let s := { s with pqLen := 0, pqOff := 0 }
    if s.aboveLow then ({ s with aboveLow := false }, if s.cbs.low then some .low else none)
    else (s, none)
  else
    match e.writes.headD (.want 0) with
    | .ok more =>
      let off := s.pqOff + writeLen s
      let s := { s with sslRetryLen := 0, wbio := more + 1,
                        pqOff := if off = s.pqLen then 0 else off,
                        pqLen := if off = s.pqLen then 0 else s.pqLen }
      -- the loop goes on and finds the record
      sendChunk e s
    | .want out => ({ s with sslRetryLen := writeLen s, wbio := s.wbio + out }, none)
    | .zeroReturn => finishClose { s with lastErr := some .eof }
    | .fail => finishClose { s with lastErr := some .tls }

def tmSslStreamDrained (s : Stream) : Bool := s.pqOff == s.pqLen && !s.inflight

/-- `tls_try_shutdown`; its loop takes one answer of `SSL_write` per turn. -/
def tlsTryShutdown (e : Answers) : List SslWrite → Stream → Stream × Option Cb
  | ws, s =>
    if s.pqOff < s.pqLen ∧ s.state = .opened then
      match ws with
      | [] => pumpWrite { e with writes := [] } { s with sslRetryLen := writeLen s }
      | .ok more :: ws =>
        tlsTryShutdown e ws { s with sslRetryLen := 0, pqOff := s.pqOff + writeLen s,
                                     wbio := s.wbio + more + 1 }
      | .want out :: ws =>
        pumpWrite { e with writes := ws }
          { s with sslRetryLen := writeLen s, wbio := s.wbio + out }
      | .zeroReturn :: _ => finishClose { s with lastErr := some .eof }
      | .fail :: _ => finishClose { s with lastErr := some .tls }
    else if s.state ≠ .opened then (s, none)
    else
      pumpWrite { e with writes := ws }
        { s with pqLen := 0, pqOff := 0, sslRetryLen := 0, shutdownPending := false,
                 wbio := s.wbio + e.shut }

/-- The doubling of the capacity; a `size_t` doubles at most 64 times. -/
def growCap (need : ℕ) : ℕ → ℕ → ℕ
  | 0, cap => cap
  | k + 1, cap => if cap < need then growCap need k (cap * 2) else cap

/-- The queue with `len` more bytes: a queue that must grow moves its bytes to the front. -/
def pqAppend (len : ℕ) (s : Stream) : Stream :=
  if s.pqLen + len > s.pqCap then
    { s with pqCap := growCap (s.pqLen + len) 64 (if s.pqCap ≠ 0 then s.pqCap * 2 else 16384),
             pqLen := s.pqLen - s.pqOff + len, pqOff := 0 }
  else { s with pqLen := s.pqLen + len }

def tmSslStreamWrite (len : ℕ) (e : Answers) (s : Stream) : Duplex.Ans × Stream × Option Cb :=
  if s.state ≠ .opened ∨ s.closeSent = true then (.err, s, none)
  else if s.pqLen + len > tmPqHigh then (.busy, { s with aboveLow := true }, none)
  else
    let s := { s with aboveLow := s.aboveLow || decide (s.pqLen + len > tmPqLow) }
    (.ok, pumpWrite e (pqAppend len s))

/-- `promote_open`. -/
def promoteOpen (s : Stream) : Stream × Option Cb :=
  ({ s with state := .opened }, if s.cbs.handshake then some .handshake else none)

/-- `pump_read` up to the loop of `pump_read_impl`. -/
def pumpRead (s : Stream) : Stream × List Frame :=
  if s.pumpingRead then (s, [])
  else
    ({ s with pumpingRead := true },
      if s.state = .closed then [.readEnd] else [.readLoop, .readEnd])

/-- What a call leads to: the stream, the callback that is made next, and what is left to run when
it returns. -/
structure Res where
  s : Stream
  cb : Option Cb := none
  frames : List Frame := []

/-- A function that ends with its callback. -/
def Res.last (r : Stream × Option Cb) : Res := { s := r.1, cb := r.2 }

/-- The read callback with a chunk, and the loop again. -/
def handOver (d : Bytes) (s : Stream) : Res :=
  { s := s, cb := if s.cbs.read then some (.read d) else none, frames := [.readLoop] }

/-- One turn of the loop of `pump_read_impl`. -/
def readTurn (e : Answers) (r : SslRead) (s : Stream) : Res :=
  if s.readPaused then { s := s }
  else
    match r with
    | .data d init out =>
      let s := { s with wbio := s.wbio + out }
      if s.state = .handshake ∧ init = true then
        { Res.last (promoteOpen s) with frames := [.deliver d] }
      else handOver d s
    | .zero =>
      if s.state = .handshake then .last (finishClose { s with lastErr := some .eof })
      else { s := s, cb := if s.cbs.eof then some .eof else none }
    | .wantRead init out =>
      let s := { s with wbio := s.wbio + out }
      if s.state = .handshake then
        if init then { Res.last (promoteOpen s) with frames := [.flushFlight] }
        else .last (pumpWrite e s)
      else { s := s }
    | .wantWrite out => .last (pumpWrite e { s with wbio := s.wbio + out })
    | .zeroReturn => { s := s, cb := if s.cbs.eof then some .eof else none }
    | .fail => .last (finishClose { s with lastErr := some .tls })

/-- Goes on after a callback; `r` is the answer if that calls `SSL_read`. -/
def exec (e : Answers) (r : SslRead) (s : Stream) : Frame → Res
  | .readLoop => readTurn e r s
  | .deliver d => if s.state = .closed then { s := s } else handOver d s
  | .flushFlight => if s.state = .closed then { s := s } else .last (pumpWrite e s)
  | .readEnd =>
    let s := { s with pumpingRead := false }
    { s := if s.freePending && !s.inflight then doFree s else s }
  | .writeDone =>
    if s.shutdownPending = true ∧ s.state = .opened then .last (tlsTryShutdown e e.writes s)
    else { s := s }

/-- The status of a write that completed. -/
inductive Status
  | ok | cancelled | error
  deriving DecidableEq

def onWriteDone (st : Status) (e : Answers) (s : Stream) : Res :=
  let s := { s with inflight := false }
  if s.state = .closed then { s := doFree s }
  else if st = .error then .last (finishClose { s with lastErr := some .io })
  else { Res.last (pumpWrite e s) with frames := [.writeDone] }

/-- What `on_read` or `on_udp_recv` is called with. -/
inductive Nread
  | bytes | eof | error
  deriving DecidableEq

def onRead (n : Nread) (s : Stream) : Res :=
  match n with
  | .bytes => { s := (pumpRead s).1, frames := (pumpRead s).2 }
  | .eof => { s := s, cb := if s.cbs.eof then some .eof else none }
  | .error => .last (finishClose { s with lastErr := some .io })

/-- `dtls_timer_cb` when the timeout has run out; the retransmission leaves `out` bytes. -/
def dtlsTimerCb (out : ℕ) (e : Answers) (s : Stream) : Res :=
  if s.state = .closed then { s := s } else .last (pumpWrite e { s with wbio := s.wbio + out })

def tmSslStreamHandshake (h : Handshake) (e : Answers) (s : Stream) : Res :=
  match h with
  | .done init out =>
    let s := { s with wbio := s.wbio + out }
    if init then .last (promoteOpen s) else .last (pumpWrite e s)
  | .want out => .last (pumpWrite e { s with wbio := s.wbio + out })
  | .fail => .last (finishClose { s with lastErr := some .tls })

def tmSslStreamStart (s : Stream) : Stream :=
  if s.readStarted then s else { s with readStarted := true, reading := true }

def tmSslStreamShutdownSend (e : Answers) (s : Stream) : Stream × Option Cb :=
  if s.state ≠ .opened ∨ s.closeSent = true then (s, none)
  else tlsTryShutdown e e.writes { s with closeSent := true, shutdownPending := true }

def tmSslStreamPauseRead (s : Stream) : Stream :=
  let s := { s with readPaused := true }
  if !s.readStarted || s.state = .closed then s else { s with reading := false }

def tmSslStreamResumeRead (s : Stream) : Res :=
  if !s.readPaused then { s := s }
  else
    let s := { s with readPaused := false }
    if !s.readStarted || s.state = .closed then { s := s }
    else
      let s := { s with reading := true }
      { s := (pumpRead s).1, frames := (pumpRead s).2 }

def tmSslStreamClose (s : Stream) : Stream :=
  let s := { s with closeCalled := true }
  if s.state = .closed then s
  else
    let s := { s with state := .closed, reading := if s.readStarted then false else s.reading,
                      cbs := { s.cbs with handshake := false, read := false, eof := false,
                                          error := false } }
    if s.inflight || s.pumpingRead then { s with freePending := true } else doFree s

/-! ## The machine -/

/-- A call of the owner. -/
inductive Call
  | write (len : ℕ)
  | shutdownSend
  | pauseRead
  | resumeRead
  | start
  | handshake (h : Handshake)
  | close

def call (e : Answers) (s : Stream) : Call → Res
  | .write len => .last (tmSslStreamWrite len e s).2
  | .shutdownSend => .last (tmSslStreamShutdownSend e s)
  | .pauseRead => { s := tmSslStreamPauseRead s }
  | .resumeRead => tmSslStreamResumeRead s
  | .start => { s := tmSslStreamStart s }
  | .handshake h => tmSslStreamHandshake h e s
  | .close => { s := tmSslStreamClose s }

/-- A level of the call stack: code of `tls.c`, or the owner's inside a callback. -/
inductive Level
  | frame (f : Frame)
  | owner
  deriving DecidableEq

structure Config where
  s : Stream
  todo : List Level := []

/-- Enters the callback of a result above what is left to run. -/
def Config.enter (todo : List Level) (r : Res) : Config :=
  { s := r.s, todo := (if r.cb.isSome then [.owner] else []) ++ r.frames.map .frame ++ todo }

inductive Label
  /-- The owner calls, from the event loop or from inside a callback. -/
  | call (c : Call) (e : Answers)
  /-- The owner returns from a callback. -/
  | ret
  /-- The innermost call of `tls.c` goes on. -/
  | run (e : Answers) (r : SslRead)
  | writeDone (st : Status) (e : Answers)
  | read (n : Nread)
  | dtlsTimer (out : ℕ) (e : Answers)

/-- What the owner may call: nothing on a released stream, and the handshake only until it ends. -/
def mayCall (s : Stream) : Call → Bool
  | .handshake _ => !s.freeing && s.state == .handshake
  | _ => !s.freeing

def step (c : Config) : Label → Option Config
  | .call k e =>
    if (c.todo.head?.getD .owner) = .owner ∧ mayCall c.s k = true then
      some (.enter c.todo (call e c.s k))
    else none
  | .ret =>
    match c.todo with
    | .owner :: rest => some { c with todo := rest }
    | _ => none
  | .run e r =>
    match c.todo with
    | .frame f :: rest => some (.enter rest (exec e r c.s f))
    | _ => none
  | .writeDone st e =>
    if c.todo = [] ∧ c.s.inflight = true then some (.enter [] (onWriteDone st e c.s)) else none
  | .read n =>
    if c.todo = [] ∧ c.s.reading = true ∧ c.s.freeing = false ∧ (n = .eof → c.s.isDtls = false) then
      some (.enter [] (onRead n c.s))
    else none
  | .dtlsTimer out e =>
    if c.todo = [] ∧ c.s.isDtls = true ∧ c.s.freeing = false then
      some (.enter [] (dtlsTimerCb out e c.s))
    else none

/-- `tm_ssl_stream_new`, `tm_dtls_stream_new`. -/
def Init (c : Config) : Prop := ∃ dtls cbs, c = { s := { isDtls := dtls, cbs := cbs } }

end TunnelMate.Tls
