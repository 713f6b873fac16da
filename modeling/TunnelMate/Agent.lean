import TunnelMate.AgentRelay
import TunnelMate.Lib.Table
import TunnelMate.Reader

/-!
# The agent

The agent's `tcp.c` and `control.c`. On the control connection the broker asks for streams; for each
the agent opens a data connection, waits for DATA_BIND_OK on it, connects to the local service and
hands both over to the relay (`AgentRelay`). Losing the control connection ends every stream.

A handle is active from `uv_tcp_init` or `uv_timer_init` on, closing from `uv_close` on, and closed
when the callback of `uv_close` has run. The calls of `init` are kept with the state it was in.

Which timer fires when, what a name resolves to and what libuv and OpenSSL answer is given by the
labels. The UDP part is `AgentUdp`.
-/

namespace TunnelMate.Agent

open Duplex (Ans Config tmStreamClose)
open AgentRelay (Tail relayBrokerRead relayBrokerEof)

inductive Handle
  | unset | active | closing | closed
  deriving DecidableEq

/-- The handles of a stream. -/
inductive Which
  | connectTimer | localSock | brokerSock
  deriving DecidableEq

/-- `tm_astream`. -/
structure AStream where
  ref : Ref
  sid : ℕ
  connectTimer : Handle := .unset
  localSock : Handle := .unset
  brokerSock : Handle := .unset
  closingRefs : ℕ := 0
  fr : Bytes := []
  /-- The data connection calls the relay: DATA_BIND_OK has been read. -/
  raw : Bool := false
  /-- The connect of `broker_sock` has not been answered. -/
  brokerReq : Bool := false
  relay : Config Tail := { s := {} }
  -- what happened so far: the bytes the data connection has delivered, the frames sent on it, and
  -- the calls of `init`
  inp : Bytes := []
  out : List Frame := []
  inits : List (Which × Handle) := []

instance : Keyed AStream := ⟨AStream.ref⟩

/-- The answers to `tm_tcp_connect`: of `tm_addr_parse` and of `uv_tcp_connect`. -/
structure ConnectAns where
  resolves : Bool := true
  uv : Bool := true

/-- The answers of `SSL_new` and `tm_tls_configure_client_ssl`. -/
structure SslAns where
  sslNew : Bool := true
  configured : Bool := true

/-! ## Streams -/

namespace AStream

def handle (st : AStream) : Which → Handle
  | .connectTimer => st.connectTimer
  | .localSock => st.localSock
  | .brokerSock => st.brokerSock

def setHandle (w : Which) (h : Handle) (st : AStream) : AStream :=
  match w with
  | .connectTimer => { st with connectTimer := h }
  | .localSock => { st with localSock := h }
  | .brokerSock => { st with brokerSock := h }

/-- `uv_tcp_init`, `uv_timer_init`. -/
def uvInit (w : Which) (st : AStream) : AStream :=
  { st.setHandle w .active with inits := (w, st.handle w) :: st.inits }

/-- `tm_tcp_connect` up to its answer. -/
def tmTcpConnect (w : Which) (ans : ConnectAns) (st : AStream) : Bool × AStream :=
  if !ans.resolves then (false, st) else (ans.uv, st.uvInit w)

/-- What `tm_astream_close` does besides closing the two io objects. -/
def release (st : AStream) : AStream :=
  { st with
    fr := []
    closingRefs := 3
    brokerSock := .closing, localSock := .closing, connectTimer := .closing }

def close (st : AStream) : AStream :=
  if st.relay.s.closing then st
  else release { st with relay := { st.relay with s := tmStreamClose st.relay.s } }

/-- The relay has gone on to `c`, and may have closed the stream in doing so. -/
def relayed (c : Config Tail) (st : AStream) : AStream :=
  if c.s.closing && !st.relay.s.closing then release { st with relay := c }
  else { st with relay := c }

/-- `tm_astream_open` up to `SSL_new`. -/
def new (r : Ref) (sid : ℕ) : AStream :=
  (({ ref := r, sid := sid : AStream }.uvInit .connectTimer).uvInit .localSock).uvInit .brokerSock

/-- The rest of it: the data connection is on its way, or the stream closed. -/
def setUp (ssl : SslAns) (ans : ConnectAns) (st : AStream) : AStream :=
  if !ssl.sslNew then st.close
  else if !ssl.configured then st.close
  else
    let st := { st with relay := { st.relay with s.a.io := some (.ssl 0) } }
    let (ok, st) := st.tmTcpConnect .brokerSock ans
    if !ok then st.close else { st with brokerReq := true }

/-- The data connection goes over to the relay, which gets what the reader still holds. -/
def handOver (st : AStream) : AStream :=
  { st with
    fr := [], raw := true
    relay := { st.relay with s := { st.relay.s.noteRead .a st.fr with preq := st.fr } } }

/-- `data_conn_pre_read` at DATA_BIND_OK; the flag says that the local connect has failed. -/
def bindOk (ans : ConnectAns) (st : AStream) : AStream × Bool :=
  let (ok, st) := (st.handOver.uvInit .localSock).tmTcpConnect .localSock ans
  (st, !ok)

/-- The loop of `data_conn_pre_read`. -/
def preLoop (ans : ConnectAns) : ℕ → Fed → AStream → AStream × Bool
  | _, .none, st => (st, false)
  | _, .errored, st => (st.close, false)
  | 0, .frame _, st => (st, false)
  | n + 1, .frame f, st =>
    if f.type = .dataBindOk ∧ f.streamId = st.sid then st.bindOk ans
    else if f.type = .dataBindError ∨ f.type = .dataBind then (st.close, false)
    else
      let (fr, fed) := tmFrameReaderFeed st.fr []
      preLoop ans n fed { st with fr := fr }

def dataConnPreRead (data : Bytes) (w : Ans) (ans : ConnectAns) (st : AStream) : AStream × Bool :=
  let st := { st with inp := st.inp ++ data }
  if st.relay.s.bound then
    (st.relayed (st.relay.push (relayBrokerRead data w (st.relay.s.noteRead .a data))), false)
  else
    let (fr, fed) := tmFrameReaderFeed st.fr data
    preLoop ans (fr.length + 1) fed { st with fr := fr }

def dataConnReady (secret : Bytes) (w : Ans) (st : AStream) : AStream :=
  if w = .ok then { st with out := ⟨.dataBind, st.sid, secret⟩ :: st.out } else st.close

def dataConnEof (st : AStream) : AStream :=
  if !st.relay.s.bound then st.close else st.relayed (st.relay.push (relayBrokerEof st.relay.s))

end AStream

/-- What happens to a stream. -/
inductive StreamEvent
  /-- `data_conn_connected`. -/
  | connected (ok : Bool)
  | ready (w : Ans)
  | preRead (data : Bytes) (w : Ans) (ans : ConnectAns)
  | preEof
  | relay (l : AgentRelay.Label)

/-- The callbacks of the relay that are there from the start, and what may go on inside them. -/
def early : AgentRelay.Label → Bool
  | .low .a | .error .a | .run _ | .drain _ _ => true
  | _ => false

/-- The data connection delivers bytes to the relay. -/
def delivered : AgentRelay.Label → Bytes
  | .read .a data _ => data
  | _ => []

/-- The event at the stream; with it the text for OPEN_STREAM_ERROR, if one is sent and the stream
closed after it. -/
def AStream.event (secret : Bytes) (ev : StreamEvent) (st : AStream) :
    Option (AStream × Option String) :=
  let framed := !st.raw && st.relay.s.a.io.isSome && st.relay.todo.isEmpty
  match ev with
  | .connected ok =>
    if !st.brokerReq then none
    else
      let st := { st with brokerReq := false }
      if st.relay.s.closing || ok then some (st, none) else some (st, some "broker connect failed")
  | .ready w => if framed then some (st.dataConnReady secret w, none) else none
  | .preRead data w ans =>
    if framed then
      let (st, failed) := st.dataConnPreRead data w ans
      some (st, if failed then some "local connect failed" else none)
    else none
  | .preEof => if framed then some (st.dataConnEof, none) else none
  | .relay l =>
    if !(st.raw || early l) || l = .close then none
    else
      (AgentRelay.step st.relay l).map fun c =>
        if l = .connect false && !st.relay.s.closing then (st, some "local connect failed")
        else if l = .connectTimer && !st.relay.s.closing && !st.relay.s.bound then
          (st, some "local connect timeout")
        else ({ st.relayed c with inp := st.inp ++ delivered l }, none)

/-! ## The control connection -/

/-- What `control.c` and `tcp.c` read of `tm_agent_cfg`, with its defaults. -/
structure Cfg where
  tunnelId : Bytes
  agentSecret : Bytes
  heartbeatIntervalMs : ℕ := 5000
  idleTimeoutMs : ℕ := 30000
  reconnectDelayMs : ℕ := 1000
  reconnectMaxDelayMs : ℕ := 30000

/-- A frame the agent writes to the control connection. -/
structure Out where
  type : MsgType
  streamId : ℕ := 0
  payload : Bytes := []
  msg : String := ""

/-- The TCP part of `tm_agent_app`. -/
structure App where
  ctlSock : Handle := .unset
  /-- The connect of `ctl_sock` has not been answered. -/
  ctlReq : Bool := false
  ctlSsl : Bool := false
  ctlIo : Bool := false
  ctlFr : Bytes := []
  hbTimer : Bool := false
  hsTimer : Bool := false
  connected : Bool := false
  connecting : Bool := false
  gotHello : Bool := false
  registered : Bool := false
  lastRxMs : ℕ := 0
  lastPingMs : ℕ := 0
  reconnectTimer : Bool := false
  reconnectDelayMs : ℕ := 0
  streams : List AStream := []
  streamCount : ℕ := 0
  shuttingDown : Bool := false
  nextRef : Ref := 0
  /-- The records that are unlinked and wait for their close callbacks. -/
  dying : List AStream := []
  /-- What `uv_hrtime` is going to answer. -/
  samples : List ℕ := []
  -- what happened so far: the records that were freed, the states `ctl_sock` was initialised in,
  -- the delays the reconnect timer was started with, and the frames sent
  freed : List AStream := []
  ctlInits : List Handle := []
  armed : List ℕ := []
  sent : List Out := []

namespace App

/-- Every record that was ever made. -/
def records (a : App) : List AStream := a.streams ++ a.dying ++ a.freed

def find (r : Ref) (a : App) : Option AStream := Table.get r (a.streams ++ a.dying)

/-- `tm_astream_find`. -/
def tmAstreamFind (sid : ℕ) (a : App) : Option AStream := a.streams.find? (·.sid = sid)

/-- `astream_unlink` of a stream that now is `st`. -/
def retire (st : AStream) (a : App) : App :=
  { a with
    streams := Table.del st.ref a.streams
    streamCount := a.streamCount - 1
    dying := st :: a.dying }

/-- The record of `st` changes to it; a stream that has been closed is unlinked. -/
def put (st : AStream) (a : App) : App :=
  if (Table.get st.ref a.streams).isSome then
    if st.relay.s.closing then a.retire st
    else { a with streams := Table.upd st.ref (fun _ => st) a.streams }
  else { a with dying := Table.upd st.ref (fun _ => st) a.dying }

/-- `tm_astream_close`. -/
def tmAstreamClose (r : Ref) (a : App) : App :=
  match Table.get r a.streams with
  | none => a
  | some st => if st.relay.s.closing then a else a.put st.close

/-- The loop over `a->streams` that closes every stream. -/
def closeAll (a : App) : App :=
  (a.streams.map AStream.ref).foldl (fun a r => a.tmAstreamClose r) a

/-- `uv_close` unless `uv_is_closing`. -/
def closeCtlSock (a : App) : App :=
  match a.ctlSock with
  | .closing | .closed => a
  | .unset | .active => { a with ctlSock := .closing }

/-- `reconnect_with_jitter`, at the clock `sample`. -/
def reconnectWithJitter (delay sample : ℕ) : ℕ :=
  let spread := delay / 5
  if spread = 0 then delay else (delay - spread + sample % (spread * 2 + 1)) % 2 ^ 64

/-- `uv_timer_start` of the reconnect timer. -/
def armReconnect (a : App) : App :=
  { a with
    reconnectTimer := true
    armed := reconnectWithJitter a.reconnectDelayMs (a.samples.headD 0) :: a.armed
    samples := a.samples.tail }

section

variable (cfg : Cfg)

/-- The end of `tm_agent_disconnect`. -/
def retryLater (a : App) : App :=
  if a.shuttingDown then a
  else
    armReconnect
      { a with reconnectDelayMs := min (a.reconnectDelayMs * 2) cfg.reconnectMaxDelayMs }

def tmAgentDisconnect (a : App) : App :=
  if !a.connecting && !a.connected && !a.registered then a
  else
    let b := { a.closeCtlSock with
      ctlIo := false, ctlSsl := false, ctlFr := [], hbTimer := false, hsTimer := false
      connected := false, connecting := false, registered := false, gotHello := false }
    retryLater cfg (if a.registered then b.closeAll else b)

/-- `ok` says whether the control connection takes the frame. -/
def tmAgentSendFrame (f : Out) (ok : Bool) (a : App) : App :=
  if !a.ctlIo then a
  else if !ok then a.tmAgentDisconnect cfg
  else { a with sent := f :: a.sent }

def tmAgentShutdown (a : App) : App :=
  if a.shuttingDown then a
  else
    closeAll { a.closeCtlSock with
      shuttingDown := true, reconnectTimer := false, ctlIo := false, ctlSsl := false
      hbTimer := false, hsTimer := false }

def tmAgentConnect (ans : ConnectAns) (a : App) : App :=
  if a.shuttingDown || a.connected || a.connecting then a
  else
    let a := { a with
      reconnectDelayMs :=
        if a.reconnectDelayMs = 0 then cfg.reconnectDelayMs else a.reconnectDelayMs }
    if !ans.resolves then a.armReconnect
    else
      let a := { a with ctlSock := .active, ctlInits := a.ctlSock :: a.ctlInits }
      if !ans.uv then a.armReconnect
      else { a with ctlReq := true, connecting := true }

def ctlConnected (ok : Bool) (ssl : SslAns) (a : App) : App :=
  let a := { a with ctlReq := false }
  if !ok then a.tmAgentDisconnect cfg
  else
    let a := { a with connecting := false, ctlSsl := ssl.sslNew }
    if !ssl.sslNew then a.tmAgentDisconnect cfg
    else if !ssl.configured then a.tmAgentDisconnect cfg
    else { a with ctlIo := true, hsTimer := true, connected := true }

def ctlHandshakeDone (now : ℕ) (ok : Bool) (a : App) : App :=
  tmAgentSendFrame cfg { type := .hello, payload := tmProtoString } ok
    { a with hsTimer := false, lastRxMs := now, lastPingMs := now }

def ctlHandshakeTimeout (a : App) : App := if a.connected then a.tmAgentDisconnect cfg else a

def agentHbTimer (now : ℕ) (ok : Bool) (a : App) : App :=
  if a.shuttingDown then a
  else if now - a.lastRxMs > cfg.idleTimeoutMs then a.tmAgentDisconnect cfg
  else if now - a.lastPingMs ≥ cfg.heartbeatIntervalMs then
    tmAgentSendFrame cfg { type := .ping } ok { a with lastPingMs := now }
  else a

/-- What a frame of the broker meets: whether the answer is taken, and how the set-up of a data
connection goes. -/
structure FrameAns where
  ok : Bool := true
  ssl : SslAns := { sslNew := false }
  connect : ConnectAns := {}

def tmAstreamOpen (sid : ℕ) (ans : FrameAns) (a : App) : App :=
  if (a.tmAstreamFind sid).isSome then a
  else
    let st := AStream.new a.nextRef sid
    put (st.setUp ans.ssl ans.connect) { a with
      streams := st :: a.streams, streamCount := a.streamCount + 1, nextRef := a.nextRef + 1 }

/-- The body of the loop of `ctl_read`; the flag says that it returns. -/
def ctlFrame (f : Frame) (ans : FrameAns) (a : App) : App × Bool :=
  match f.type with
  | .helloAck =>
    if a.gotHello then (a, false)
    else
      let a := { a with gotHello := true }
      let id := cfg.tunnelId
      if id.length = 0 ∨ id.length > tmTunnelIdLen ∨ cfg.agentSecret.length = 0 then
        (a.tmAgentShutdown, true)
      else
        (a.tmAgentSendFrame cfg
          { type := .register, payload := wrU16 id.length ++ id ++ cfg.agentSecret } ans.ok, false)
  | .registerOk =>
    if a.registered then (a, false)
    else
      ({ a with registered := true, reconnectDelayMs := cfg.reconnectDelayMs, hbTimer := true },
        false)
  | .registerError => (a.tmAgentDisconnect cfg, false)
  | .ping => (a.tmAgentSendFrame cfg { type := .pong } ans.ok, false)
  | .openStream => (if a.registered then a.tmAstreamOpen f.streamId ans else a, false)
  | .closeStream =>
    match a.tmAstreamFind f.streamId with
    | none => (a, false)
    | some st => (a.tmAstreamClose st.ref, false)
  | .goingAway => (a.tmAgentDisconnect cfg, true)
  | _ => (a, false)

/-- The loop of `ctl_read`, the reader of the connection holding what is left; a disconnect puts an
empty one in its place. -/
def ctlLoop : ℕ → Fed → List FrameAns → App → App
  | _, .none, _, a => a
  | _, .errored, _, a => a.tmAgentDisconnect cfg
  | 0, .frame _, _, a => a
  | n + 1, .frame f, ans, a =>
    match a.ctlFrame cfg f (ans.headD {}) with
    | (a, true) => a
    | (a, false) =>
      let (fr, fed) := tmFrameReaderFeed a.ctlFr []
      ctlLoop n fed ans.tail { a with ctlFr := fr }

def ctlRead (now : ℕ) (data : Bytes) (ans : List FrameAns) (a : App) : App :=
  let (fr, fed) := tmFrameReaderFeed a.ctlFr data
  ctlLoop cfg (fr.length + 1) fed ans { a with lastRxMs := now, ctlFr := fr }

/-- `stream_sock_closed`. -/
def streamSockClosed (w : Which) (st : AStream) (a : App) : App :=
  let st := { st.setHandle w .closed with closingRefs := st.closingRefs - 1 }
  if st.closingRefs = 0 then { a with dying := Table.del st.ref a.dying, freed := st :: a.freed }
  else { a with dying := Table.upd st.ref (fun _ => st) a.dying }

end

/-- Every stream but `r` is at the event loop. -/
def alone (r : Ref) (a : App) : Bool :=
  (a.streams ++ a.dying).all fun st => st.ref = r || st.relay.todo.isEmpty

/-- So is every stream. -/
def idle (a : App) : Bool := (a.streams ++ a.dying).all fun st => st.relay.todo.isEmpty

end App

/-! ## Runs -/

inductive Label
  | ctlConnected (ok : Bool) (ssl : SslAns)
  | ctlHandshakeDone (now : ℕ) (ok : Bool)
  | ctlRead (now : ℕ) (data : Bytes) (ans : List App.FrameAns)
  /-- `ctl_eof`, `ctl_error`. -/
  | ctlEnd
  | hsTimer
  | hbTimer (now : ℕ) (ok : Bool)
  | reconnectTimer (ans : ConnectAns)
  /-- A signal. -/
  | shutdown
  /-- The close of `ctl_sock` is complete. -/
  | ctlClosed
  | stream (r : Ref) (ev : StreamEvent) (ok : Bool)
  /-- The callback of the close of a stream's handle. -/
  | closed (r : Ref) (w : Which)

section

variable (cfg : Cfg)

/-- The event `ev` at stream `r`; `ok` says whether the control connection takes the error. -/
def App.streamEvent (r : Ref) (ev : StreamEvent) (ok : Bool) (a : App) : Option App :=
  (a.find r).bind fun st => (st.event cfg.agentSecret ev).map fun e =>
    match e.2 with
    | none => a.put e.1
    | some msg =>
      ((a.put e.1).tmAgentSendFrame cfg
        { type := .openStreamError, streamId := st.sid, msg := msg } ok).tmAstreamClose r

def step (a : App) : Label → Option App
  | .ctlConnected ok ssl => if a.idle && a.ctlReq then some (a.ctlConnected cfg ok ssl) else none
  | .ctlHandshakeDone now ok =>
    if a.idle && a.ctlIo then some (a.ctlHandshakeDone cfg now ok) else none
  | .ctlRead now data ans => if a.idle && a.ctlIo then some (a.ctlRead cfg now data ans) else none
  | .ctlEnd => if a.idle && a.ctlIo then some (a.tmAgentDisconnect cfg) else none
  | .hsTimer =>
    if a.idle && a.hsTimer then some ({ a with hsTimer := false }.ctlHandshakeTimeout cfg) else none
  | .hbTimer now ok =>
    if a.idle && a.hbTimer then some ({ a with hbTimer := false }.agentHbTimer cfg now ok) else none
  | .reconnectTimer ans =>
    if a.idle && a.reconnectTimer then
      some ({ a with reconnectTimer := false }.tmAgentConnect cfg ans)
    else none
  | .shutdown => if a.idle then some a.tmAgentShutdown else none
  | .ctlClosed =>
    if a.idle && !a.ctlReq && a.ctlSock = .closing then some { a with ctlSock := .closed } else none
  | .stream r ev ok => if a.alone r then a.streamEvent cfg r ev ok else none
  | .closed r w =>
    (Table.get r a.dying).bind fun st =>
      if a.idle && st.handle w = .closing then some (a.streamSockClosed w st) else none

/-- `main` up to the event loop, where the first connect is answered by `ans`. -/
def Started (ans : ConnectAns) (a : App) : Prop :=
  ∃ samples, a = App.tmAgentConnect cfg ans { samples := samples }

def Init (a : App) : Prop := ∃ ans, Started cfg ans a

end

end TunnelMate.Agent
