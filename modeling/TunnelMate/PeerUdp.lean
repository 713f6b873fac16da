import TunnelMate.AgentUdp
import TunnelMate.Broker

/-!
# The peer's side of the UDP plane

The peer's `udp.c`: one DTLS session to the tunnel's public port and one local socket. The addresses
of the local applications are mapped to flow ids of the peer's own. A session that ends is started
again by a timer.

The states of the handles are libuv's and `inits` is a history, as for the broker's tunnels.
-/

namespace TunnelMate.PeerUdp

open Udp (HsAns Queued Reply SslAns)
open AgentUdp (Ssl)

/-- What `udp.c` reads of `tm_peer_cfg`, with its defaults. -/
structure Cfg where
  token : Bytes
  udpFlowIdleTimeoutMs : ℤ := 30000
  udpMaxDatagramSize : ℤ := 1400
  udpMaxFlows : ℤ := 1024

/-- `tm_pflow`. -/
structure Flow where
  flowId : ℕ
  src : Addr
  lastSeenMs : ℕ

inductive Which
  | localUdp | brokerUdp | udpTimer | udpFlowTimer | reconnectTimer
  deriving DecidableEq

/-- A datagram of the application at `src`, taken under a flow. -/
structure Taken where
  flowId : ℕ
  src : Addr
  data : Bytes

/-- A datagram sent to a local application: the flow it came under, and the agent envelope that the
broker made the peer's one from. -/
structure Delivery where
  flowId : ℕ
  dst : Addr
  payload : Bytes
  reply : Option Reply
  deriving DecidableEq

/-- What `tm_peer_udp_stop` needs to schedule a reconnect. `main` clears the record and sets the
maximum, so that the delay starts at zero. -/
structure Backoff where
  reconnectDelayMs : ℕ := 0
  reconnectMaxDelayMs : ℕ := 30000
  /-- What `tm_now_ms` is going to answer. -/
  clock : List ℕ := []
  /-- The delays the reconnect timer was started with. -/
  delays : List ℕ := []

/-- The delay of the reconnect timer, at the clock `now`. -/
def jittered (delay now : ℕ) : ℕ :=
  let jitter : ℤ := delay / 5
  toU64 (delay + toU64 (now % (2 * jitter + 1) - jitter))

/-- The end of `tm_peer_udp_stop`. -/
def Backoff.next (b : Backoff) : Backoff :=
  let delay := min (toU64 (b.reconnectDelayMs * 2)) b.reconnectMaxDelayMs
  { b with
    reconnectDelayMs := delay
    clock := b.clock.tail
    delays := jittered delay (b.clock.headD 0) :: b.delays }

/-- The UDP part of `tm_peer`. -/
structure App where
  localUdp : Handle := .closed
  brokerUdp : Handle := .closed
  udpTimer : Handle := .closed
  udpFlowTimer : Handle := .closed
  reconnectTimer : Handle := .closed
  -- which of the timers are started
  udpTimerOn : Bool := false
  udpFlowTimerOn : Bool := false
  reconnectTimerOn : Bool := false
  ssl : Option Ssl := none
  /-- The address of `broker_udp` as the broker sees it. -/
  addr : Addr := { family := .unspec, ip := [], port := 0 }
  udpAuthed : Bool := false
  udpClosing : Bool := false
  /-- The envelopes in the queue, which is allocated with the first of them. -/
  udpOutq : Option (List Bytes) := none
  udpFlows : List Flow := []
  nextFlowId : ℕ := 0
  shuttingDown : Bool := false
  backoff : Backoff := {}
  -- what happened so far: how the init calls found their handle, the flow ids given out, the
  -- datagrams of the applications, the records sent to the broker, the datagrams sent to the
  -- applications, and the broker's sessions that were over when the socket was opened
  inits : List (Which × Handle) := []
  created : List (ℕ × Addr) := []
  taken : List Taken := []
  sent : List (Option Bytes) := []
  delivered : List Delivery := []
  ended : List Ref := []

/-! ## Handles -/

namespace App

def handle (p : App) : Which → Handle
  | .localUdp => p.localUdp
  | .brokerUdp => p.brokerUdp
  | .udpTimer => p.udpTimer
  | .udpFlowTimer => p.udpFlowTimer
  | .reconnectTimer => p.reconnectTimer

def setHandle (w : Which) (h : Handle) (p : App) : App :=
  match w with
  | .localUdp => { p with localUdp := h }
  | .brokerUdp => { p with brokerUdp := h }
  | .udpTimer => { p with udpTimer := h }
  | .udpFlowTimer => { p with udpFlowTimer := h }
  | .reconnectTimer => { p with reconnectTimer := h }

/-- `uv_udp_init`, `uv_timer_init`. -/
def uvInit (w : Which) (p : App) : App :=
  { p.setHandle w .live with inits := (w, p.handle w) :: p.inits }

/-- `uv_close`, unless the handle is closing or closed. -/
def uvClose (w : Which) (p : App) : App :=
  if p.handle w = .live then p.setHandle w .closing else p

end App

/-! ## Stopping and starting -/

/-- What `tm_peer_udp_stop` does up to the reconnect timer. -/
def endSession (p : App) : App :=
  { (p.uvClose .brokerUdp).uvClose .localUdp with
    udpTimerOn := false
    udpFlowTimerOn := false
    udpFlows := []
    ssl := none
    udpOutq := none
    udpAuthed := false
    udpClosing := true }

def tmPeerUdpStop (p : App) : App :=
  if p.ssl.isNone && p.udpFlows.isEmpty && p.udpOutq.isNone then p
  else if p.shuttingDown then endSession p
  else
    { (endSession p).uvInit .reconnectTimer with
      reconnectTimerOn := true, backoff := p.backoff.next }

/-- How `tm_peer_udp_start` ends: at one of its returns, or with a socket at the address `addr` and
a ClientHello of `recs` records. -/
inductive StartAns
  | badListenHost | bindFails | badBrokerHost | connectFails | sslFails | configureFails | bioFails
  | ok (addr : Addr) (recs : ℕ)

/-- The loop of `pump_out` that hands the BIO's records to the socket. -/
def flush (p : App) : App :=
  match p.ssl with
  | none => p
  | some x => { p with ssl := some { x with wbio := [] }, sent := x.wbio.reverse ++ p.sent }

/-- `tm_peer_udp_start`; `ended` are the broker's sessions that are over. -/
def tmPeerUdpStart (r : StartAns) (ended : List Ref) (p : App) : App :=
  if p.ssl.isSome || p.shuttingDown then p
  else
    let p := p.uvInit .localUdp
    match r with
    | .badListenHost => p
    | .bindFails => p.uvClose .localUdp
    | .badBrokerHost => p.uvInit .brokerUdp
    | .connectFails | .sslFails | .configureFails | .bioFails =>
      (p.uvInit .brokerUdp).uvClose .brokerUdp
    | .ok addr recs =>
      let p := ((p.uvInit .brokerUdp).uvInit .udpFlowTimer).uvInit .udpTimer
      -- nothing is queued yet, so `pump_out` only sends the ClientHello
      flush { p with
        udpFlowTimerOn := true
        udpTimerOn := true
        udpClosing := false
        ssl := some { wbio := List.replicate recs none }
        addr := addr
        ended := ended }

/-- `udp_reconnect`, the callback of a timer that does not repeat. -/
def udpReconnect (r : StartAns) (ended : List Ref) (p : App) : App :=
  let p := { p with reconnectTimerOn := false }
  if p.shuttingDown then p else tmPeerUdpStart r ended (p.uvClose .reconnectTimer)

/-- The UDP part of `tm_peer_shutdown`. -/
def tmPeerShutdown (p : App) : App :=
  if p.shuttingDown then p else tmPeerUdpStop { p with shuttingDown := true }

/-! ## Sending -/

/-- `pump_out` with the queue `q`; `ans` are the answers of `SSL_write`, one for each envelope. -/
def pumpLoop : List Bytes → List SslAns → App → App
  | [], _, p => flush p
  | env :: q, ans, p =>
    match ans.headD .want with
    | .want => p
    | .fail => tmPeerUdpStop p
    | .whole =>
      pumpLoop q ans.tail (flush { p with
        udpOutq := some q
        ssl := p.ssl.map fun x => { x with wbio := x.wbio ++ [some env] } })

def pumpOut (ans : List SslAns) (p : App) : App :=
  if p.udpClosing || p.ssl.isNone then p else pumpLoop (p.udpOutq.getD []) ans p

section

variable (cfg : Cfg)

/-- `udp_queue`; an envelope takes four bytes more in the queue. -/
def udpQueue (env : Bytes) (ans : List SslAns) (p : App) : App :=
  if p.udpClosing || p.ssl.isNone then p
  else
    let q := p.udpOutq.getD []
    let queued := (q.map fun e => 4 + e.length).sum
    let maxBytes := 256 * (toU64 cfg.udpMaxDatagramSize + 15) % 2 ^ 64
    if q.length ≥ 256 ∨ env.length > Udp.uint32Max ∨ queued + 4 + env.length > maxBytes then p
    else pumpOut ans { p with udpOutq := some (q ++ [env]) }

/-! ## Local flows -/

/-- One turn of the loop of `flow_id_new`: the id, and the counter behind it. -/
def nextId (n : ℕ) : ℕ × ℕ :=
  let next := (n + 1) % 2 ^ 64
  if n = 0 then (next, (next + 1) % 2 ^ 64) else (n, next)

/-- `flow_id_new` skips the ids that are in use, of which there are no more than flows. -/
def flowIdNew (flows : List Flow) : ℕ → ℕ → ℕ × ℕ
  | 0, n => nextId n
  | k + 1, n =>
    let (id, next) := nextId n
    if flows.any (·.flowId = id) then flowIdNew flows k next else (id, next)

/-- The new flow of `local_recv_cb`. -/
def flowCreate (src : Addr) (now : ℕ) (p : App) : Flow × App :=
  let (id, next) := flowIdNew p.udpFlows p.udpFlows.length p.nextFlowId
  let f : Flow := { flowId := id, src := src, lastSeenMs := now }
  (f, { p with
    nextFlowId := next
    udpFlows := f :: p.udpFlows
    created := (id, src) :: p.created })

/-- A flow has been heard of. -/
def touch (id now : ℕ) (p : App) : App :=
  { p with
    udpFlows := p.udpFlows.map fun f => if f.flowId = id then { f with lastSeenMs := now } else f }

/-- `local_recv_cb` for a datagram of the application at `src`. -/
def localRecv (src : Addr) (data : Bytes) (now : ℕ) (ans : List SslAns) (p : App) : App :=
  let send (f : Flow) (p : App) : App :=
    udpQueue cfg (tmEnvEncode f.flowId 0 data) ans { touch f.flowId now p with
      taken := { flowId := f.flowId, src := src, data := data } :: p.taken }
  if p.udpClosing || !p.udpAuthed then p
  else if data.length > toU64 cfg.udpMaxDatagramSize then p
  else
    match p.udpFlows.find? fun f => tmAddrEq f.src src with
    | some f => send f p
    | none =>
      if p.udpFlows.length ≥ cfg.udpMaxFlows then p
      else
        let (f, p) := flowCreate src now p
        send f p

/-- `handle_broker_env`. -/
def handleBrokerEnv (e : Env) (reply : Option Reply) (now : ℕ) (p : App) : App :=
  if e.flowId = 0 then p
  else if e.payload.length > toU32 cfg.udpMaxDatagramSize then p
  else
    match p.udpFlows.find? (·.flowId = e.flowId) with
    | none => p
    | some f =>
      { touch e.flowId now p with
        delivered :=
          { flowId := e.flowId, dst := f.src, payload := e.payload, reply := reply } ::
            p.delivered }

/-- `flow_sweep_cb`. -/
def flowSweep (now : ℕ) (p : App) : App :=
  { p with
    udpFlows := p.udpFlows.filter fun f => !(now - f.lastSeenMs > toU64 cfg.udpFlowIdleTimeoutMs) }

/-- `keepalive_cb`. -/
def keepalive (ans : List SslAns) (p : App) : App :=
  if p.udpClosing || !p.udpAuthed then p else udpQueue cfg (tmEnvEncode 0 0 []) ans p

/-! ## Inbound records -/

/-- The loop of `udp_recv_cb` over the envelopes that `SSL_read` yields. -/
def readLoop (now : ℕ) (ans : List SslAns) : List Queued → App → App
  | [], p => pumpOut ans p
  | q :: reads, p =>
    match tmEnvDecode q.env with
    | none => readLoop now ans reads p
    | some e =>
      if e.flags = tmEnvFlagAuthOk then readLoop now ans reads { p with udpAuthed := true }
      else if e.flags = tmEnvFlagAuthErr then tmPeerUdpStop p
      else if e.flags = 0 then readLoop now ans reads (handleBrokerEnv cfg e q.reply now p)
      else readLoop now ans reads p

/-- `udp_recv_cb`. While the handshake runs, `hs` is the answer of `SSL_connect` and `s` the
broker's session at the other end. -/
def udpRecv (hs : HsAns) (s : Ref) (reads : List Queued) (now : ℕ) (ans : List SslAns) (p : App) :
    App :=
  if p.udpClosing then p
  else
    match p.ssl with
    | none => p
    | some x =>
      if x.initFinished then readLoop cfg now ans reads p
      else
        match hs with
        | .want recs =>
          pumpOut ans { p with ssl := some { x with wbio := x.wbio ++ List.replicate recs none } }
        | .failed _ => tmPeerUdpStop p
        | .done recs =>
          let x := { x with
            initFinished := true, session := some s, wbio := x.wbio ++ List.replicate recs none }
          pumpOut ans (udpQueue cfg (tmEnvEncode 0 tmEnvFlagAuthReq cfg.token) ans
            { p with ssl := some x })

/-! ## Runs -/

end

inductive Event
  | start (r : StartAns)
  | stop
  /-- The reconnect timer fires. -/
  | reconnect (r : StartAns)
  /-- The callback of a close. -/
  | closed (w : Which)
  /-- A signal. -/
  | shutdown
  | localRecv (src : Addr) (data : Bytes) (ans : List SslAns)
  | udpRecv (hs : HsAns) (s : Ref) (reads : List Queued) (ans : List SslAns)
  | flowSweep
  | keepalive (ans : List SslAns)

/-- An event at the time `now`, when the broker's sessions `ended` are over. A socket receives and a
timer fires only while it is there. -/
def handle (cfg : Cfg) (ended : List Ref) (now : ℕ) (p : App) : Event → Option App
  | .start r => some (tmPeerUdpStart r ended p)
  | .stop => some (tmPeerUdpStop p)
  | .reconnect r => if p.reconnectTimerOn then some (udpReconnect r ended p) else none
  | .closed w => if p.handle w = .closing then some (p.setHandle w .closed) else none
  | .shutdown => some (tmPeerShutdown p)
  | .localRecv src data ans =>
    if p.localUdp = .live then some (localRecv cfg src data now ans p) else none
  | .udpRecv hs s reads ans =>
    if p.brokerUdp = .live then some (udpRecv cfg hs s reads now ans p) else none
  | .flowSweep => if p.udpFlowTimerOn then some (flowSweep cfg now p) else none
  | .keepalive ans => if p.udpTimerOn then some (keepalive cfg ans p) else none

/-- An event of a peer on its own, with its environment then. -/
structure Label where
  ended : List Ref
  now : ℕ
  ev : Event

def step (cfg : Cfg) (p : App) (l : Label) : Option App := handle cfg l.ended l.now p l.ev

/-- `main` up to the event loop, whose start ends with `r`. -/
def Init (r : StartAns) (p : App) : Prop := ∃ ended max clock,
  p = tmPeerUdpStart r ended { backoff := { reconnectMaxDelayMs := max, clock := clock } }

/-- How often the reconnect timer was started. -/
def App.reconnects (p : App) : ℕ := p.inits.countP (·.1 = .reconnectTimer)

end TunnelMate.PeerUdp
