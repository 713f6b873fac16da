import TunnelMate.Common
import TunnelMate.Lib.Table
import TunnelMate.Lib.Trace

/-!
# The UDP plane of a tunnel

`udp.c`: a tunnel's socket is shared by its public clients and by DTLS sessions, which are told
apart by their peer address. A session that authenticates is the agent's or a peer's. Datagrams of a
client or a peer go to the agent under a flow id the broker assigns; what the agent sends under that
id goes back.

OpenSSL and libuv are the environment: an event says what they answer to the calls it makes. A
session's wire side is the list of DTLS records that wait in its BIO, each with the plaintext it
holds. A session that closes is unlinked at once and stays behind until it can be freed. The
broker's counters are kept with the tunnel here.
-/

namespace TunnelMate.Udp

/-- Where the replies of a flow go: to a public client, or to a peer's session under the flow id
that peer uses. -/
inductive Endpoint
  | client (src : Addr)
  | peer (session : Ref) (srcFlowId : ℕ)
  deriving DecidableEq

structure Window where
  start : ℕ := 0
  count : ℤ := 0
  deriving DecidableEq

/-- `tm_udp_flow`; `ep` is its `from_peer_session`, `peer_session`, `src_flow_id` and `src`. -/
structure Flow where
  ref : Ref
  flowId : ℕ
  ep : Endpoint
  lastSeenMs : ℕ
  pktsRx : ℕ := 0
  bytesRx : ℕ := 0
  /-- The loop's time when `idle_timer` was started. -/
  armedMs : ℕ
  deriving DecidableEq

/-- What an agent envelope carried. -/
structure Reply where
  flowId : ℕ
  payload : Bytes
  deriving DecidableEq

/-- An envelope in a session's queue, with the agent envelope it is the reply of. -/
structure Queued where
  env : Bytes
  reply : Option Reply
  deriving DecidableEq

/-- `tm_udp_session`. -/
structure Session where
  ref : Ref
  peer : Addr
  isAgent : Bool := false
  authenticated : Bool := false
  handshakeDone : Bool := false
  inflight : Bool := false
  lastRxMs : ℕ
  pktWin : Window := {}
  outq : List Queued := []
  /-- The records that wait in the BIO; `none` is one of the handshake. -/
  wbio : List (Option Queued) := []
  deriving DecidableEq

instance : Keyed Session := ⟨Session.ref⟩

instance : Keyed Flow := ⟨Flow.ref⟩

/-- A session that is closing: it waits for its send and for the close of its timer. -/
structure Closing where
  ref : Ref
  inflight : Bool
  timerClosed : Bool := false
  deriving DecidableEq

instance : Keyed Closing := ⟨Closing.ref⟩

/-- The answer of `SSL_write`: the whole envelope in one record, WANT, or a failure. -/
inductive SslAns
  | whole | want | fail
  deriving DecidableEq

/-- The answers a run of `pump_out` gets: of `SSL_write`, and whether `uv_udp_send` takes the
datagram. -/
structure PumpAns where
  ssl : SslAns
  send : Bool
  deriving DecidableEq

/-- A run of `pump_out` behind its first test: the session and `udp_raw_inflight` as it found them,
and the answers it got. -/
structure Pump where
  session : Session
  udpRawInflight : ℕ
  ans : PumpAns
  deriving DecidableEq

inductive Body
  | raw (r : Reply)
  | record (q : Option Queued)
  deriving DecidableEq

/-- A datagram handed to the socket. -/
structure Out where
  session : Option Ref
  dst : Addr
  body : Body
  deriving DecidableEq

/-- The agent envelope whose payload a datagram carries. -/
def Out.reply (o : Out) : Option Reply :=
  match o.body with
  | .raw r => some r
  | .record q => q.bind Queued.reply

structure Counters where
  failedAuths : ℕ := 0
  protocolErrors : ℕ := 0
  udpDroppedQueueFull : ℕ := 0
  udpDroppedOversize : ℕ := 0
  udpDroppedRateLimit : ℕ := 0
  udpDroppedNoFlow : ℕ := 0
  udpFlowExpired : ℕ := 0
  udpTransportErrors : ℕ := 0
  deriving DecidableEq

structure Plane where
  sessions : List Session := []
  closing : List Closing := []
  agentSession : Option Ref := none
  flows : List Flow := []
  nextFlowId : ℕ := 1
  flowCreatedWin : Window := {}
  pktWin : Window := {}
  udpRawInflight : ℕ := 0
  /-- The sends that are not completed yet, each with its session. -/
  pending : List (Option Ref) := []
  ctr : Counters := {}
  nextRef : Ref := 0
  /-- `tm_now_ms`. -/
  now : ℕ := 0
  /-- The time libuv keeps for its timers. -/
  loop : ℕ := 0
  -- what happened so far: the sessions opened, the flow ids given out, the times `last_seen_ms` of
  -- a flow was set to, the datagrams sent, the runs of `pump_out`
  opened : List (Ref × Addr) := []
  assigned : List (ℕ × Endpoint) := []
  seen : List (Ref × ℕ) := []
  sent : List Out := []
  pumps : List Pump := []
  deriving DecidableEq

/-- Changes the session `s`. -/
def Plane.upd (s : Ref) (f : Session → Session) (p : Plane) : Plane :=
  { p with sessions := Table.upd s f p.sessions }

/-- What the plane reads of its tunnel. -/
structure Creds where
  closed : Bool
  agentSecretHmac : Bytes
  sharedTokenHmac : Bytes
  deriving DecidableEq

/-- The answer of `SSL_accept`, with the number of records it writes. -/
inductive HsAns
  | done (recs : ℕ) | want (recs : ℕ) | failed (recs : ℕ)
  deriving DecidableEq

/-! ## Sending -/

section

variable (cfg : BrokerCfg)

def udpSendRaw (s : Option Ref) (dst : Addr) (body : Body) (send : Bool) (p : Plane) : Plane :=
  if p.udpRawInflight ≥ toU64 cfg.udpQueuePackets then
    { p with ctr.udpDroppedQueueFull := p.ctr.udpDroppedQueueFull + 1 }
  else if send then
    { p with
      udpRawInflight := p.udpRawInflight + 1
      pending := s :: p.pending
      sent := { session := s, dst := dst, body := body } :: p.sent }
  else { p with ctr.udpTransportErrors := p.ctr.udpTransportErrors + 1 }

/-- The loop of `pump_out`, which stops after one envelope; `none` is its `return`. -/
def encrypt (ans : SslAns) (x : Session) : Option Session :=
  match x.outq with
  | [] => some x
  | q :: rest =>
    match ans with
    | .want => some x
    | .fail => none
    | .whole => some { x with outq := rest, wbio := x.wbio ++ [some q] }

def pumpOut (s : Ref) (a : PumpAns) (p : Plane) : Plane :=
  match Table.get s p.sessions with
  | none => p
  | some x =>
    if x.inflight then p
    else
      let p := { p with pumps := ⟨x, p.udpRawInflight, a⟩ :: p.pumps }
      match encrypt a.ssl x with
      | none => p
      | some y =>
        match y.wbio with
        | [] => p.upd s fun _ => y
        | r :: rest =>
          udpSendRaw cfg (some s) x.peer (.record r) a.send
            (p.upd s fun _ => { y with wbio := rest, inflight := true })

def uint32Max : ℕ := 4294967295

/-- `session_queue`; the queue is kept as its envelopes, each of which takes four more bytes. -/
def sessionQueue (s : Ref) (q : Queued) (a : PumpAns) (p : Plane) : Plane :=
  match Table.get s p.sessions with
  | none => p
  | some x =>
    let queued := (x.outq.map fun q => 4 + q.env.length).sum
    let maxBytes :=
      toU64 cfg.udpQueuePackets * (toU64 cfg.udpMaxDatagramSize + 15) % 2 ^ 64
    if x.outq.length ≥ toU64 cfg.udpQueuePackets ∨ q.env.length > uint32Max ∨
        queued + 4 + q.env.length > maxBytes then
      { p with ctr.udpDroppedQueueFull := p.ctr.udpDroppedQueueFull + 1 }
    else pumpOut cfg s a (p.upd s fun x => { x with outq := x.outq ++ [q] })

def sessionMaybeFree (s : Ref) (p : Plane) : Plane :=
  match Table.get s p.closing with
  | none => p
  | some x =>
    if x.inflight || !x.timerClosed then p else { p with closing := Table.del s p.closing }

def sessionTimerClosed (s : Ref) (p : Plane) : Plane :=
  sessionMaybeFree s
    { p with closing := Table.upd s (fun x => { x with timerClosed := true }) p.closing }

/-- `send_done`: the session may be closing by then. -/
def sendDone (s : Option Ref) (a : PumpAns) (p : Plane) : Plane :=
  let p := { p with pending := p.pending.erase s, udpRawInflight := p.udpRawInflight - 1 }
  match s with
  | none => p
  | some s =>
    if (Table.get s p.closing).isSome then
      sessionMaybeFree s
        { p with closing := Table.upd s (fun x => { x with inflight := false }) p.closing }
    else pumpOut cfg s a (p.upd s fun x => { x with inflight := false })

/-! ## The flow table -/

def flowFind (id : ℕ) (p : Plane) : Option Flow := p.flows.find? (·.flowId = id)

def flowFindPeer (s : Ref) (srcFlowId : ℕ) (p : Plane) : Option Flow :=
  p.flows.find? (·.ep = .peer s srcFlowId)

def flowFindSrc (addr : Addr) (p : Plane) : Option Flow :=
  p.flows.find? fun f =>
    match f.ep with
    | .client src => tmAddrEq src addr
    | .peer _ _ => false

def tmUdpFlowExpire (f : Ref) (p : Plane) : Plane :=
  { p with flows := Table.del f p.flows, ctr.udpFlowExpired := p.ctr.udpFlowExpired + 1 }

def rateCheck (limit : ℤ) (now : ℕ) (w : Window) : Bool × Window :=
  if limit ≤ 0 then (true, w)
  else
    let w := if now - w.start ≥ 1000 then { start := now, count := 0 } else w
    if w.count ≥ limit then (false, w) else (true, { w with count := w.count + 1 })

/-- `flow_new`; the id counter is a `uint64_t`. -/
def flowNew (ep : Endpoint) (p : Plane) : Flow × Plane :=
  let fid := if p.nextFlowId = 0 then 1 else p.nextFlowId
  let f : Flow :=
    { ref := p.nextRef, flowId := fid, ep := ep, lastSeenMs := p.now, armedMs := p.loop }
  (f, { p with
    nextFlowId := (fid + 1) % 2 ^ 64
    nextRef := p.nextRef + 1
    flows := f :: p.flows
    assigned := (fid, ep) :: p.assigned
    seen := (p.nextRef, p.now) :: p.seen })

/-- A datagram of `plen` bytes is processed on a flow. -/
def touch (f : Ref) (plen : ℕ) (p : Plane) : Plane :=
  { p with
    flows := Table.upd f (fun f => { f with
      lastSeenMs := p.now, pktsRx := f.pktsRx + 1, bytesRx := f.bytesRx + plen }) p.flows
    seen := (f, p.now) :: p.seen }

/-! ## Sessions -/

def Flow.ofSession (s : Ref) (f : Flow) : Bool :=
  match f.ep with
  | .client _ => false
  | .peer s' _ => s' = s

def tmUdpSessionClose (s : Ref) (p : Plane) : Plane :=
  match Table.get s p.sessions with
  | none => p
  | some x =>
    { p with
      flows := p.flows.filter fun f => !f.ofSession s
      ctr.udpFlowExpired := p.ctr.udpFlowExpired + (p.flows.filter (·.ofSession s)).length
      sessions := Table.del s p.sessions
      closing := { ref := s, inflight := x.inflight } :: p.closing
      agentSession := if p.agentSession = some s then none else p.agentSession }

def sessionCreate (peer : Addr) (p : Plane) : Plane :=
  { p with
    sessions := { ref := p.nextRef, peer := peer, lastRxMs := p.now } :: p.sessions
    nextRef := p.nextRef + 1
    opened := (p.nextRef, peer) :: p.opened }

/-- Records of the handshake go to a session's BIO. -/
def addRecs (s : Ref) (recs : ℕ) (p : Plane) : Plane :=
  p.upd s fun x => { x with wbio := x.wbio ++ List.replicate recs none }

/-- `session_timer_cb`; it may fire at any time here. -/
def sessionTimer (s : Ref) (recs : ℕ) (a : PumpAns) (p : Plane) : Plane :=
  match Table.get s p.sessions with
  | none => p
  | some x =>
    if p.now - x.lastRxMs > toU64 cfg.udpFlowIdleTimeoutMs * 2 % 2 ^ 64 then tmUdpSessionClose s p
    else if x.handshakeDone then p
    else pumpOut cfg s a (addRecs s recs p)

/-! ## The inbound path -/

def dropRateLimit (p : Plane) : Plane :=
  { p with ctr.udpDroppedRateLimit := p.ctr.udpDroppedRateLimit + 1 }

def forwardToAgent (flowId : ℕ) (payload : Bytes) (a : PumpAns) (p : Plane) : Plane :=
  match p.agentSession with
  | none => { p with ctr.udpDroppedNoFlow := p.ctr.udpDroppedNoFlow + 1 }
  | some s =>
    if (Table.get s p.sessions).all (!·.authenticated) then
      { p with ctr.udpDroppedNoFlow := p.ctr.udpDroppedNoFlow + 1 }
    else if payload.length > toU32 cfg.udpMaxDatagramSize then
      { p with ctr.udpDroppedOversize := p.ctr.udpDroppedOversize + 1 }
    else sessionQueue cfg s { env := tmEnvEncode flowId 0 payload, reply := none } a p

/-- `forward_to_peer` for the agent envelope `r`. -/
def forwardToPeer (f : Flow) (r : Reply) (a : PumpAns) (p : Plane) : Plane :=
  if r.payload.length > toU32 cfg.udpMaxDatagramSize then
    { p with ctr.udpDroppedOversize := p.ctr.udpDroppedOversize + 1 }
  else
    match f.ep with
    | .peer s srcFlowId =>
      sessionQueue cfg s { env := tmEnvEncode srcFlowId 0 r.payload, reply := some r } a p
    | .client src => udpSendRaw cfg none src (.raw r) a.send p

def agentSessionEnv (e : Env) (a : PumpAns) (p : Plane) : Plane :=
  if e.flowId = 0 then p
  else
    match flowFind e.flowId p with
    | none => { p with ctr.udpDroppedNoFlow := p.ctr.udpDroppedNoFlow + 1 }
    | some f =>
      forwardToPeer cfg f { flowId := e.flowId, payload := e.payload } a
        (touch f.ref e.payload.length p)

/-- How `peer_session_env` and `open_client_datagram` go on once they have looked for the flow of
`ep`: they make one if there is none and the limits allow it. -/
def relayToAgent (found : Option Flow) (ep : Endpoint) (payload : Bytes) (a : PumpAns)
    (p : Plane) : Plane :=
  match found with
  | some f => forwardToAgent cfg f.flowId payload a (touch f.ref payload.length p)
  | none =>
    let (ok, w) := rateCheck cfg.udpFlowCreationRate p.now p.flowCreatedWin
    let p := { p with flowCreatedWin := w }
    if !ok || p.flows.length ≥ toU64 cfg.udpMaxFlowsPerTunnel then dropRateLimit p
    else
      let (f, p) := flowNew ep p
      forwardToAgent cfg f.flowId payload a (touch f.ref payload.length p)

/-- `tunnel_pkt_limit`. -/
def tunnelPktLimit (p : Plane) : Bool × Plane :=
  let (ok, w) := rateCheck cfg.udpMaxPacketsPerTunnel p.now p.pktWin
  (ok, { p with pktWin := w })

def peerSessionEnv (x : Session) (e : Env) (a : PumpAns) (p : Plane) : Plane :=
  let (ok, w) := rateCheck cfg.udpMaxPacketsPerSource p.now x.pktWin
  let p := p.upd x.ref fun x => { x with pktWin := w }
  if !ok then dropRateLimit p
  else
    let (ok, p) := tunnelPktLimit cfg p
    if !ok then dropRateLimit p
    else if e.flowId = 0 then p
    else
      relayToAgent cfg (flowFindPeer x.ref e.flowId p) (.peer x.ref e.flowId) e.payload a p

def openClientDatagram (addr : Addr) (payload : Bytes) (a : PumpAns) (p : Plane) : Plane :=
  let (ok, p) := tunnelPktLimit cfg p
  if !ok then dropRateLimit p
  else relayToAgent cfg (flowFindSrc addr p) (.client addr) payload a p

def looksLikeDtls (data : Bytes) : Bool :=
  13 ≤ data.length && 20 ≤ data.getD 0 0 && data.getD 0 0 ≤ 23 && data.getD 1 0 = 0xfe &&
    (data.getD 2 0 = 0xff || data.getD 2 0 = 0xfd || data.getD 2 0 = 0xfc)

/-- What a session does with a decrypted record before it has authenticated; `none` is a record
that is no authentication request. -/
def authReq (data : Bytes) : Option Env :=
  if data.length < tmEnvHdrLen ∨ data.getD 0 0 ≠ 0 then none
  else
    (tmEnvDecode data).filter fun e =>
      e.flags &&& tmEnvFlagAuthReq ≠ 0 && e.payload ≠ [] && e.payload.length ≤ tmMaxSecret

/-- The session is authenticated; a new agent session takes the place of the old one. -/
def authAccept (s : Ref) (isAgent : Bool) (p : Plane) : Plane :=
  let p := p.upd s fun x => { x with authenticated := true, isAgent := isAgent }
  if isAgent then
    let p := match p.agentSession with
      | none => p
      | some old => if old = s then p else tmUdpSessionClose old p
    { p with agentSession := some s }
  else p

variable (digest : Bytes → Digest)

/-- `session_appdata`. Behind an authentication request nothing is left: its payload is the rest of
the record. -/
def sessionAppdata (k : Creds) (s : Ref) (data : Bytes) (a : PumpAns) (p : Plane) : Plane :=
  match Table.get s p.sessions with
  | none => p
  | some x =>
    if !x.authenticated then
      match authReq data with
      | none => { p with ctr.failedAuths := p.ctr.failedAuths + 1 }
      | some e =>
        let hex := toHex (digest e.payload).toList
        let isAgent := tmCtEqHex hex k.agentSecretHmac
        let isPeer := !isAgent && k.closed && k.sharedTokenHmac ≠ [] &&
          tmCtEqHex hex k.sharedTokenHmac
        if !isAgent && !isPeer then
          sessionQueue cfg s { env := tmEnvEncode 0 tmEnvFlagAuthErr [], reply := none } a
            { p with ctr.failedAuths := p.ctr.failedAuths + 1 }
        else
          sessionQueue cfg s { env := tmEnvEncode 0 tmEnvFlagAuthOk [], reply := none } a
            (authAccept s isAgent p)
    else if data.length < tmEnvHdrLen ∨ data.getD 0 0 ≠ 0 then
      { p with ctr.protocolErrors := p.ctr.protocolErrors + 1 }
    else
      match tmEnvDecode data with
      | none => { p with ctr.protocolErrors := p.ctr.protocolErrors + 1 }
      | some e =>
        if x.isAgent then agentSessionEnv cfg e a p else peerSessionEnv cfg x e a p

/-- `drain_ssl`: `SSL_read` yields one record after the other. -/
def drainSsl (k : Creds) (s : Ref) (reads : List (Bytes × PumpAns)) (p : Plane) : Plane :=
  reads.foldl (fun p r => sessionAppdata cfg digest k s r.1 r.2 p) p

def pumpIn (k : Creds) (s : Ref) (hs : HsAns) (reads : List (Bytes × PumpAns)) (a : PumpAns)
    (p : Plane) : Plane :=
  match Table.get s p.sessions with
  | none => p
  | some x =>
    if x.handshakeDone then pumpOut cfg s a (drainSsl cfg digest k s reads p)
    else
      match hs with
      | .done recs =>
        let p := (addRecs s recs p).upd s fun x => { x with handshakeDone := true }
        pumpOut cfg s a (drainSsl cfg digest k s reads p)
      | .want recs => pumpOut cfg s a (addRecs s recs p)
      | .failed recs => addRecs s recs p

/-- `on_udp_packet` behind its checks of the broker and the tunnel. -/
def onUdpPacket (k : Creds) (addr : Addr) (data : Bytes) (hs : HsAns)
    (reads : List (Bytes × PumpAns)) (a : PumpAns) (p : Plane) : Plane :=
  if !k.closed && !looksLikeDtls data then
    if data.length > toU64 cfg.udpMaxDatagramSize then
      { p with ctr.udpDroppedOversize := p.ctr.udpDroppedOversize + 1 }
    else openClientDatagram cfg addr data a p
  else
    match p.sessions.find? (tmAddrEq ·.peer addr) with
    | some x =>
      pumpIn cfg digest k x.ref hs reads a (p.upd x.ref fun x => { x with lastRxMs := p.now })
    | none =>
      let (ok, w) := rateCheck cfg.udpFlowCreationRate p.now p.flowCreatedWin
      let p := { p with flowCreatedWin := w }
      if !ok then dropRateLimit p
      else pumpIn cfg digest k p.nextRef hs reads a (sessionCreate addr p)

end

/-- The lists of `tm_udp_stop`; the sends under way still complete. -/
def tmUdpStop (p : Plane) : Plane :=
  { p with
    sessions := []
    closing := (p.sessions.map fun x => { ref := x.ref, inflight := x.inflight }) ++ p.closing
    flows := []
    agentSession := none
    ctr.udpFlowExpired := p.ctr.udpFlowExpired + p.flows.length }

/-! ## Runs -/

inductive Event
  | packet (addr : Addr) (data : Bytes) (hs : HsAns) (reads : List (Bytes × PumpAns)) (a : PumpAns)
  | sendDone (s : Option Ref) (a : PumpAns)
  | sessionTimer (s : Ref) (recs : ℕ) (a : PumpAns)
  | timerClosed (s : Ref)
  /-- `flow_idle_cb`. -/
  | flowIdle (f : Ref)
  | stop
  deriving DecidableEq

/-- An event, with the clock, the loop's time and the tunnel's credentials then. -/
structure Label where
  now : ℕ
  loop : ℕ
  creds : Creds
  ev : Event

section

variable (cfg : BrokerCfg) (digest : Bytes → Digest)

def handle (k : Creds) (p : Plane) : Event → Option Plane
  | .packet addr data hs reads a => some (onUdpPacket cfg digest k addr data hs reads a p)
  | .sendDone s a => if s ∈ p.pending then some (sendDone cfg s a p) else none
  | .sessionTimer s recs a => some (sessionTimer cfg s recs a p)
  | .timerClosed s =>
    if (Table.get s p.closing).any (!·.timerClosed) then some (sessionTimerClosed s p) else none
  -- a timer fires once the loop's time has reached the time it was started for
  | .flowIdle f =>
    match Table.get f p.flows with
    | none => none
    | some x =>
      if x.armedMs + toU64 cfg.udpFlowIdleTimeoutMs ≤ p.loop then some (tmUdpFlowExpire f p)
      else none
  | .stop => some (tmUdpStop p)

/-- The clock does not go back, and the loop's time is an earlier reading of it. -/
def step (p : Plane) (l : Label) : Option Plane :=
  if p.now ≤ l.now ∧ p.loop ≤ l.loop ∧ l.loop ≤ l.now then
    handle cfg digest l.creds { p with now := l.now, loop := l.loop } l.ev
  else none

end

def Init (p : Plane) : Prop := p = {}

end TunnelMate.Udp
