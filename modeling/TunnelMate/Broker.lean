import TunnelMate.Relay
import TunnelMate.Udp

/-!
# The broker's state

`registry.c`, `tcp.c` and the part of `relay.c` that makes and unlinks streams. Heap objects have
identities (`Ref`), which are never used again. `tunnels` holds every tunnel that is allocated; the
registry `b->tunnels` is the ones that are `registered`, the others wait for the close callbacks of
their handles. A stream's relay state is a configuration of `Relay`; a stream that closes is
unlinked at once, like a connection or an agent.

The states of a tunnel's handles are libuv's, and `inits`, `released` and what is said of io objects
and sockets made and closed are histories: nothing the broker does depends on them.
-/

namespace TunnelMate

/-- The life of a libuv handle, which a `uv_*_init` begins and its close callback ends. -/
inductive Handle
  /-- Never initialised, or fully closed. -/
  | closed
  | live
  /-- `uv_close` was called and its callback is to come. -/
  | closing
  deriving DecidableEq

structure Tunnel where
  ref : Ref
  registered : Bool := true
  id : Bytes
  proto : Proto
  closed : Bool
  enabled : Bool := true
  publicPort : ℕ
  agentSecretHmac : Bytes
  sharedTokenHmac : Bytes
  agent : Option Ref := none
  agentOnline : Bool := false
  listener : Handle := .closed
  listenerOpen : Bool := false
  listenerClosing : Bool := false
  listenerRestartPending : Bool := false
  udpSock : Handle := .closed
  udpOpen : Bool := false
  /-- The close callbacks of `udp_sock` that are still to come. -/
  udpClosing : ℕ := 0
  udp : Udp.Plane := {}
  streamsActive : ℤ := 0
  deleting : Bool := false
  closeRefs : ℤ := 0
  /-- How `uv_tcp_init` and `uv_udp_init` found their handle, the latest first. -/
  inits : List Handle := []
  deriving DecidableEq

/-- `tm_agent`: its socket and io are those of the connection it was promoted from. -/
structure Agent where
  ref : Ref
  tun : Ref
  conn : Ref

/-- `tm_conn`, a connection of the control port before its role is decided. -/
structure Conn where
  ref : Ref
  gotHello : Bool := false
  peerAuthed : Bool := false
  peerTun : Option Ref := none
  deriving DecidableEq

/-- Where `sock_a` comes from: the public listener, or a connection of the control port. -/
inductive Sock
  | listener
  | conn (c : Ref)
  deriving DecidableEq

/-- `tm_stream`; `sock_b` is a connection of the control port or NULL. -/
structure Stream where
  ref : Ref
  id : ℕ
  tun : Ref
  sockA : Sock
  sockB : Option Ref := none
  relay : Duplex.Config Relay.Tail
  deriving DecidableEq

/-- An io object: the TLS io of a connection of the control port, or the raw io that a stream makes
over its consumer's socket. -/
inductive IoRef
  | ssl (conn : Ref)
  | raw (st : Ref)
  deriving DecidableEq

def IoRef.ofIo (st : Ref) : Duplex.Io → IoRef
  | .tcp => .raw st
  | .ssl conn => .ssl conn

/-- The io object of a leg, if it has one. -/
def Stream.io (x : Stream) (l : Duplex.Leg) : Option IoRef :=
  (x.relay.s.side l).io.map (.ofIo x.ref)

/-- The sockets of a stream that were connections of the control port. -/
def Stream.sock (x : Stream) : Duplex.Leg → Option Ref
  | .a =>
    match x.sockA with
    | .listener => none
    | .conn c => some c
  | .b => x.sockB

def Stream.ios (x : Stream) : List IoRef := (x.io .a).toList ++ (x.io .b).toList

def Stream.socks (x : Stream) : List Ref := (x.sock .a).toList ++ (x.sock .b).toList

structure AcceptRate where
  ref : Ref
  ip : Addr
  winStart : ℕ
  count : ℤ := 0

structure Ports where
  tcp : List Bool
  udp : List Bool
  used : ℕ := 0
  cursor : ℕ := 0
  deriving DecidableEq

/-- A frame the broker writes: the connection, the type, the stream id and the text. -/
structure Sent where
  conn : Ref
  type : MsgType
  streamId : ℕ := 0
  msg : String := ""
  deriving DecidableEq

structure Broker where
  cfg : BrokerCfg
  ports : Ports
  tunnels : List Tunnel := []
  conns : List Conn := []
  agents : List Agent := []
  streams : List Stream := []
  tunnelCount : ℤ := 0
  streamCount : ℤ := 0
  sidCounter : ℕ := 1
  sidCounter2 : ℕ := 1
  nextRef : Ref := 0
  acceptRates : List AcceptRate := []
  shuttingDown : Bool := false
  cleanedUp : Bool := false
  failedAuths : ℕ := 0
  protocolErrors : ℕ := 0
  agentReconnects : ℕ := 0
  now : ℕ := 0
  loop : ℕ := 0
  sent : List Sent := []
  /-- The tunnels that were freed, as they then were. -/
  released : List Tunnel := []
  /-- The connections whose `hs_timer` has not been stopped for good. -/
  timers : List Ref := []
  -- the io objects made, those `tm_io_close` was called for, and the connections of the control
  -- port whose socket `uv_close` was called for
  ioMade : List IoRef := []
  ioClosed : List IoRef := []
  sockClosed : List Ref := []

instance : Keyed Tunnel := ⟨Tunnel.ref⟩

instance : Keyed Agent := ⟨Agent.ref⟩

instance : Keyed Conn := ⟨Conn.ref⟩

instance : Keyed Stream := ⟨Stream.ref⟩

instance : Keyed AcceptRate := ⟨AcceptRate.ref⟩

namespace Broker

variable (b : Broker)

def updTun (t : Ref) (f : Tunnel → Tunnel) : Broker :=
  { b with tunnels := Table.upd t f b.tunnels }

def updConn (c : Ref) (f : Conn → Conn) : Broker := { b with conns := Table.upd c f b.conns }

def updStream (st : Ref) (f : Stream → Stream) : Broker :=
  { b with streams := Table.upd st f b.streams }

def protocolError : Broker := { b with protocolErrors := b.protocolErrors + 1 }

def failedAuth : Broker := { b with failedAuths := b.failedAuths + 1 }

def log (s : Sent) : Broker := { b with sent := s :: b.sent }

/-- `tm_io_close` of some io objects and `uv_close` of some sockets. -/
def noteClosed (ios : List IoRef) (socks : List Ref) : Broker :=
  { b with ioClosed := ios ++ b.ioClosed, sockClosed := socks ++ b.sockClosed }

end Broker

/-! ## The registry -/

def tmTunnelFind (id : Bytes) (b : Broker) : Option Tunnel :=
  b.tunnels.find? fun t => t.registered && t.id = id

def Ports.table (p : Ports) : Proto → List Bool
  | .tcp => p.tcp
  | .udp => p.udp

def Ports.set (p : Ports) (proto : Proto) (i : ℕ) (v : Bool) : Ports :=
  match proto with
  | .tcp => { p with tcp := p.tcp.set i v }
  | .udp => { p with udp := p.udp.set i v }

def tmPortInRange (cfg : BrokerCfg) (port : ℕ) : Bool :=
  cfg.publicPortStart ≤ port && port ≤ cfg.publicPortEnd

/-- `tm_port_alloc`; 0 is its failure, and `ports_used` is a `uint16_t`. -/
def tmPortAlloc (cfg : BrokerCfg) (proto : Proto) (prefer : ℕ) (p : Ports) : ℕ × Ports :=
  let n := cfg.publicPortEnd - cfg.publicPortStart + 1
  let take (i : ℕ) (p : Ports) : Ports :=
    { p.set proto i true with used := (p.used + 1) % 2 ^ 16 }
  if p.used ≥ n * 2 then (0, p)
  else if prefer ≠ 0 && tmPortInRange cfg prefer &&
      !(p.table proto).getD (prefer - cfg.publicPortStart) false then
    (prefer, take (prefer - cfg.publicPortStart) p)
  else
    match ((List.range n).map fun i => (p.cursor + i) % n).find?
        fun i => !(p.table proto).getD i false with
    | none => (0, p)
    | some i => (cfg.publicPortStart + i, { take i p with cursor := (i + 1) % n })

def tmPortFree (cfg : BrokerCfg) (proto : Proto) (port : ℕ) (p : Ports) : Ports :=
  if !tmPortInRange cfg port then p
  else
    let i := port - cfg.publicPortStart
    let used := if (p.table proto).getD i false then (p.used + 2 ^ 16 - 1) % 2 ^ 16 else p.used
    { p.set proto i false with used := used }

/-! ## Listeners -/

/-- `tm_tunnel_listener_start`; `bound` says whether binding and listening succeed. -/
def tmTunnelListenerStart (bound : Bool) (t : Tunnel) : Tunnel :=
  if t.proto ≠ .tcp ∨ t.listenerOpen then t
  else if t.closed then t
  else if t.deleting then t
  else if t.listenerClosing then { t with listenerRestartPending := true }
  else { t with inits := t.listener :: t.inits, listener := .live, listenerOpen := bound }

def tmTunnelListenerStop (t : Tunnel) : Tunnel :=
  let t := { t with listenerRestartPending := false }
  if t.listenerOpen then
    { t with
      closeRefs := t.closeRefs + 1
      listenerClosing := true
      listener := .closing
      listenerOpen := false }
  else t

/-- `tunnel_listener_closed`, up to the freeing of the tunnel. -/
def tunnelListenerClosed (bound : Bool) (t : Tunnel) : Tunnel :=
  let t := { t with listener := .closed, listenerClosing := false, closeRefs := t.closeRefs - 1 }
  if t.deleting then t
  else if t.listenerRestartPending then
    tmTunnelListenerStart bound { t with listenerRestartPending := false }
  else t

/-- `tm_udp_start`; `bound` says whether binding and the start of receiving succeed. -/
def tmUdpStart (bound : Bool) (t : Tunnel) : Tunnel :=
  if t.proto ≠ .udp ∨ t.udpOpen then t
  else { t with inits := t.udpSock :: t.inits, udpSock := .live, udpOpen := bound }

def tmUdpStop (t : Tunnel) : Tunnel :=
  let t :=
    if t.udpOpen then
      { t with
        closeRefs := t.closeRefs + 1
        udpClosing := t.udpClosing + 1
        udpSock := .closing
        udpOpen := false }
    else t
  { t with udp := Udp.tmUdpStop t.udp }

/-- `tunnel_udp_closed`, up to the freeing of the tunnel. A handle that was initialised again
before this callback is not closed by it. -/
def tunnelUdpClosed (t : Tunnel) : Tunnel :=
  { t with
    udpClosing := t.udpClosing - 1
    udpSock := if t.udpSock = .closing ∧ t.udpClosing = 1 then .closed else t.udpSock
    closeRefs := t.closeRefs - 1 }

/-- The end of the close callbacks: a deleted tunnel goes with its last one. -/
def freeTunnel (t : Ref) (b : Broker) : Broker :=
  match Table.get t b.tunnels with
  | none => b
  | some x =>
    if x.deleting && x.closeRefs = 0 then
      { b with tunnels := Table.del t b.tunnels, released := x :: b.released }
    else b

/-! ## Streams -/

/-- The id made from a counter. -/
def sidOf (counter : ℕ) : ℕ :=
  let id := counter &&& 0x7FFFFFFF
  if id = 0 then 1 else id

def tmStreamFind (t : Ref) (id : ℕ) (b : Broker) : Option Stream :=
  b.streams.find? fun st => st.tun = t && st.id = id

/-- What both functions that make a stream begin with. -/
def streamsFull (t : Tunnel) (b : Broker) : Bool :=
  b.streamCount ≥ b.cfg.maxStreams || t.streamsActive ≥ b.cfg.maxStreamsPerTunnel

/-- What both end with: the stream is put in front of its tunnel's list. -/
def streamLink (t : Ref) (id : ℕ) (sock : Sock) (s : Duplex.Stream) (b : Broker) :
    Stream × Broker :=
  let st : Stream := { ref := b.nextRef, id := id, tun := t, sockA := sock, relay := { s := s } }
  (st, { b.updTun t (fun t => { t with streamsActive := t.streamsActive + 1 }) with
    streams := st :: b.streams
    streamCount := b.streamCount + 1
    nextRef := b.nextRef + 1 })

def tmStreamCreateOpen (t : Tunnel) (b : Broker) : Option (Stream × Broker) :=
  if streamsFull t b then none
  else
    some (streamLink t.ref (sidOf b.sidCounter) .listener Relay.createdOpen
      { b with sidCounter := (b.sidCounter + 1) % 2 ^ 64 })

def tmStreamCreateClosed (t : Tunnel) (c : Ref) (b : Broker) : Option (Stream × Broker) :=
  if streamsFull t b then none
  else
    some (streamLink t.ref (sidOf b.sidCounter2) (.conn c) (Relay.createdClosed c)
      { b with sidCounter2 := (b.sidCounter2 + 1) % 2 ^ 64 })

/-- `tm_stream_close`: both legs are closed and the stream is unlinked. -/
def tmStreamClose (st : Ref) (b : Broker) : Broker :=
  match Table.get st b.streams with
  | none => b
  | some x =>
    { (b.noteClosed x.ios x.socks).updTun x.tun (fun t =>
        if 0 < t.streamsActive then { t with streamsActive := t.streamsActive - 1 } else t) with
      streams := Table.del st b.streams
      streamCount := b.streamCount - 1 }

/-- The io objects a relay step has closed: a pointer to one becomes NULL. -/
def Stream.closedBy (x : Stream) (s : Duplex.Stream) : List IoRef :=
  (if s.a.io = none then (x.io .a).toList else []) ++
    if s.b.io = none then (x.io .b).toList else []

/-- The raw io that `tm_stream_relay_start` makes over the consumer's socket. -/
def Stream.madeBy (x : Stream) (s : Duplex.Stream) : List IoRef :=
  if x.relay.s.a.io = none ∧ s.a.io ≠ none then [.raw x.ref] else []

/-- A relay step of a stream, which may close it. -/
def relayStep (st : Ref) (l : Relay.Label) (b : Broker) : Option Broker :=
  match Table.get st b.streams with
  | none => none
  | some x =>
    (Relay.step x.relay l).map fun c =>
      if c.s.closing then tmStreamClose st b
      else { b.noteClosed (x.closedBy c.s) [] with
        streams := Table.upd st (fun x => { x with relay := c }) b.streams
        ioMade := x.madeBy c.s ++ b.ioMade }

/-! ## Agents -/

def tmAgentDrop (a : Ref) (b : Broker) : Broker :=
  match Table.get a b.agents with
  | none => b
  | some x =>
    { (b.noteClosed [.ssl x.conn] [x.conn]).updTun x.tun (fun t =>
        if t.agent = some a then { t with agent := none, agentOnline := false } else t) with
      agents := Table.del a b.agents }

/-- `tm_agent_send_frame`; `taken` says whether the agent's io takes the frame. -/
def tmAgentSendFrame (a : Ref) (type : MsgType) (sid : ℕ) (taken : Bool) (b : Broker) : Broker :=
  match Table.get a b.agents with
  | none => b
  | some x =>
    if taken then b.log { conn := x.conn, type := type, streamId := sid } else tmAgentDrop a b

/-! ## The public listener -/

def rateFind (ip : Addr) (b : Broker) : AcceptRate × Broker :=
  match b.acceptRates.find? (tmAddrEqIp ·.ip ip) with
  | some r => (r, b)
  | none =>
    let r : AcceptRate := { ref := b.nextRef, ip := ip, winStart := b.now }
    (r, { b with acceptRates := r :: b.acceptRates, nextRef := b.nextRef + 1 })

def rateCleanup (b : Broker) : Broker :=
  { b with acceptRates := b.acceptRates.filter fun r =>
      !(b.now - r.winStart > 60000 && r.count = 0) }

def rateAllow (ip : Addr) (b : Broker) : Bool × Broker :=
  let (r, b) := rateFind ip b
  let r' := if b.now - r.winStart ≥ 1000 then { r with winStart := b.now, count := 0 } else r
  let b := { b with acceptRates := Table.upd r.ref (fun _ => r') b.acceptRates }
  if r'.count ≥ b.cfg.connectRatePerIp then (false, b)
  else
    let rates := Table.upd r.ref (fun r => { r with count := r.count + 1 }) b.acceptRates
    (true, rateCleanup { b with acceptRates := rates })

/-- `on_public_accept` for a connection from `peer`. -/
def onPublicAccept (t : Tunnel) (peer : Addr) (taken : Bool) (b : Broker) : Broker :=
  if b.shuttingDown || !t.enabled then b
  else
    let (ok, b) := rateAllow peer b
    if !ok || !t.agentOnline then b
    else
      match tmStreamCreateOpen t b with
      | none => b
      | some (st, b) =>
        if t.proto = .udp then tmStreamClose st.ref b
        else
          match t.agent with
          | none => b
          | some a => tmAgentSendFrame a .openStream st.id taken b

/-! ## Creation and deletion -/

/-- Starts the listener or the UDP socket. -/
def tunnelStart (bound : Bool) (t : Tunnel) : Tunnel :=
  if t.proto = .tcp then tmTunnelListenerStart bound t else tmUdpStart bound t

/-- `tm_tunnel_create`; `none` is its NULL. -/
def tmTunnelCreate (id : Bytes) (proto : Proto) (closed : Bool) (agentHmac tokenHmac : Bytes)
    (prefer : ℕ) (bound : Bool) (b : Broker) : Option Tunnel × Broker :=
  if b.shuttingDown then (none, b)
  else if b.tunnelCount ≥ b.cfg.maxTunnels then (none, b)
  else if (tmTunnelFind id b).isSome then (none, b)
  else if id.length > tmTunnelIdLen then (none, b)
  else
    let needsPublicPort := !(closed && proto = .tcp)
    let (port, ports) :=
      if needsPublicPort then tmPortAlloc b.cfg proto prefer b.ports else (0, b.ports)
    if needsPublicPort && port = 0 then (none, { b with ports := ports })
    else
      let t := tunnelStart bound
        { ref := b.nextRef, id := id, proto := proto, closed := closed, publicPort := port,
          agentSecretHmac := agentHmac.take 64, sharedTokenHmac := tokenHmac.take 64 }
      (some t, { b with
        ports := ports
        tunnels := t :: b.tunnels
        tunnelCount := b.tunnelCount + 1
        nextRef := b.nextRef + 1 })

/-- Closes the streams of a tunnel. -/
def closeStreams (t : Ref) (b : Broker) : Broker :=
  (b.streams.filter (·.tun = t)).foldl (fun b st => tmStreamClose st.ref b) b

def dropAgentOf (t : Ref) (b : Broker) : Broker :=
  match (Table.get t b.tunnels).bind Tunnel.agent with
  | none => b
  | some a => tmAgentDrop a b

def tmTunnelTeardown (t : Tunnel) (b : Broker) : Broker :=
  let b := b.updTun t.ref (if t.proto = .tcp then tmTunnelListenerStop else tmUdpStop)
  let b := closeStreams t.ref (dropAgentOf t.ref b)
  { b with ports := tmPortFree b.cfg t.proto t.publicPort b.ports }

/-- `tm_tunnel_delete` of a tunnel that was found. Nothing in the teardown reads `deleting`. -/
def tmTunnelDelete (t : Tunnel) (b : Broker) : Broker :=
  let b := (tmTunnelTeardown t b).updTun t.ref fun t =>
    { t with deleting := true, registered := false }
  freeTunnel t.ref { b with tunnelCount := b.tunnelCount - 1 }

end TunnelMate
