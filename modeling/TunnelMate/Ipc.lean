import TunnelMate.Control

/-!
# The broker's IPC operations, and its runs

`ipc.c` behind the JSON parsing: an operation with the fields it found, whose strings are C strings.
Operations that only report (`health`, `get_status`, `get_tunnels`, `reload`) leave the state alone.
Then the events of the whole broker: what arrives on its connections, the callbacks of its handles,
the operations, and shutdown.
-/

namespace TunnelMate

structure CreateReq where
  tunnelId : Bytes
  proto : Proto
  closed : Bool
  agentSecret : Option Bytes := none
  sharedToken : Option Bytes := none
  agentSecretHmac : Option Bytes := none
  sharedTokenHmac : Option Bytes := none
  preferPort : ℕ := 0
  deriving DecidableEq

inductive IpcOp
  /-- `rand` and `rand'` are what `tm_rand_token` generates, `bound` how binding the socket ends. -/
  | createTunnel (r : CreateReq) (rand rand' : Bytes) (bound : Bool)
  | deleteTunnel (id : Bytes)
  | disableTunnel (id : Bytes)
  | enableTunnel (id : Bytes) (bound : Bool)
  | rotateAgentSecret (id : Bytes) (secret : Option Bytes) (rand : Bytes)
  | rotateSharedToken (id : Bytes) (secret : Option Bytes) (rand : Bytes)
  | killStream (id : Bytes) (streamId : ℕ)
  deriving DecidableEq

inductive IpcReply
  | ok
  | created (tunnelId : Bytes) (publicPort : ℕ) (agentSecret agentSecretHmac sharedToken
      sharedTokenHmac : Bytes)
  | rotated (secret secretHmac : Bytes)
  | error (msg : String)
  deriving DecidableEq

/-- A secret that was given and is not empty, cut to its buffer, or else a generated one. -/
def secretOr (given : Option Bytes) (rand : Bytes) : Bytes :=
  match given with
  | some s => if s = [] then rand else s.take tmMaxSecret
  | none => rand

variable (digest : Bytes → Digest)

def createTunnel (r : CreateReq) (rand rand' : Bytes) (bound : Bool) (b : Broker) :
    Broker × IpcReply :=
  if r.tunnelId.length = 0 ∨ r.tunnelId.length > tmTunnelIdLen then
    (b, .error "bad tunnel_id length")
  else if (tmTunnelFind r.tunnelId b).isSome then (b, .error "tunnel already exists")
  else
    let agentSecret := secretOr r.agentSecret rand
    let token := if r.closed then secretOr r.sharedToken rand' else []
    let (agentSecret, agentHmac) :=
      match r.agentSecretHmac.filter (·.length = 64) with
      | some h => ([], h)
      | none => (agentSecret, hexOf digest agentSecret)
    let (token, tokenHmac) :=
      match r.sharedTokenHmac.filter (·.length = 64) with
      | some h => ([], h)
      | none => if token ≠ [] then (token, hexOf digest token) else (token, [])
    match tmTunnelCreate r.tunnelId r.proto r.closed agentHmac tokenHmac (r.preferPort % 2 ^ 16)
        bound b with
    | (none, b) => (b, .error "create failed")
    | (some t, b) => (b, .created t.id t.publicPort agentSecret agentHmac token tokenHmac)

def disableTunnel (t : Tunnel) (b : Broker) : Broker :=
  let b := dropAgentOf t.ref (b.updTun t.ref fun t => { t with enabled := false })
  b.updTun t.ref fun t => tmUdpStop (tmTunnelListenerStop t)

def enableTunnel (t : Tunnel) (bound : Bool) (b : Broker) : Broker :=
  b.updTun t.ref fun t => tunnelStart bound { t with enabled := true }

/-- Operations on one tunnel look it up first. -/
def withTunnel (id : Bytes) (b : Broker) (f : Tunnel → Broker × IpcReply) : Broker × IpcReply :=
  match tmTunnelFind id b with
  | none => (b, .error "tunnel not found")
  | some t => f t

def ipcHandleOp (b : Broker) : IpcOp → Broker × IpcReply
  | .createTunnel r rand rand' bound => createTunnel digest r rand rand' bound b
  | .deleteTunnel id => withTunnel id b fun t => (tmTunnelDelete t b, .ok)
  | .disableTunnel id => withTunnel id b fun t =>
    if !t.enabled then (b, .error "already disabled") else (disableTunnel t b, .ok)
  | .enableTunnel id bound => withTunnel id b fun t =>
    if t.enabled then (b, .error "already enabled") else (enableTunnel t bound b, .ok)
  | .rotateAgentSecret id secret rand => withTunnel id b fun t =>
    let secret := secretOr secret rand
    let hex := hexOf digest secret
    (dropAgentOf t.ref (b.updTun t.ref fun t => { t with agentSecretHmac := hex }),
      .rotated secret hex)
  | .rotateSharedToken id secret rand => withTunnel id b fun t =>
    let secret := secretOr secret rand
    let hex := hexOf digest secret
    (b.updTun t.ref fun t => { t with sharedTokenHmac := hex }, .rotated secret hex)
  | .killStream id streamId => withTunnel id b fun t =>
    match tmStreamFind t.ref streamId b with
    | none => (b, .error "stream not found")
    | some st => (tmStreamClose st.ref b, .ok)

/-! ## Shutdown -/

def tmBrokerShutdown (refused : List Ref) (b : Broker) : Broker :=
  if b.shuttingDown then b else tmControlGoawayAll refused { b with shuttingDown := true }

/-- One tunnel in the loop of `broker_cleanup`; here it leaves the registry at once. -/
def cleanupTunnel (b : Broker) (r : Ref) : Broker :=
  match Table.get r b.tunnels with
  | none => b
  | some t => (tmTunnelTeardown t b).updTun t.ref fun t => { t with registered := false }

def brokerCleanup (b : Broker) : Broker :=
  if b.cleanedUp then b
  else
    let b := tmControlCloseAll { b with cleanedUp := true }
    ((b.tunnels.filter (·.registered)).map Tunnel.ref).foldl cleanupTunnel b

/-! ## Runs -/

inductive BrokerEvent
  | tick (now loop : ℕ)
  | controlAccept
  /-- A frame of a pending connection; how the writes to it and to an agent end. -/
  | connFrame (c : Ref) (f : Frame) (w : Write) (taken : Bool)
  /-- The end of a pending connection: EOF, an error, a timeout or a malformed frame. -/
  | connEnd (c : Ref) (malformed : Bool)
  | agentFrame (a : Ref) (f : Frame) (taken : Bool)
  /-- The end of an agent: EOF, an error, its idle timeout or a malformed frame. -/
  | agentEnd (a : Ref)
  /-- The PING of `tm_agent_tick`. -/
  | agentPing (a : Ref) (taken : Bool)
  | publicAccept (t : Ref) (peer : Addr) (taken : Bool)
  /-- A callback of a stream's legs or timer, or the rest of one. -/
  | relay (st : Ref) (l : Relay.Label)
  | listenerClosed (t : Ref) (bound : Bool)
  | udpClosed (t : Ref)
  | udp (t : Ref) (ev : Udp.Event)
  | ipc (op : IpcOp)
  | shutdown (refused : List Ref)
  | cleanup
  deriving DecidableEq

/-- The attachment and the closing of a stream are calls of the broker. -/
def Relay.Label.callback : Relay.Label → Bool
  | .attach _ => false
  | .close => false
  | _ => true

/-- No stream but `st` is in the middle of a call. -/
def Broker.quiet (st : Option Ref) (b : Broker) : Bool :=
  b.streams.all fun x => some x.ref = st || x.relay.todo = []

def Tunnel.creds (t : Tunnel) : Udp.Creds :=
  { closed := t.closed, agentSecretHmac := t.agentSecretHmac, sharedTokenHmac := t.sharedTokenHmac }

/-- An event of a tunnel's UDP plane. Datagrams arrive while the socket is open. -/
def udpEvent (t : Tunnel) (ev : Udp.Event) (b : Broker) : Option Broker :=
  match ev with
  | .stop => none
  | .packet .. =>
    if !t.udpOpen || b.shuttingDown || !t.enabled then none else run
  | _ => run
where
  run : Option Broker :=
    (Udp.step b.cfg digest t.udp { now := b.now, loop := b.loop, creds := t.creds, ev := ev }).map
      fun p => b.updTun t.ref fun t => { t with udp := p }

/-- What an event does to the broker, if it can happen. -/
def handleEvent (b : Broker) : BrokerEvent → Option Broker
  | .tick now loop =>
    if b.now ≤ now ∧ b.loop ≤ loop ∧ loop ≤ now then some { b with now := now, loop := loop }
    else none
  | .controlAccept => some (onControlAccept b)
  | .connFrame c f w taken => (Table.get c b.conns).bind fun c => connFrame digest c f w taken b
  | .connEnd c malformed =>
    (Table.get c b.conns).map fun c =>
      connClose c.ref (if malformed then b.protocolError else b)
  | .agentFrame a f taken => (Table.get a b.agents).bind fun a => agentFrame a f taken b
  | .agentEnd a => some (tmAgentDrop a b)
  | .agentPing a taken => some (tmAgentSendFrame a .ping 0 taken b)
  | .publicAccept t peer taken =>
    (Table.get t b.tunnels).bind fun t =>
      if t.listenerOpen then some (onPublicAccept t peer taken b) else none
  | .relay st l => if l.callback then relayStep st l b else none
  | .listenerClosed t bound =>
    (Table.get t b.tunnels).bind fun t =>
      if t.listenerClosing then
        some (freeTunnel t.ref (b.updTun t.ref (tunnelListenerClosed bound)))
      else none
  | .udpClosed t =>
    (Table.get t b.tunnels).bind fun t =>
      if 0 < t.udpClosing then some (freeTunnel t.ref (b.updTun t.ref tunnelUdpClosed)) else none
  | .udp t ev => (Table.get t b.tunnels).bind fun t => udpEvent digest t ev b
  | .ipc op => some (ipcHandleOp digest b op).1
  | .shutdown refused => some (tmBrokerShutdown refused b)
  | .cleanup => if b.shuttingDown then some (brokerCleanup b) else none

/-- The loop is single-threaded: while a stream is in the middle of a call, only what that call
leads to can happen. -/
def brokerStep (b : Broker) (e : BrokerEvent) : Option Broker :=
  let st := match e with
    | .relay st _ => some st
    | _ => none
  if b.quiet st then handleEvent digest b e else none

/-- The broker as `main` starts it. -/
def BrokerInit (b : Broker) : Prop :=
  ∃ cfg : BrokerCfg, cfg.publicPortStart ≤ cfg.publicPortEnd ∧
    b = { cfg := cfg, ports :=
      { tcp := List.replicate (cfg.publicPortEnd - cfg.publicPortStart + 1) false,
        udp := List.replicate (cfg.publicPortEnd - cfg.publicPortStart + 1) false } }

end TunnelMate
