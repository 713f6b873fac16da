import TunnelMate.Ipc
import TunnelMate.Reader

/-!
# Reading the control port

`control.c` below the frames: the read loops of a pending connection and of an agent, with the frame
reader that a promotion hands from the one to the other, and the handshake timer. The frames go to
the broker's functions; here every use of an agent is a lookup in the table from which
`tm_agent_drop` removes it, and a function has no result where a lookup fails.
-/

namespace TunnelMate

/-- What a connection of the control port has besides its `Conn`; an agent promoted from it has
taken the frame reader over. -/
structure Line where
  ref : Ref
  fr : Bytes := []
  /-- The time the started `hs_timer` is due. -/
  hsTimer : Option ℕ
  /-- The TLS handshake is complete. -/
  ready : Bool := false

instance : Keyed Line := ⟨Line.ref⟩

/-- The broker with the lines of all the connections there have been. -/
structure ControlPort where
  broker : Broker
  lines : List Line := []

/-- When a timer started at the loop time `loop` is due; `uv_timer_start` does not let it wrap. -/
def uvTimerDue (loop : ℕ) (timeoutMs : ℤ) : ℕ := min (loop + toU64 timeoutMs) (2 ^ 64 - 1)

namespace ControlPort

variable (s : ControlPort)

def updLine (c : Ref) (f : Line → Line) : ControlPort := { s with lines := Table.upd c f s.lines }

/-- The buffer of the frame reader of a connection. -/
def reader (c : Ref) : Bytes := ((Table.get c s.lines).map Line.fr).getD []

/-- `tm_frame_reader_feed` on that reader. -/
def feed (c : Ref) (data : Bytes) : ControlPort × Fed :=
  let (fr, fed) := tmFrameReaderFeed (s.reader c) data
  (s.updLine c fun l => { l with fr := fr }, fed)

/-- The time a connection's timer is due, if it is armed. A connection that leaves the pending ones
has its timer stopped. -/
def armed (c : Ref) : Option ℕ :=
  if c ∈ s.broker.timers then (Table.get c s.lines).bind Line.hsTimer else none

/-! ## Connections -/

/-- `on_control_accept`, with the timer and the reader of the new connection. -/
def onControlAccept : ControlPort :=
  if s.broker.shuttingDown || s.broker.conns.length ≥ tmMaxPendingConns then s
  else
    { broker := TunnelMate.onControlAccept s.broker
      lines :=
        { ref := s.broker.nextRef
          hsTimer := some (uvTimerDue s.broker.loop s.broker.cfg.handshakeTimeoutMs) } :: s.lines }

/-- `conn_ready`. -/
def connReady (c : Ref) : ControlPort :=
  s.updLine c fun l => { l with hsTimer := none, ready := true }

/-- `conn_hs_timeout`; the timer does not repeat. -/
def connHsTimeout (c : Ref) : ControlPort :=
  { s.updLine c (fun l => { l with hsTimer := none }) with broker := connClose c s.broker }

section

variable (digest : Bytes → Digest)

/-- How the writes that a frame of a pending connection leads to end. -/
abbrev FrameWrites := Write × Bool

/-- The loop of `conn_read`. It ends when the connection is closed or its reader has another
owner. -/
def connLoop (c : Ref) : ℕ → Fed → List FrameWrites → ControlPort → Option ControlPort
  | _, .none, _, s => some s
  | _, .errored, _, s => some { s with broker := connClose c s.broker.protocolError }
  | 0, .frame _, _, _ => none
  | n + 1, .frame f, ws, s =>
    let w := ws.headD (.taken, true)
    (Table.get c s.broker.conns).bind fun x =>
      (connFrame digest x f w.1 w.2 s.broker).bind fun b =>
        let s := { s with broker := b }
        match Table.get c b.conns with
        | none => some s
        | some _ =>
          let (s, fed) := s.feed c []
          connLoop c n fed ws.tail s

def connRead (c : Ref) (data : Bytes) (ws : List FrameWrites) : Option ControlPort :=
  let (s, fed) := s.feed c data
  connLoop digest c ((s.reader c).length + 1) fed ws s

end

/-! ## Agents -/

/-- The `switch` of `agent_conn_read`. A PONG whose write fails or breaks the connection drops the
agent. -/
def agentSwitch (a : Ref) (f : Frame) (w : Write) (b : Broker) : Option Broker :=
  match f.type with
  | .ping => (Table.get a b.agents).map fun a => tmAgentSendFrame a.ref .pong 0 (w = .taken) b
  | .openStreamError | .closeStream | .killStream =>
    (Table.get a b.agents).map fun a =>
      match tmStreamFind a.tun f.streamId b with
      | none => b
      | some st => tmStreamClose st.ref b
  | _ => some b

/-- Its loop, which goes back to `a->fr` after every frame. -/
def agentLoop (a : Ref) : ℕ → Fed → List Write → ControlPort → Option ControlPort
  | _, .none, _, s => some s
  | _, .errored, _, s =>
    (Table.get a s.broker.agents).map fun a => { s with broker := tmAgentDrop a.ref s.broker }
  | 0, .frame _, _, _ => none
  | n + 1, .frame f, ws, s =>
    (agentSwitch a f (ws.headD .taken) s.broker).bind fun b =>
      (Table.get a b.agents).bind fun x =>
        let (s, fed) := feed { s with broker := b } x.conn []
        agentLoop a n fed ws.tail s

def agentConnRead (a : Ref) (data : Bytes) (ws : List Write) : Option ControlPort :=
  (Table.get a s.broker.agents).bind fun x =>
    let (s, fed) := s.feed x.conn data
    agentLoop a ((s.reader x.conn).length + 1) fed ws s

/-- The new agent answers REGISTER_OK and is logged, and the pending connection goes. -/
def agentAnswer (c a : Ref) (w : Write) (b : Broker) : Option Broker :=
  (Table.get a b.agents).bind fun x =>
    let b := match w with
      | .taken => b.log { conn := x.conn, type := .registerOk }
      | .refused => b.protocolError
      | .broken => tmAgentDrop x.ref b
    -- the log line reads `a->remote`
    (Table.get a b.agents).map fun _ => connUnlink c b

/-- The promotion at the end of `agent_register`. -/
def agentPromote (c : Conn) (t : Tunnel) (w : Write) (b : Broker) : Option Broker :=
  let replaced : Option Broker :=
    match t.agent with
    | none => some b
    | some old =>
      (Table.get old b.agents).map fun x =>
        tmAgentDrop x.ref { b with agentReconnects := b.agentReconnects + 1 }
  replaced.bind fun b => agentAnswer c.ref b.nextRef w (agentAdd c.ref t.ref b)

/-- The tunnel that a REGISTER names, if it also has its secret. -/
def registers (digest : Bytes → Digest) (f : Frame) (b : Broker) : Option Tunnel :=
  (credSplit f.payload).bind fun cr => (tmTunnelFind (cStr cr.id) b).filter fun t =>
    t.enabled && tmCtEqHex (hexOf digest cr.secret) t.agentSecretHmac

/-- `agent_register`. What it refuses it refuses before it has made an agent. -/
def agentRegister (digest : Bytes → Digest) (c : Conn) (f : Frame) (w : Write) (b : Broker) :
    Option Broker :=
  match registers digest f b with
  | none => TunnelMate.agentRegister digest c f w b
  | some t => agentPromote c t w b

/-! ## Runs -/

inductive Label
  | accept
  /-- The TLS handshake of a connection is complete. -/
  | ready (c : Ref)
  | hsTimeout (c : Ref)
  | read (c : Ref) (data : Bytes) (ws : List FrameWrites)
  | agentRead (a : Ref) (data : Bytes) (ws : List Write)
  /-- Everything that is not read from the control port. -/
  | other (e : BrokerEvent)
  deriving DecidableEq

/-- The events of the broker that the other labels stand for. -/
def reads : BrokerEvent → Bool
  | .controlAccept | .connFrame .. | .agentFrame .. => true
  | _ => false

def step (digest : Bytes → Digest) (s : ControlPort) : Label → Option ControlPort
  | .other e =>
    if reads e then none else (brokerStep digest s.broker e).map fun b => { s with broker := b }
  | l =>
    if !s.broker.quiet none then none
    else
      match l with
      | .accept => some s.onControlAccept
      | .ready c =>
        if Table.get c s.broker.conns ≠ none ∧ (Table.get c s.lines).any (!·.ready) then
          some (s.connReady c)
        else none
      | .hsTimeout c =>
        if (s.armed c).any (· ≤ s.broker.loop) then some (s.connHsTimeout c) else none
      | .read c data ws =>
        if Table.get c s.broker.conns ≠ none ∧ (Table.get c s.lines).any (·.ready) then
          s.connRead digest c data ws
        else none
      | .agentRead a data ws => s.agentConnRead a data ws
      | .other _ => none

def Init (s : ControlPort) : Prop := BrokerInit s.broker ∧ s.lines = []

end ControlPort

end TunnelMate
