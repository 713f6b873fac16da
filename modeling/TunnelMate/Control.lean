import TunnelMate.Broker

/-!
# The control port

`control.c`: the frames of a connection decide its role. HELLO and then REGISTER makes it the agent
of a tunnel, HELLO and then AUTH an authenticated peer of a closed tunnel that may open a stream
with DATA_BIND(0), and DATA_BIND as the first frame the agent leg of a pending stream.

A write to a connection is taken, refused, or breaks the connection, in which case its error
callback has closed it before the write returns.
-/

namespace TunnelMate

inductive Write
  | taken | refused | broken
  deriving DecidableEq

def tmMaxPendingConns : ℕ := 4096

/-- `conn_unlink`, and the end of the connection's timer. -/
def connUnlink (c : Ref) (b : Broker) : Broker :=
  { b with conns := Table.del c b.conns, timers := b.timers.filter (· ≠ c) }

/-- `conn_close`; on a connection that is closing or promoted it does nothing. -/
def connClose (c : Ref) (b : Broker) : Broker :=
  let gone := (b.conns.filter (·.ref = c)).map Conn.ref
  connUnlink c (b.noteClosed (gone.map .ssl) gone)

/-- `send_frame_raw` on a pending connection. -/
def sendFrameRaw (s : Sent) (w : Write) (b : Broker) : Broker :=
  match w with
  | .taken => b.log s
  | .refused => b.protocolError
  | .broken => connClose s.conn b

/-- An error reply, after which the connection is closed. -/
def sendAndClose (s : Sent) (w : Write) (b : Broker) : Broker :=
  connClose s.conn (sendFrameRaw s w b)

def onControlAccept (b : Broker) : Broker :=
  if b.shuttingDown || b.conns.length ≥ tmMaxPendingConns then b
  else
    { b with
      conns := { ref := b.nextRef } :: b.conns
      nextRef := b.nextRef + 1
      timers := b.nextRef :: b.timers
      ioMade := .ssl b.nextRef :: b.ioMade }

variable (digest : Bytes → Digest)

/-- The hex text a secret is compared by. -/
def hexOf (secret : Bytes) : Bytes := toHex (digest secret).toList

/-! ## Agents -/

/-- A new agent takes the place of the tunnel's old one. -/
def agentReplace (t : Tunnel) (b : Broker) : Broker :=
  match t.agent with
  | none => b
  | some old => tmAgentDrop old { b with agentReconnects := b.agentReconnects + 1 }

def agentAdd (c t : Ref) (b : Broker) : Broker :=
  { b.updTun t (fun t => { t with agent := some b.nextRef, agentOnline := true }) with
    agents := { ref := b.nextRef, tun := t, conn := c } :: b.agents
    nextRef := b.nextRef + 1 }

/-- The promotion at the end of `agent_register`. A write that breaks the connection has freed the
new agent, io and socket; the code goes on, reads the freed record and unlinks the connection, and
there is no result. -/
def agentPromote (c : Conn) (t : Tunnel) (w : Write) (b : Broker) : Option Broker :=
  let b := agentAdd c.ref t.ref (agentReplace t b)
  match w with
  | .taken => some (connUnlink c.ref (b.log { conn := c.ref, type := .registerOk }))
  | .refused => some (connUnlink c.ref b.protocolError)
  | .broken => none

def agentRegister (c : Conn) (f : Frame) (w : Write) (b : Broker) : Option Broker :=
  match credSplit f.payload with
  | none => some (sendAndClose { conn := c.ref, type := .registerError, msg := "bad register" } w b)
  | some cr =>
    match (tmTunnelFind (cStr cr.id) b).filter fun t =>
        t.enabled && tmCtEqHex (hexOf digest cr.secret) t.agentSecretHmac with
    | none =>
      some (sendAndClose { conn := c.ref, type := .registerError, msg := "bad credentials" } w
        b.failedAuth)
    | some t => agentPromote c t w b

/-- A frame of an agent, `agent_conn_read`. An agent that its own PONG has dropped is still read. -/
def agentFrame (a : Agent) (f : Frame) (taken : Bool) (b : Broker) : Option Broker :=
  match f.type with
  | .ping => if taken then some (b.log { conn := a.conn, type := .pong }) else none
  | .openStreamError | .closeStream | .killStream =>
    match tmStreamFind a.tun f.streamId b with
    | none => some b
    | some st => some (tmStreamClose st.ref b)
  | _ => some b

/-! ## Peers of closed tunnels -/

def Tunnel.usable (t : Tunnel) : Bool := t.closed && t.enabled && t.sharedTokenHmac ≠ []

def peerAuth (c : Conn) (f : Frame) (w : Write) (b : Broker) : Broker :=
  match credSplit f.payload with
  | none =>
    sendAndClose { conn := c.ref, type := .authError, msg := "bad credentials" } w b.failedAuth
  | some cr =>
    match (tmTunnelFind (cStr cr.id) b).filter fun t =>
        t.usable && tmCtEqHex (hexOf digest cr.secret) t.sharedTokenHmac with
    | none =>
      sendAndClose { conn := c.ref, type := .authError, msg := "bad credentials" } w b.failedAuth
    | some t =>
      sendFrameRaw { conn := c.ref, type := .authOk } w
        (b.updConn c.ref fun c => { c with peerAuthed := true, peerTun := some t.ref })

/-- DATA_BIND_OK to a peer goes out on leg A, whose error callback is the relay's by now. -/
def peerBindOk (c : Conn) (st : Stream) (w : Write) (b : Broker) : Option Broker :=
  match w with
  | .taken => some (b.log { conn := c.ref, type := .dataBindOk })
  | .refused => some b.protocolError
  | .broken => relayStep st.ref (.error .a) b

/-- The agent is asked for a data connection, and the pending connection is gone. -/
def peerHandOver (c : Conn) (t : Tunnel) (st : Stream) (taken : Bool) (b : Broker) : Broker :=
  connUnlink c.ref <| match t.agent with
    | none => b
    | some a => tmAgentSendFrame a .openStream st.id taken b

def peerOpenStream (c : Conn) (t : Tunnel) (w : Write) (taken : Bool) (b : Broker) :
    Option Broker :=
  let fail (msg : String) : Option Broker :=
    some (sendAndClose { conn := c.ref, type := .dataBindError, msg := msg } w b)
  if !t.agentOnline || t.agent = none then fail "tunnel offline"
  else if (b.streams.filter fun st => st.tun = t.ref && !st.relay.s.bound).length ≥
      b.cfg.maxPendingStreams then fail "no capacity"
  else
    match tmStreamCreateClosed t c.ref b with
    | none => fail "no capacity"
    | some (st, b) => (peerBindOk c st w b).map (peerHandOver c t st taken)

/-- `peer_frame`; it has no result where it would use a tunnel that is gone. -/
def peerFrame (c : Conn) (f : Frame) (w : Write) (taken : Bool) (b : Broker) : Option Broker :=
  match f.type with
  | .dataBind =>
    if f.streamId = 0 then
      match c.peerTun with
      | none =>
        some (sendAndClose { conn := c.ref, type := .dataBindError, msg := "tunnel offline" } w b)
      | some t => (Table.get t b.tunnels).bind fun t => peerOpenStream c t w taken b
    else some (connClose c.ref b.protocolError)
  | .closeStream =>
    (c.peerTun.bind fun t => Table.get t b.tunnels).map fun t =>
      match tmStreamFind t.ref f.streamId b with
      | none => b
      | some st => tmStreamClose st.ref b
  | .ping => some (sendFrameRaw { conn := c.ref, type := .pong } w b)
  | _ => some (connClose c.ref b.protocolError)

/-! ## Data connections -/

/-- The search of `data_conn_first_frame` over all tunnels. -/
def findStream (id : ℕ) (b : Broker) : Option Stream :=
  (b.tunnels.filter (·.registered)).findSome? fun t => tmStreamFind t.ref id b

/-- How `data_conn_first_frame` goes on after a DATA_BIND_OK that has broken the connection:
`conn_close` has run, the stream is started with neither io nor socket on leg B, and the timer is
closed again. The second component lists the closes of timers. -/
def dataConnBroken (c : Conn) (st : Stream) (b : Broker) : Broker × List Ref :=
  let timers := (b.conns.filter (·.ref = c.ref)).map Conn.ref ++ [c.ref]
  let b := connClose c.ref b
  let relay := st.relay.push (Relay.tmStreamRelayStart st.relay.s)
  ({ b.updStream st.ref fun x => { x with relay := relay } with
    ioMade := st.madeBy relay.s ++ b.ioMade }, timers)

/-- The promotion at the end of `data_conn_first_frame`. The process stops at the second close of a
timer (`dataConnBroken`), so a write that breaks the connection has no result. -/
def dataConnAttach (c : Conn) (st : Stream) (w : Write) (b : Broker) : Option Broker :=
  match w with
  | .broken => none
  | _ =>
    let b := if w = .taken then b.log { conn := c.ref, type := .dataBindOk, streamId := st.id }
      else b.protocolError
    (relayStep st.ref (.attach (.ssl c.ref)) b).map fun b =>
      connUnlink c.ref (b.updStream st.ref fun x => { x with sockB := some c.ref })

def dataConnFirstFrame (c : Conn) (f : Frame) (w : Write) (b : Broker) : Option Broker :=
  if f.streamId = 0 ∨ f.payload = [] ∨ f.payload.length > tmMaxSecret then
    some (connClose c.ref b.protocolError)
  else
    let fail (msg : String) (b : Broker) : Option Broker :=
      some (sendAndClose
        { conn := c.ref, type := .dataBindError, streamId := f.streamId, msg := msg } w b)
    match findStream f.streamId b with
    | none => fail "no such stream" b
    | some st =>
      match Table.get st.tun b.tunnels with
      | none => none
      | some t =>
        if st.relay.s.bound || !t.enabled then fail "no such stream" b
        else if !tmCtEqHex (hexOf digest f.payload) t.agentSecretHmac then
          fail "bad credentials" b.failedAuth
        else dataConnAttach c st w b

/-! ## The dispatch -/

def connFrame (c : Conn) (f : Frame) (w : Write) (taken : Bool) (b : Broker) : Option Broker :=
  if !c.gotHello then
    match f.type with
    | .hello =>
      some (sendFrameRaw { conn := c.ref, type := .helloAck } w
        (b.updConn c.ref fun c => { c with gotHello := true }))
    | .dataBind => dataConnFirstFrame digest c f w b
    | _ => some (connClose c.ref b.protocolError)
  else if c.peerAuthed then peerFrame c f w taken b
  else
    match f.type with
    | .register => agentRegister digest c f w b
    | .auth => some (peerAuth digest c f w b)
    | .ping => some (sendFrameRaw { conn := c.ref, type := .pong } w b)
    | _ => some (connClose c.ref b.protocolError)

/-! ## Shutdown -/

/-- `tm_control_goaway_all`; `refused` are the agents whose io refuses the frame. -/
def tmControlGoawayAll (refused : List Ref) (b : Broker) : Broker :=
  (b.tunnels.filter (·.registered)).foldl (fun b t =>
    match t.agent with
    | none => b
    | some a => tmAgentSendFrame a .goingAway 0 (a ∉ refused) b) b

def tmControlCloseAll (b : Broker) : Broker :=
  let b := (b.tunnels.filter (·.registered)).foldl (fun b t => dropAgentOf t.ref b) b
  b.conns.foldl (fun b c => connClose c.ref b) b

end TunnelMate
