import TunnelMate.AgentRelay
import TunnelMate.Reader
import TunnelMate.TmIo

/-!
# A TCP session of the peer

The peer's `tcp.c`: a connection of a local application is paired with a connection to the broker.
The session greets, authenticates and asks for a stream; behind DATA_BIND_OK it relays.

The callbacks of the relay are those of the agent but for `relay_broker_read`, and the session
closes as an agent stream does, so `AgentRelay` gives the rest. Leg A is the broker connection.
-/

namespace TunnelMate.Peer

open Duplex (Ans Config Leg Op tmStreamClose relayWrite)
open AgentRelay (Tail)

/-- What `tcp.c` reads of `tm_peer_cfg`. -/
structure Cfg where
  tunnelId : Bytes
  token : Bytes

/-- `tm_psess`. -/
structure Sess where
  /-- The connect of `broker_sock` has not been answered. -/
  brokerReq : Bool := true
  hsTimer : Bool := false
  gotHello : Bool := false
  fr : Bytes := []
  relay : Config Tail := { s := {} }
  -- what happened so far: the bytes the broker connection has delivered, the frames sent on it
  inp : Bytes := []
  out : List Frame := []

/-- `relay_broker_read`. -/
def relayBrokerRead (data : Bytes) (ans : Ans) (s : Duplex.Stream) :
    Duplex.Stream × List (Op Tail) :=
  if s.closing then (s, [])
  else if s.b.io = none then
    (if s.preq.length + data.length > tmIoHighWater then tmStreamClose s
      else { s with preq := s.preq ++ data }, [])
  else relayWrite .a data ans s

/-- `relay_local_read`. -/
def relayLocalRead (data : Bytes) (ans : Ans) (s : Duplex.Stream) :
    Duplex.Stream × List (Op Tail) :=
  if s.closing then (s, []) else relayWrite .b data ans s

def relayRead : Leg → Bytes → Ans → Duplex.Stream → Duplex.Stream × List (Op Tail)
  | .a => relayBrokerRead
  | .b => relayLocalRead

namespace Sess

/-- `tm_psess_close`. -/
def close (s : Sess) : Sess :=
  if s.relay.s.closing then s
  else { s with fr := [], relay := { s.relay with s := tmStreamClose s.relay.s } }

/-- `sess_send_frame`; `ok` says whether the broker connection takes the frame. -/
def sendFrame (f : Frame) (ok : Bool) (s : Sess) : Sess :=
  if s.relay.s.closing || s.relay.s.a.io.isNone then s
  else if !ok then s.close
  else { s with out := f :: s.out }

/-- `broker_connected`, with the answers of `SSL_new` and `tm_tls_configure_client_ssl`. -/
def brokerConnected (ok sslNew configured : Bool) (s : Sess) : Sess :=
  let s := { s with brokerReq := false }
  if s.relay.s.closing then s
  else if !ok then s.close
  else if !sslNew then s.close
  else if !configured then s.close
  else { s with relay := { s.relay with s.a.io := some (.ssl 0) }, hsTimer := true }

def sessHsTimeout (s : Sess) : Sess :=
  if !s.relay.s.bound && !s.relay.s.closing then s.close else s

/-- The relay has gone on to `c`. -/
def relayed (c : Config Tail) (s : Sess) : Sess :=
  { s with relay := c, fr := if c.s.closing && !s.relay.s.closing then [] else s.fr }

/-- `sess_pre_read` at DATA_BIND_OK. What the reader still holds is written to the new io, and the
answer not looked at; `uv` is that of `uv_write`. If it fails the error callback closes the session
and frees the buffer, which is then freed again: no result. -/
def bindOk (uv : Bool) (s : Sess) : Option Sess :=
  let lo := s.fr
  let (ans, _, cb) := TmIo.tcpWrite lo.length uv {}
  if lo ≠ [] ∧ cb = some .error then none
  else
    some { s with
      fr := [], hsTimer := false
      relay := { s.relay with
        s := { s.relay.s.noteRead .a lo with
          bound := true
          b := { s.relay.s.b with
            io := some .tcp
            shut := false
            acc := if ans = .ok then s.relay.s.b.acc ++ lo else s.relay.s.b.acc
            drained := lo.isEmpty } } } }

/-- What `sess_pre_read` does at a frame: it goes on to the next one, or returns. -/
inductive Next
  | go (s : Sess)
  | ret (s : Option Sess)

/-- The body of the loop of `sess_pre_read`. -/
def frame (cfg : Cfg) (f : Frame) (ok uv : Bool) (s : Sess) : Next :=
  match f.type with
  | .helloAck =>
    if s.gotHello then .go s
    else
      .go ({ s with gotHello := true }.sendFrame
        ⟨.auth, 0, wrU16 cfg.tunnelId.length ++ cfg.tunnelId ++ cfg.token⟩ ok)
  | .authOk => .go (if s.gotHello then s.sendFrame ⟨.dataBind, 0, []⟩ ok else s)
  | .dataBindOk => if f.streamId = 0 ∧ s.gotHello then .ret (s.bindOk uv) else .go s
  | .authError | .dataBindError | .goingAway | .error => .ret (some s.close)
  | _ => .go s

/-- The loop of `sess_pre_read`; `oks` are the answers to the frames it sends. A session that was
closed has no reader to go on with: no result. -/
def preLoop (cfg : Cfg) (uv : Bool) : ℕ → Fed → List Bool → Sess → Option Sess
  | _, .none, _, s => some s
  | _, .errored, _, s => some s.close
  | 0, .frame _, _, s => some s
  | n + 1, .frame f, oks, s =>
    match s.frame cfg f (oks.headD true) uv with
    | .ret r => r
    | .go s =>
      if s.relay.s.closing then none
      else
        let (fr, fed) := tmFrameReaderFeed s.fr []
        preLoop cfg uv n fed oks.tail { s with fr := fr }

/-- `sess_pre_read`. -/
def preRead (cfg : Cfg) (data : Bytes) (ans : Ans) (oks : List Bool) (uv : Bool) (s : Sess) :
    Option Sess :=
  let s := { s with inp := s.inp ++ data }
  if s.relay.s.bound then
    some (s.relayed (s.relay.push (relayBrokerRead data ans (s.relay.s.noteRead .a data))))
  else
    let (fr, fed) := tmFrameReaderFeed s.fr data
    preLoop cfg uv (fr.length + 1) fed oks { s with fr := fr }

/-- `sess_eof`. -/
def eof (s : Sess) : Sess :=
  if !s.relay.s.bound then s.close
  else s.relayed (s.relay.push (AgentRelay.relayBrokerEof s.relay.s))

end Sess

inductive Label
  | connected (ok sslNew configured : Bool)
  /-- `sess_ready`. -/
  | ready (ok : Bool)
  | hsTimer
  | preRead (data : Bytes) (ans : Ans) (oks : List Bool) (uv : Bool)
  | preEof
  | read (l : Leg) (data : Bytes) (ans : Ans)
  | eof (l : Leg)
  /-- `sess_error`, `relay_broker_error`, `relay_local_error`. -/
  | error (l : Leg)
  | low (l : Leg)
  | run (ans : Ans)
  /-- The output of a leg's io advances, or fills, without a callback. -/
  | drain (l : Leg) (v : Bool)
  /-- `tm_psess_close` at the end of the program. -/
  | close

/-- The data a label delivers from the broker. -/
def delivered : Label → Bytes
  | .read .a data _ => data
  | _ => []

/-- A callback of leg `l` may come. -/
def Sess.hears (l : Leg) (s : Sess) : Bool := s.relay.open && (s.relay.s.side l).io.isSome

/-- The relay's own part of a label; its callbacks on the broker leg are set at DATA_BIND_OK, but
for `relay_broker_low`. -/
def relayStep (s : Sess) : Label → Option (Config Tail)
  | .read l data ans =>
    if s.hears l && s.relay.s.bound then
      some (s.relay.push (relayRead l data ans (s.relay.s.noteRead l data)))
    else none
  | .eof l =>
    if s.hears l && s.relay.s.bound then some (s.relay.push (AgentRelay.relayEof l s.relay.s))
    else none
  | .error l =>
    if s.hears l then some { s.relay with s := tmStreamClose s.relay.s } else none
  | .low l => if s.hears l then some (s.relay.push (AgentRelay.relayLow l s.relay.s)) else none
  | .run ans => s.relay.run AgentRelay.tail ans
  | .drain l v =>
    if (s.relay.s.side l).io.isSome then
      some { s.relay with s := s.relay.s.upd (fun x => { x with drained := v }) l }
    else none
  | _ => none

def step (cfg : Cfg) (s : Sess) (i : Label) : Option Sess :=
  let framed := !s.relay.s.bound && s.relay.s.a.io.isSome && s.relay.todo.isEmpty
  match i with
  | .connected ok sslNew configured =>
    if s.brokerReq then some (s.brokerConnected ok sslNew configured) else none
  | .ready ok => if framed then some (s.sendFrame ⟨.hello, 0, tmProtoString⟩ ok) else none
  | .hsTimer =>
    if s.relay.todo.isEmpty && s.hsTimer then some { s with hsTimer := false }.sessHsTimeout
    else none
  | .preRead data ans oks uv => if framed then s.preRead cfg data ans oks uv else none
  | .preEof => if framed then some s.eof else none
  | .close => if s.relay.todo.isEmpty then some s.close else none
  | i => (relayStep s i).map fun c => { s.relayed c with inp := s.inp ++ delivered i }

/-- A session as `on_local_accept` leaves it. -/
def Init (s : Sess) : Prop := s = {}

end TunnelMate.Peer
