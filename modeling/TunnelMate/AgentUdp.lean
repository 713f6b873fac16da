import TunnelMate.Udp

/-!
# The agent's side of the UDP plane

The agent's `udp.c`: one DTLS session to the tunnel's port. After the handshake the agent sends its
secret, and from AUTH_OK on it relays envelopes between the session and one local socket per flow.

`Pair` is the agent together with the broker's plane of its tunnel, on one clock. DTLS ties them:
the agent's handshake ends with a session that the broker has opened for the agent's address since
its socket exists, or had open then; and what the agent reads after it are envelopes which that
session sent. Datagrams may be lost, repeated and delayed: what reaches the broker from the agent's
address is not tied to what the agent sends.
-/

namespace TunnelMate.AgentUdp

open Udp (SslAns HsAns Window Plane)

/-- What `udp.c` reads of `tm_agent_cfg`, with its defaults. -/
structure Cfg where
  agentSecret : Bytes
  udpFlowIdleTimeoutMs : ℤ := 30000
  udpMaxDatagramSize : ℤ := 1400
  udpMaxPacketsPerFlow : ℤ := 1000
  udpMaxFlows : ℤ := 4096

/-- `tm_alflow`. -/
structure LocalFlow where
  flowId : ℕ
  lastSeenMs : ℕ
  pktWin : Window := {}

/-- `udp_ssl` with its BIOs. -/
structure Ssl where
  initFinished : Bool := false
  /-- The records that wait in the BIO; `none` is one of the handshake. -/
  wbio : List (Option Bytes) := []
  /-- The broker's session that the handshake was finished with. -/
  session : Option Ref := none

/-- The UDP part of `tm_agent_app`. -/
structure App where
  ssl : Option Ssl := none
  /-- The address of `udp_sock` as the broker sees it. -/
  addr : Addr := { family := .unspec, ip := [], port := 0 }
  udpAuthed : Bool := false
  udpOutq : List Bytes := []
  udpFlows : List LocalFlow := []
  -- what happened so far: the records sent to the broker, the datagrams sent to the service, and
  -- the broker's sessions that were over when the socket was opened
  sent : List (Option Bytes) := []
  toLocal : List (ℕ × Bytes) := []
  ended : List Ref := []

def udpStop (a : App) : App :=
  if a.ssl.isNone && a.udpFlows.isEmpty && a.udpOutq.isEmpty then a
  else { a with ssl := none, udpFlows := [], udpOutq := [], udpAuthed := false }

/-! ## Sending -/

/-- The loop of `pump_out` that hands the BIO's records to the socket. -/
def flush (a : App) : App :=
  match a.ssl with
  | none => a
  | some x => { a with ssl := some { x with wbio := [] }, sent := x.wbio.reverse ++ a.sent }

/-- `pump_out` with the queue `q`; `ans` are the answers of `SSL_write`, one for each envelope. -/
def pumpLoop : List Bytes → List SslAns → App → App
  | [], _, a => flush a
  | env :: q, ans, a =>
    match ans.headD .want with
    | .want => a
    | .fail => udpStop a
    | .whole =>
      pumpLoop q ans.tail (flush { a with
        udpOutq := q
        ssl := a.ssl.map fun x => { x with wbio := x.wbio ++ [some env] } })

def pumpOut (ans : List SslAns) (a : App) : App :=
  if a.ssl.isNone then a else pumpLoop a.udpOutq ans a

section

variable (cfg : Cfg)

/-- `udp_queue`; the queue is kept as its envelopes, each of which takes four more bytes. -/
def udpQueue (env : Bytes) (ans : List SslAns) (a : App) : App :=
  if a.ssl.isNone then a
  else
    let queued := (a.udpOutq.map fun e => 4 + e.length).sum
    let maxBytes := 256 * (toU64 cfg.udpMaxDatagramSize + 15) % 2 ^ 64
    if a.udpOutq.length ≥ 256 ∨ env.length > Udp.uint32Max ∨
        queued + 4 + env.length > maxBytes then a
    else pumpOut ans { a with udpOutq := a.udpOutq ++ [env] }

/-! ## Local flows -/

/-- `flow_recv_cb`: the service answers on the local socket of a flow. -/
def flowRecv (flowId : ℕ) (data : Bytes) (now : ℕ) (ans : List SslAns) (a : App) : App :=
  match a.udpFlows.find? (·.flowId = flowId) with
  | none => a
  | some f =>
    if !a.udpAuthed then a
    else
      let w : Window :=
        if now - f.pktWin.start ≥ 1000 then { start := now, count := 0 } else f.pktWin
      let set (g : LocalFlow → LocalFlow) : App :=
        { a with udpFlows := a.udpFlows.map fun f => if f.flowId = flowId then g f else f }
      if w.count ≥ cfg.udpMaxPacketsPerFlow then set fun f => { f with pktWin := w }
      else
        let a := set fun f =>
          { f with pktWin := { w with count := w.count + 1 }, lastSeenMs := now }
        if data.length > toU64 cfg.udpMaxDatagramSize then a
        else udpQueue cfg (tmEnvEncode flowId 0 data) ans a

/-- `handle_broker_env`; `ok` says whether a new local socket can be connected. -/
def handleBrokerEnv (e : Env) (ok : Bool) (now : ℕ) (a : App) : App :=
  if e.flowId = 0 then a
  else if e.payload.length > toU32 cfg.udpMaxDatagramSize then a
  else
    match a.udpFlows.find? (·.flowId = e.flowId) with
    | some _ =>
      { a with
        udpFlows := a.udpFlows.map fun f =>
          if f.flowId = e.flowId then { f with lastSeenMs := now } else f
        toLocal := (e.flowId, e.payload) :: a.toLocal }
    | none =>
      if (a.udpFlows.length : ℤ) ≥ cfg.udpMaxFlows then a
      else if !ok then a
      else
        { a with
          udpFlows := { flowId := e.flowId, lastSeenMs := now } :: a.udpFlows
          toLocal := (e.flowId, e.payload) :: a.toLocal }

/-- `flow_sweep_cb`, all that the agent's `udp_timer` runs. -/
def flowSweep (now : ℕ) (a : App) : App :=
  { a with
    udpFlows := a.udpFlows.filter fun f => !(now - f.lastSeenMs > toU64 cfg.udpFlowIdleTimeoutMs) }

/-! ## Inbound records -/

/-- The loop of `udp_recv_cb` over the envelopes that `SSL_read` yields. -/
def readLoop (now : ℕ) (ans : List SslAns) : List (Bytes × Bool) → App → App
  | [], a => pumpOut ans a
  | (d, ok) :: reads, a =>
    match tmEnvDecode d with
    | none => readLoop now ans reads a
    | some e =>
      if e.flags = tmEnvFlagAuthOk then readLoop now ans reads { a with udpAuthed := true }
      else if e.flags = tmEnvFlagAuthErr then udpStop a
      else if e.flags = 0 then readLoop now ans reads (handleBrokerEnv cfg e ok now a)
      else readLoop now ans reads a

/-- `udp_recv_cb`. While the handshake runs, `hs` is the answer of `SSL_connect` and `s` the
broker's session at the other end. -/
def udpRecv (hs : HsAns) (s : Ref) (reads : List (Bytes × Bool)) (now : ℕ) (ans : List SslAns)
    (a : App) : App :=
  match a.ssl with
  | none => a
  | some x =>
    if x.initFinished then readLoop cfg now ans reads a
    else
      match hs with
      | .want recs =>
        pumpOut ans { a with ssl := some { x with wbio := x.wbio ++ List.replicate recs none } }
      | .failed _ => udpStop a
      | .done recs =>
        let x := { x with
          initFinished := true, session := some s, wbio := x.wbio ++ List.replicate recs none }
        pumpOut ans (udpQueue cfg (tmEnvEncode 0 tmEnvFlagAuthReq cfg.agentSecret) ans
          { a with ssl := some x })

end

/-- The size of `d` in `udp_recv_cb` and of `chunk` in `pump_out`, TM_DEFAULT_DATAGRAM + 1024. -/
def recordBuf : ℕ := 1400 + 1024

/-- What `SSL_read` or `BIO_read` give of one record: the rest of what does not fit into the buffer
comes with the next call, or is lost. -/
inductive Reads : Bytes → List Bytes → Prop
  | none : Reads [] []
  | lost (r : Bytes) : r ≠ [] → Reads r [r.take recordBuf]
  | left {r : Bytes} {rs : List Bytes} : r ≠ [] → Reads (r.drop recordBuf) rs →
      Reads r (r.take recordBuf :: rs)

/-- `tm_agent_udp_start`; `ok` says whether the socket and the DTLS object can be made, and `recs`
how many records the ClientHello takes. -/
def udpStart (addr : Addr) (ok : Bool) (recs : ℕ) (ended : List Ref) (ans : List SslAns) (a : App) :
    App :=
  if a.ssl.isSome then a
  else if !ok then a
  else
    pumpOut ans { a with
      ssl := some { wbio := List.replicate recs none }, addr := addr, ended := ended }

/-! ## The agent with the broker's plane -/

structure Pair where
  plane : Plane := {}
  app : App := {}
  now : ℕ := 0

/-- The sessions that the plane opened and closed again. -/
def endedSessions (p : Plane) : List Ref :=
  (p.opened.map Prod.fst).filter fun s => (Table.get s p.sessions).isNone

/-- The broker opened session `s` for the agent's address, and it was not over when the agent's
socket was opened. -/
def Pair.AtAgent (c : Pair) (s : Ref) : Prop :=
  c.app.ssl.isSome = true ∧ s ∉ c.app.ended ∧
    ∃ o ∈ c.plane.opened, o.1 = s ∧ tmAddrEq o.2 c.app.addr = true

instance (c : Pair) (s : Ref) : Decidable (c.AtAgent s) :=
  inferInstanceAs (Decidable (_ ∧ _ ∧ _))

/-- The plaintext of a datagram. -/
def envOf (o : Udp.Out) : Option Bytes :=
  match o.body with
  | .raw _ => none
  | .record q => q.map Udp.Queued.env

/-- What DTLS lets the agent see: the handshake ends with a session for it, and it reads what that
session has sent. -/
def Pair.canRecv (c : Pair) (s : Ref) (reads : List (Bytes × Bool)) : Bool :=
  match c.app.ssl with
  | none => true
  | some x =>
    if x.initFinished then
      reads.all fun r => c.plane.sent.any fun o => o.session = x.session && envOf o = some r.1
    else decide (c.AtAgent s)

inductive Event
  | broker (loop : ℕ) (creds : Udp.Creds) (ev : Udp.Event)
  | udpStart (addr : Addr) (ok : Bool) (recs : ℕ) (ans : List SslAns)
  | udpRecv (hs : HsAns) (s : Ref) (reads : List (Bytes × Bool)) (ans : List SslAns)
  | flowRecv (flowId : ℕ) (data : Bytes) (ans : List SslAns)
  | flowSweep
  /-- The control connection is lost. -/
  | udpStop

/-- An event and the time it happens at. -/
structure Label where
  now : ℕ
  ev : Event

section

variable (bcfg : BrokerCfg) (cfg : Cfg) (digest : Bytes → Digest)

def handle (c : Pair) (now : ℕ) : Event → Option Pair
  | .broker loop creds ev =>
    (Udp.step bcfg digest c.plane { now := now, loop := loop, creds := creds, ev := ev }).map
      fun p => { c with plane := p }
  | .udpStart addr ok recs ans =>
    some { c with app := udpStart addr ok recs (endedSessions c.plane) ans c.app }
  | .udpRecv hs s reads ans =>
    if c.canRecv s reads then some { c with app := udpRecv cfg hs s reads now ans c.app } else none
  | .flowRecv flowId data ans => some { c with app := flowRecv cfg flowId data now ans c.app }
  | .flowSweep => some { c with app := flowSweep cfg now c.app }
  | .udpStop => some { c with app := udpStop c.app }

def step (c : Pair) (l : Label) : Option Pair :=
  if c.now ≤ l.now then handle bcfg cfg digest { c with now := l.now } l.now l.ev else none

end

def Init (c : Pair) : Prop := c = {}

end TunnelMate.AgentUdp
