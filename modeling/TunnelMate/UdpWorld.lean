import TunnelMate.PeerUdp

/-!
# A UDP tunnel with its agent and its peers

The broker's plane of a tunnel, the agent and any number of peers, on one clock. Datagrams between
them may be lost, repeated and delayed. DTLS ties the programs to each other: a session of the
broker finishes its handshake with one client, at the address it was opened for; what the broker
reads on it that client has sent, and what the client reads the broker has sent on it.
-/

namespace TunnelMate.UdpWorld

open Udp (Endpoint PumpAns Reply)
open AgentUdp (Ssl)

/-- The clients of the broker's plane. -/
inductive Party (ι : Type)
  | agent
  | peer (k : ι)

structure World (ι : Type) extends AgentUdp.Pair where
  peers : ι → PeerUdp.App
  -- what happened so far: the client that a session of the broker finished its handshake with, the
  -- datagrams of the service with the flow of their socket, and the flows that the broker made for
  -- peers, with the application whose datagram it read then
  bound : List (Ref × Party ι) := []
  served : List Reply := []
  caused : List (ℕ × ι × Addr) := []

variable {ι : Type} [DecidableEq ι]

/-! ## What DTLS allows -/

/-- What the broker and DTLS see of a client. -/
structure Client where
  ssl : Option Ssl
  addr : Addr
  ended : List Ref
  sent : List (Option Bytes)

namespace World

variable (w : World ι)

def client : Party ι → Client
  | .agent => ⟨w.app.ssl, w.app.addr, w.app.ended, w.app.sent⟩
  | .peer k => ⟨(w.peers k).ssl, (w.peers k).addr, (w.peers k).ended, (w.peers k).sent⟩

/-- The broker opened session `s` for the client's address, it was not over when the client's socket
was opened, and it has finished no handshake. -/
def Offers (c : Party ι) (s : Ref) : Prop :=
  s ∉ (w.client c).ended ∧
    (∃ o ∈ w.plane.opened, o.1 = s ∧ tmAddrEq o.2 (w.client c).addr = true) ∧
    ∀ b ∈ w.bound, b.1 ≠ s

instance (c : Party ι) (s : Ref) : Decidable (w.Offers c s) :=
  inferInstanceAs (Decidable (_ ∧ _ ∧ _))

/-- The handshake of a client ends with a session that is offered to it. -/
def mayFinish (c : Party ι) (s : Ref) : Bool :=
  match (w.client c).ssl with
  | none => true
  | some x => x.initFinished || decide (w.Offers c s)

/-- A peer reads what its session has sent. -/
def mayRead (k : ι) (reads : List Udp.Queued) : Bool :=
  match (w.peers k).ssl with
  | none => true
  | some x =>
    !x.initFinished || reads.all fun q =>
      w.plane.sent.any fun o => o.session = x.session && o.body = .record (some q)

/-- The broker reads on a session what the client at its other end has sent. -/
def brokerMayRead (addr : Addr) (reads : List (Bytes × PumpAns)) : Bool :=
  reads.all fun r =>
    (w.plane.sessions.find? (tmAddrEq ·.peer addr)).any fun x =>
      w.bound.any fun b => b.1 = x.ref && (w.client b.2).sent.contains (some r.1)

def agentMay : AgentUdp.Event → Bool
  | .broker _ _ (.packet addr _ _ reads _) => w.brokerMayRead addr reads
  | .udpRecv _ s _ _ => w.mayFinish .agent s
  | _ => true

def peerMay (k : ι) : PeerUdp.Event → Bool
  | .udpRecv _ s reads _ => w.mayFinish (.peer k) s && w.mayRead k reads
  | _ => true

/-! ## The histories -/

/-- The records that the broker reads. -/
def readsOf : Udp.Event → List (Bytes × PumpAns)
  | .packet _ _ _ reads _ => reads
  | _ => []

/-- The session that a client has finished its handshake with by the change from `x` to `y`. -/
def newBound (c : Party ι) (x y : Option Ssl) : List (Ref × Party ι) :=
  if y.bind Ssl.session = x.bind Ssl.session then []
  else ((y.bind Ssl.session).map (·, c)).toList

/-- The datagram that the service sends by the event. -/
def newServed : AgentUdp.Event → List Reply
  | .flowRecv flowId data _ =>
    if w.app.udpFlows.any (·.flowId = flowId) then [{ flowId := flowId, payload := data }] else []
  | _ => []

/-- Whose datagrams, of those that were read, the flow `a` can have been made for. -/
def causes (reads : List (Bytes × PumpAns)) (a : ℕ × Endpoint) : List (ℕ × ι × Addr) :=
  match a.2 with
  | .client _ => []
  | .peer s i =>
    w.bound.flatMap fun b =>
      match b.2 with
      | .agent => []
      | .peer k =>
        if b.1 = s then
          ((w.peers k).taken.filter fun d =>
            d.flowId = i && reads.any (·.1 = tmEnvEncode i 0 d.data)).map fun d => (a.1, k, d.src)
        else []

/-- The causes of the flows that the broker makes by the event, which leads to `p`. -/
def newCaused (p : Udp.Plane) : AgentUdp.Event → List (ℕ × ι × Addr)
  | .broker _ _ ev =>
    (p.assigned.take (p.assigned.length - w.plane.assigned.length)).flatMap (w.causes (readsOf ev))
  | _ => []

/-- The event `ev` leads the broker and the agent to `c`. -/
def setPair (ev : AgentUdp.Event) (c : AgentUdp.Pair) : World ι :=
  { w with
    toPair := c
    bound := newBound .agent w.app.ssl c.app.ssl ++ w.bound
    served := w.newServed ev ++ w.served
    caused := w.newCaused c.plane ev ++ w.caused }

def setPeer (now : ℕ) (k : ι) (p : PeerUdp.App) : World ι :=
  { w with
    now := now
    peers := Function.update w.peers k p
    bound := newBound (.peer k) (w.peers k).ssl p.ssl ++ w.bound }

end World

/-! ## Runs -/

inductive Event (ι : Type)
  /-- An event of the broker or of the agent. -/
  | pair (ev : AgentUdp.Event)
  | peer (k : ι) (ev : PeerUdp.Event)

/-- An event and the time it happens at. -/
structure Label (ι : Type) where
  now : ℕ
  ev : Event ι

section

variable (bcfg : BrokerCfg) (acfg : AgentUdp.Cfg) (pcfg : ι → PeerUdp.Cfg)
  (digest : Bytes → Digest)

def handle (w : World ι) (now : ℕ) : Event ι → Option (World ι)
  | .pair ev =>
    if w.agentMay ev then
      (AgentUdp.handle bcfg acfg digest { w.toPair with now := now } now ev).map (w.setPair ev)
    else none
  | .peer k ev =>
    if w.peerMay k ev then
      (PeerUdp.handle (pcfg k) (AgentUdp.endedSessions w.plane) now (w.peers k) ev).map
        (w.setPeer now k)
    else none

def step (w : World ι) (l : Label ι) : Option (World ι) :=
  if w.now ≤ l.now then handle bcfg acfg pcfg digest w l.now l.ev else none

end

/-- Nothing has happened, but that the peers have run up to their event loops, their starts ending
with `r`. -/
def Init (r : ι → PeerUdp.StartAns) (w : World ι) : Prop :=
  w = { peers := w.peers } ∧ ∀ k, PeerUdp.Init (r k) (w.peers k)

end TunnelMate.UdpWorld
