import TunnelMate.Proofs.Cred
import TunnelMate.Proofs.RelayIo
import TunnelMate.Proofs.Tunnel

/-!
# What an event can do to the broker

Every event is a chain of moves, each of which changes one thing: a connection, an agent, a stream,
or a tunnel.
-/

namespace TunnelMate

open List Option Table Nat

structure Core where
  cfg : BrokerCfg
  ports : Ports
  tunnels : List Tunnel
  conns : List Conn
  agents : List Agent
  streams : List Stream
  tunnelCount : ℤ
  released : List Tunnel
  streamCount : ℤ
  timers : List Ref
  ioMade : List IoRef
  ioClosed : List IoRef
  sockClosed : List Ref

def Broker.core (b : Broker) : Core :=
  { b with }

variable {b b' b₀ : Broker} {st : Stream} {c T : Ref} {digest : Bytes → Digest}

lemma Broker.core_eq : b'.core = b.core ↔ b'.cfg = b.cfg ∧ b'.ports = b.ports ∧
    b'.tunnels = b.tunnels ∧ b'.conns = b.conns ∧ b'.agents = b.agents ∧ b'.streams = b.streams ∧
    b'.tunnelCount = b.tunnelCount ∧ b'.released = b.released ∧ b'.streamCount = b.streamCount ∧
    b'.timers = b.timers ∧ b'.ioMade = b.ioMade ∧ b'.ioClosed = b.ioClosed ∧
    b'.sockClosed = b.sockClosed := by
  simp only [core, Core.mk.injEq]

def Broker.pendingOf (b : Broker) (T : Ref) : ℕ :=
  (b.streams.filter fun st => st.tun = T && !st.relay.s.bound).length

def Registered (b : Broker) (T : Ref) : Prop := ∃ t ∈ b.tunnels, t.registered = true ∧ t.ref = T

/-! ## What the two functions make -/

variable {t : Tunnel} {e : BrokerEvent}

lemma tmStreamCreateOpen_eq (h : tmStreamCreateOpen t b = some (st, b')) : streamsFull t b = false ∧
      b' = (streamLink t.ref (sidOf b.sidCounter) .listener Relay.createdOpen
        { b with sidCounter := (b.sidCounter + 1) % 2 ^ 64 }).2 := by
  unfold tmStreamCreateOpen at h
  split_ifs at h with hf
  exact ⟨by simpa using hf, (Prod.mk.inj (some.inj h)).2.symm⟩

lemma tmStreamCreateClosed_eq
    (h : tmStreamCreateClosed t c b = some (st, b')) : streamsFull t b = false ∧
      b' = (streamLink t.ref (sidOf b.sidCounter2) (.conn c) (Relay.createdClosed c)
        { b with sidCounter2 := (b.sidCounter2 + 1) % 2 ^ 64 }).2 := by
  unfold tmStreamCreateClosed at h
  split_ifs at h with hf
  exact ⟨by simpa using hf, (Prod.mk.inj (some.inj h)).2.symm⟩

def Broker.agentGone (x : Agent) (b : Broker) : Broker :=
  { (b.noteClosed [.ssl x.conn] [x.conn]).updTun x.tun (fun t => { t with
      agent := if t.agent = some x.ref then none else t.agent
      agentOnline := if t.agent = some x.ref then false else t.agentOnline }) with
    agents := del x.ref b.agents }

def Broker.streamGone (x : Stream) (b : Broker) : Broker :=
  { (b.noteClosed x.ios x.socks).updTun x.tun (fun t => { t with
      streamsActive := t.streamsActive - if 0 < t.streamsActive then 1 else 0 }) with
    streams := del x.ref b.streams
    streamCount := b.streamCount - 1 }

section

variable {I : Broker → Prop} {a : Ref}

lemma tmAgentDrop_rule (h : I b) (hx : ∀ x ∈ b.agents, x.ref = a → I (b.agentGone x)) :
    I (tmAgentDrop a b) := by
  unfold tmAgentDrop
  split
  · exact h
  rename_i x hg
  obtain rfl : x.ref = a := key_of_get hg
  have he : (fun t : Tunnel => if t.agent = some x.ref then
      { t with agent := none, agentOnline := false } else t) = fun t => { t with
        agent := if t.agent = some x.ref then none else t.agent
        agentOnline := if t.agent = some x.ref then false else t.agentOnline } := by
    funext t
    split_ifs <;> rfl
  rw [he]
  exact hx x (mem_of_get hg) rfl

lemma tmStreamClose_rule (h : I b) (hx : ∀ x ∈ b.streams, x.ref = c → I (b.streamGone x)) :
    I (tmStreamClose c b) := by
  unfold tmStreamClose
  split
  · exact h
  rename_i x hg
  obtain rfl : x.ref = c := key_of_get hg
  have he : (fun t : Tunnel => if 0 < t.streamsActive then
      { t with streamsActive := t.streamsActive - 1 } else t) = fun t => { t with
        streamsActive := t.streamsActive - if 0 < t.streamsActive then 1 else 0 } := by
    funext t
    split_ifs
    · rfl
    · rw [sub_zero]
  rw [he]
  exact hx x (mem_of_get hg) rfl

end

/-! ## What an event asks for -/

section Asks

variable (digest : Bytes → Digest) (b : Broker) (e : BrokerEvent)

def Accepts : Prop := ∃ t peer k, e = .publicAccept t peer k

def AcceptsAt (T : Ref) : Prop := ∃ peer k, e = .publicAccept T peer k

def Hello (c : Ref) : Prop := ∃ f w k, e = .connFrame c f w k ∧ f.type = .hello

def Registers (c T : Ref) : Prop :=
  ∃ f w k, e = .connFrame c f w k ∧ f.type = .register ∧
    (∃ x ∈ b.conns, x.ref = c ∧ x.gotHello = true) ∧
    ∃ t ∈ b.tunnels, t.registered = true ∧ t.ref = T ∧ t.enabled = true ∧
      ∃ cr, credSplit f.payload = some cr ∧ cStr cr.id = t.id ∧
        fromHex t.agentSecretHmac = some (digest cr.secret).toList

def Authenticates (c T : Ref) : Prop :=
  ∃ f w k, e = .connFrame c f w k ∧ f.type = .auth ∧
    (∃ x ∈ b.conns, x.ref = c ∧ x.gotHello = true) ∧
    ∃ t ∈ b.tunnels, t.registered = true ∧ t.ref = T ∧ t.closed = true ∧ t.enabled = true ∧
      ∃ cr, credSplit f.payload = some cr ∧ cStr cr.id = t.id ∧
        fromHex t.sharedTokenHmac = some (digest cr.secret).toList

def Opens (c T : Ref) : Prop :=
  ∃ f w k, e = .connFrame c f w k ∧ f.type = .dataBind ∧ f.streamId = 0 ∧
    ∃ x ∈ b.conns, x.ref = c ∧ x.peerAuthed = true ∧ x.peerTun = some T

def Binds (c : Ref) (st : Stream) : Prop :=
  ∃ f w k, e = .connFrame c f w k ∧ f.type = .dataBind ∧ f.streamId = st.id ∧ st ∈ b.streams ∧
    st.relay.s.bound = false ∧
    ∃ t ∈ b.tunnels, t.registered = true ∧ t.ref = st.tun ∧ t.enabled = true ∧
      fromHex t.agentSecretHmac = some (digest f.payload).toList

end Asks

lemma AcceptsAt.accepts (h : AcceptsAt e T) : Accepts e :=
  ⟨T, h⟩

def deletedBy (b : Broker) : BrokerEvent → Option Tunnel
  | .ipc (.deleteTunnel id) => tmTunnelFind id b
  | _ => none

def Deletes (b : Broker) (e : BrokerEvent) (T : Ref) : Prop := ∃ t ∈ deletedBy b e, t.ref = T

/-- The event does not start a tunnel again whose handle is not closed, and does not delete one with
a handle that nothing will close. -/
def ReuseOk (b : Broker) : BrokerEvent → Prop
  | .ipc (.enableTunnel id _) => ∀ t ∈ tmTunnelFind id b, t.enabled = false → t.Reusable
  | .ipc (.deleteTunnel id) => ∀ t ∈ tmTunnelFind id b, ¬ t.Stale
  | _ => True

def CreatesTunnel (e : BrokerEvent) : Prop :=
  ∃ r rand rand' bound, e = .ipc (.createTunnel r rand rand' bound)

def Switches (e : BrokerEvent) : Prop :=
  (∃ id bound, e = .ipc (.enableTunnel id bound)) ∨ ∃ id, e = .ipc (.disableTunnel id)

def Rotates (e : BrokerEvent) : Prop :=
  (∃ id s r, e = .ipc (.rotateAgentSecret id s r)) ∨ ∃ id s r, e = .ipc (.rotateSharedToken id s r)

def TouchesSockets : BrokerEvent → Prop
  | .listenerClosed _ _ | .udpClosed _ | .cleanup => True
  | .ipc (.deleteTunnel _) | .ipc (.disableTunnel _) | .ipc (.enableTunnel _ _) => True
  | _ => False

def AtPlane (e : BrokerEvent) : Prop := ∃ T ev, e = .udp T ev

lemma Switches.touches (h : Switches e) : TouchesSockets e := by
  obtain ⟨id, bound, rfl⟩ | ⟨id, rfl⟩ := h <;> trivial

lemma Deletes.touches (h : Deletes b e T) : TouchesSockets e := by
  obtain ⟨t, ht, -⟩ := h
  unfold deletedBy at ht
  split at ht
  · trivial
  · cases ht

structure Creates (b : Broker) (t : Tunnel) (ports : Ports) : Prop where
  ref : t.ref = b.nextRef
  ok : t.Ok
  handles : t.Handles
  agent : t.agent = none
  online : t.agentOnline = false
  enabled : t.enabled = true
  active : t.streamsActive = 0
  udp : t.udp = {}
  registered : t.registered = true
  id : tmTunnelFind t.id b = none
  count : b.tunnelCount < b.cfg.maxTunnels
  port : if t.closed = true ∧ t.proto = .tcp then t.publicPort = 0 ∧ ports = b.ports
    else t.publicPort ≠ 0 ∧ ∃ n, tmPortAlloc b.cfg t.proto n b.ports = (t.publicPort, ports)

/-! ## Moves -/

inductive Move (digest : Bytes → Digest) (b₀ : Broker) (e : BrokerEvent) : Broker → Broker → Prop
  | misc {b b' : Broker} : b'.core = b.core → b.nextRef ≤ b'.nextRef → Move digest b₀ e b b'
  | accept {b : Broker} : e = .controlAccept → Move digest b₀ e b
      { b with
        conns := { ref := b.nextRef } :: b.conns
        nextRef := b.nextRef + 1
        timers := b.nextRef :: b.timers
        ioMade := .ssl b.nextRef :: b.ioMade }
  | closeConn {b : Broker} (c : Ref) : Move digest b₀ e b (connClose c b)
  | hello {b : Broker} {c : Ref} : Hello e c →
      Move digest b₀ e b (b.updConn c fun c => { c with gotHello := true })
  | auth {b : Broker} {c T : Ref} : Authenticates digest b₀ e c T → Registered b T →
      (∀ x ∈ b.conns, x.ref = c → x.gotHello = true) →
      Move digest b₀ e b (b.updConn c fun c => { c with peerAuthed := true, peerTun := some T })
  | tunnel {b : Broker} {T : Ref} {f : Tunnel → Tunnel} :
      (∀ t ∈ b.tunnels, t.ref = T → t.Step b.cfg digest (ReuseOk b₀ e) (f t)) →
      (∀ t ∈ b.tunnels, t.ref = T → t.Kept (Switches e) (Rotates e) (AtPlane e) (f t)) →
      (TouchesSockets e ∨ ∀ t ∈ b.tunnels, t.ref = T → (f t).listening = t.listening) →
      Move digest b₀ e b (b.updTun T f)
  | dropAgent {b : Broker} {x : Agent} : x ∈ b.agents → Move digest b₀ e b (b.agentGone x)
  | addAgent {b : Broker} {c T : Ref} : Registers digest b₀ e c T → Registered b T →
      (∀ t ∈ b.tunnels, t.ref = T → t.agent = none) → (∃ x ∈ b.conns, x.ref = c) →
      Move digest b₀ e b (connUnlink c (agentAdd c T b))
  | openStream {b : Broker} {t : Tunnel} : t ∈ b.tunnels → t.listenerOpen = true →
      AcceptsAt e t.ref → b.streams = b₀.streams → streamsFull t b = false → ∀ id,
      Move digest b₀ e b (streamLink t.ref id .listener Relay.createdOpen b).2
  | peerStream {b : Broker} {c : Ref} {t : Tunnel} : Opens b₀ e c t.ref →
      b.pendingOf t.ref < b.cfg.maxPendingStreams → t ∈ b.tunnels → t.agent ≠ none →
      Registered b t.ref → (∃ x ∈ b.conns, x.ref = c) → streamsFull t b = false → ∀ id,
      Move digest b₀ e b
      (connUnlink c (streamLink t.ref id (.conn c) (Relay.createdClosed c) b).2)
  | closeStream {b : Broker} {x : Stream} : x ∈ b.streams → Move digest b₀ e b (b.streamGone x)
  | relay {b : Broker} {x : Stream} {l : Relay.Label} {c : Duplex.Config Relay.Tail} :
      x ∈ b.streams → Relay.step x.relay l = some c → (∀ io, l ≠ .attach io) →
      c.s.closing = false → Move digest b₀ e b
      { b.noteClosed (x.closedBy c.s) [] with
        streams := upd x.ref (fun x => { x with relay := c }) b.streams
        ioMade := x.madeBy c.s ++ b.ioMade }
  | attach {b : Broker} {x : Stream} {conn : Ref} {c : Duplex.Config Relay.Tail} :
      x ∈ b.streams → Binds digest b₀ e conn x →
      Relay.step x.relay (.attach (.ssl conn)) = some c → (∃ y ∈ b.conns, y.ref = conn) →
      Move digest b₀ e b (connUnlink conn
      { b.noteClosed (x.closedBy c.s) [] with
        streams := upd x.ref (fun x => { x with relay := c, sockB := some conn }) b.streams
        ioMade := x.madeBy c.s ++ b.ioMade })
  /-- A port is taken off the table and counts as none: possible for port 0 only. -/
  | noPort {b : Broker} {proto : Proto} {n : ℕ} : (tmPortAlloc b.cfg proto n b.ports).1 = 0 →
      Move digest b₀ e b { b with ports := (tmPortAlloc b.cfg proto n b.ports).2 }
  | addTunnel {b : Broker} {t : Tunnel} {ports : Ports} : Creates b t ports → CreatesTunnel e →
      Move digest b₀ e b
      { b with
        ports := ports
        tunnels := t :: b.tunnels
        tunnelCount := b.tunnelCount + 1
        nextRef := b.nextRef + 1 }
  /-- Only a deletion counts the tunnel off. -/
  | unregister {b : Broker} {t : Tunnel} (d : Bool) : t ∈ b.tunnels → t.Stopped → t.agent = none →
      (∀ st ∈ b.streams, st.tun ≠ t.ref) →
      (d = true ∧ t.registered = true ∧ Deletes b₀ e t.ref ∧ b.conns = b₀.conns ∧
          (ReuseOk b₀ e → ¬ t.Stale) ∨
        d = false ∧ e = .cleanup ∧ b.conns = []) →
      Move digest b₀ e b
      { b.updTun t.ref (fun t => { t with deleting := d || t.deleting, registered := false }) with
        ports := tmPortFree b.cfg t.proto t.publicPort b.ports
        tunnelCount := if d then b.tunnelCount - 1 else b.tunnelCount }
  | free {b : Broker} {t : Tunnel} : t ∈ b.tunnels → t.deleting = true → t.closeRefs = 0 →
      Move digest b₀ e b
      { b with tunnels := del t.ref b.tunnels, released := t :: b.released }

/-! ## What the moves keep -/

structure Wf (b : Broker) : Prop where
  tunnels : Table.Fresh b.nextRef b.tunnels
  conns : Table.Fresh b.nextRef b.conns
  agents : Table.Fresh b.nextRef b.agents
  streams : Table.Fresh b.nextRef b.streams
  ok : ∀ t ∈ b.tunnels, t.Ok
  peer : ∀ c ∈ b.conns, c.peerAuthed = true → c.gotHello = true ∧ c.peerTun ≠ none
  agentTun : ∀ a ∈ b.agents,
    ∃ t ∈ b.tunnels, t.registered = true ∧ t.ref = a.tun ∧ t.agent = some a.ref
  tunAgent : ∀ t ∈ b.tunnels, ∀ a, t.agent = some a → ∃ x ∈ b.agents, x.ref = a ∧ x.tun = t.ref
  streamTun : ∀ st ∈ b.streams, Registered b st.tun
  live : ∀ st ∈ b.streams, st.relay.s.closing = false
  publicTun : ∀ st ∈ b.streams, st.sockA = .listener →
    ∀ t ∈ b.tunnels, t.ref = st.tun → t.closed = false

namespace Wf

variable {b : Broker} {T : Ref}

lemma init (h : BrokerInit b) : Wf b := by
  obtain ⟨cfg, -, rfl⟩ := h
  exact ⟨.nil, .nil, .nil, .nil, by simp, by simp, by simp, by simp, by simp, by simp, by simp⟩

section

variable (h : Wf b)
include h

lemma misc (he : b'.core = b.core) (hn : b.nextRef ≤ b'.nextRef) : Wf b' := by
  obtain ⟨-, -, ht, hc, ha, hs, -⟩ := Broker.core_eq.1 he
  obtain ⟨h1, h2, h3, h4, h5, h6, h7, h8, h9, h10, h11⟩ := h
  unfold Registered at h9
  rw [← ht] at h1 h5 h7 h8 h9 h11
  rw [← hc] at h2 h6
  rw [← ha] at h3 h7 h8
  rw [← hs] at h4 h9 h10 h11
  exact ⟨h1.mono hn, h2.mono hn, h3.mono hn, h4.mono hn, h5, h6, h7, h8, h9, h10, h11⟩

lemma hist (ts : List Ref) (im ic : List IoRef) (sc : List Ref) :
    Wf { b with timers := ts, ioMade := im, ioClosed := ic, sockClosed := sc } := { h with }

lemma noteClosed (ios : List IoRef) (socks : List Ref) :
    Wf (b.noteClosed ios socks) := h.hist _ _ _ _

variable {n : ℕ}

lemma setConns {cs : List Conn} (hc : Table.Fresh n cs) (hn : b.nextRef ≤ n)
    (hp : ∀ c ∈ cs, c.peerAuthed = true → c.gotHello = true ∧ c.peerTun ≠ none) :
    Wf { b with conns := cs, nextRef := n } :=
  { h with
    tunnels := h.tunnels.mono hn
    conns := hc
    peer := hp
    agents := h.agents.mono hn
    streams := h.streams.mono hn }

lemma updTun {f : Tunnel → Tunnel}
    (hf : ∀ t ∈ b.tunnels, t.ref = T → t.Mild (f t)) : Wf (b.updTun T f) where
  tunnels := h.tunnels.upd fun t ht he => ((hf t ht he).ref).trans he
  conns := h.conns
  agents := h.agents
  streams := h.streams
  peer := h.peer
  ok := forall_upd (fun t ht _ => h.ok t ht) fun t ht he => (hf t ht he).ok (h.ok t ht)
  agentTun := fun a ha => exists_upd (h.agentTun a ha) fun t ht he hp => by
    rw [(hf t ht he).registered, (hf t ht he).ref, (hf t ht he).agent]
    exact hp
  tunAgent := forall_upd (fun t ht _ => h.tunAgent t ht) fun t ht he => by
    rw [(hf t ht he).ref, (hf t ht he).agent]
    exact h.tunAgent t ht
  streamTun := fun st hs => exists_upd (h.streamTun st hs) fun t ht he hp => by
    rw [(hf t ht he).registered, (hf t ht he).ref]
    exact hp
  live := h.live
  publicTun := fun st hs hl => forall_upd (fun t ht _ => h.publicTun st hs hl t ht)
    fun t ht he => by
      rw [(hf t ht he).ref, (hf t ht he).closed]
      exact h.publicTun st hs hl t ht

lemma setStreams {ss : List Stream} {k : ℤ} (hf : Table.Fresh n ss)
    (hn : b.nextRef ≤ n) (hs : ∀ st ∈ ss, Registered b st.tun ∧ st.relay.s.closing = false ∧
      (st.sockA = .listener → ∀ t ∈ b.tunnels, t.ref = st.tun → t.closed = false)) :
    Wf { b with streams := ss, streamCount := k, nextRef := n } :=
  { h with
    tunnels := h.tunnels.mono hn
    conns := h.conns.mono hn
    agents := h.agents.mono hn
    streams := hf
    streamTun := fun st hm => (hs st hm).1
    live := fun st hm => (hs st hm).2.1
    publicTun := fun st hm => (hs st hm).2.2 }

lemma stream (hs : st ∈ b.streams) : Registered b st.tun ∧ st.relay.s.closing = false ∧
      (st.sockA = .listener → ∀ t ∈ b.tunnels, t.ref = st.tun → t.closed = false) :=
  ⟨h.streamTun st hs, h.live st hs, h.publicTun st hs⟩

lemma link {id : ℕ} {sock : Sock} {s : Duplex.Stream} (hr : Registered b T) (hs : s.closing = false)
    (hp : sock = .listener → ∀ t ∈ b.tunnels, t.ref = T → t.closed = false) :
    Wf (streamLink T id sock s b).2 := by
  have hm : ∀ t ∈ b.tunnels, t.ref = T → t.Mild { t with streamsActive := t.streamsActive + 1 } :=
    fun t _ _ => .set
  have h' := h.updTun hm
  refine h'.setStreams (h'.streams.cons rfl) (le_succ _) fun st hst => ?_
  rcases mem_cons.1 hst with rfl | hst
  · refine ⟨exists_upd hr fun _ _ _ hx => hx, hs, fun hk => ?_⟩
    exact forall_upd (fun t ht _ => hp hk t ht) fun t ht _ => hp hk t ht
  · exact h'.stream hst

end

lemma closeStream (h : Wf b) (x : Stream) : Wf (b.streamGone x) := by
  have h' := (h.noteClosed x.ios x.socks).updTun (T := x.tun) (f := fun t => { t with
    streamsActive := t.streamsActive - if 0 < t.streamsActive then 1 else 0 }) fun _ _ _ => .set
  exact h'.setStreams h'.streams.del (le_refl _) fun st hst => h'.stream (mem_del.1 hst).1

lemma updStream {k : Ref} {f : Stream → Stream} (h : Wf b)
    (hf : ∀ x ∈ b.streams, x.ref = k → (f x).ref = x.ref ∧ (f x).tun = x.tun ∧
      (f x).sockA = x.sockA ∧ (f x).relay.s.closing = false) : Wf (b.updStream k f) := by
  refine h.setStreams (h.streams.upd fun x hx he => (hf x hx he).1.trans he) (le_refl _) ?_
  refine forall_upd (fun _ hx _ => h.stream hx) fun x hx he => ?_
  obtain ⟨-, ht, ha, hc⟩ := hf x hx he
  rw [ht, ha]
  exact ⟨h.streamTun x hx, hc, h.publicTun x hx⟩

lemma unlink (h : Wf b) (c : Ref) : Wf (connUnlink c b) :=
  (h.setConns h.conns.del (le_refl _) fun x hx => h.peer x (mem_del.1 hx).1).hist _ _ _ _

lemma closeConn (h : Wf b) (c : Ref) : Wf (connClose c b) := unlink (h.hist _ _ _ _) c

lemma dropAgent {x : Agent} (h : Wf b) (hx : x ∈ b.agents) : Wf (b.agentGone x) where
  tunnels := h.tunnels.upd fun _ _ he => he
  conns := h.conns
  agents := h.agents.del
  streams := h.streams
  peer := h.peer
  ok := forall_upd (fun t ht _ => h.ok t ht) fun t ht _ => (h.ok t ht).setAgent
  agentTun := by
    intro y hy
    obtain ⟨hy, hne⟩ := mem_del.1 hy
    refine exists_upd (h.agentTun y hy) fun t _ _ ⟨hr, he, ha⟩ => ⟨hr, he, ?_⟩
    rw [if_neg]
    · exact ha
    · rw [ha, some.injEq]
      exact hne
  tunAgent := by
    refine forall_upd (fun t ht hne z hz => ?_) fun t ht _ z hz => ?_
    · obtain ⟨y, hy, hyr, hyt⟩ := h.tunAgent t ht z hz
      refine ⟨y, mem_del.2 ⟨hy, fun he => hne ?_⟩, hyr, hyt⟩
      rw [eq_of_key h.agents.nodup hy hx he] at hyt
      exact hyt.symm
    · split_ifs at hz with hta
      obtain ⟨y, hy, hyr, hyt⟩ := h.tunAgent t ht z hz
      refine ⟨y, mem_del.2 ⟨hy, fun he => hta ?_⟩, hyr, hyt⟩
      rw [hz, ← hyr]
      exact congrArg some he
  streamTun := fun st hst => exists_upd (h.streamTun st hst) fun _ _ _ ht => ht
  live := h.live
  publicTun := fun st hst hl => forall_upd (fun t ht _ => h.publicTun st hst hl t ht)
    fun t ht _ => h.publicTun st hst hl t ht

lemma addAgent (h : Wf b) (hr : Registered b T)
    (hn : ∀ t ∈ b.tunnels, t.ref = T → t.agent = none) : Wf (agentAdd c T b) where
  tunnels := (h.tunnels.mono (le_succ _)).upd fun _ _ he => he
  conns := h.conns.mono (le_succ _)
  agents := h.agents.cons rfl
  streams := h.streams.mono (le_succ _)
  peer := h.peer
  ok := forall_upd (fun t ht _ => h.ok t ht) fun t ht _ => (h.ok t ht).setAgent
  agentTun := by
    intro a ha
    rcases mem_cons.1 ha with rfl | ha
    · obtain ⟨t, ht, hreg, he⟩ := hr
      exact ⟨_, mem_upd.2 ⟨t, ht, rfl⟩, by simp [he, hreg]⟩
    · refine exists_upd (h.agentTun a ha) fun t ht he hp => ?_
      rw [hn t ht he] at hp
      exact absurd hp.2.2 (by simp)
  tunAgent := by
    refine forall_upd (fun t ht _ a hta => ?_) fun t _ he a hta => ?_
    · obtain ⟨x, hx, hxa⟩ := h.tunAgent t ht a hta
      exact ⟨x, mem_cons_of_mem _ hx, hxa⟩
    · exact ⟨_, mem_cons_self, some.inj hta, he.symm⟩
  streamTun := fun st hst => exists_upd (h.streamTun st hst) fun _ _ _ ht => ht
  live := h.live
  publicTun := fun st hst hl => forall_upd (fun t ht _ => h.publicTun st hst hl t ht)
    fun t ht _ => h.publicTun st hst hl t ht

lemma tunnel_eq {t t' : Tunnel} (hw : Wf b) (ht : t ∈ b.tunnels) (ht' : t' ∈ b.tunnels)
    (he : t'.ref = t.ref) : t' = t :=
  eq_of_key hw.tunnels.nodup ht' ht he

variable {ports : Ports}

lemma addTunnel {n : ℤ} (h : Wf b) (hc : Creates b t ports) : Wf { b with
      ports := ports, tunnels := t :: b.tunnels, tunnelCount := n, nextRef := b.nextRef + 1 } where
  tunnels := h.tunnels.cons hc.ref
  conns := h.conns.mono (le_succ _)
  agents := h.agents.mono (le_succ _)
  streams := h.streams.mono (le_succ _)
  peer := h.peer
  ok := forall_mem_cons.2 ⟨hc.ok, h.ok⟩
  agentTun := fun a hm => (h.agentTun a hm).imp fun _ hx => ⟨mem_cons_of_mem _ hx.1, hx.2⟩
  tunAgent := forall_mem_cons.2 ⟨fun a hta => by simp [hc.agent] at hta, h.tunAgent⟩
  streamTun := fun st hm => (h.streamTun st hm).imp fun _ hx => ⟨mem_cons_of_mem _ hx.1, hx.2⟩
  live := h.live
  publicTun := by
    intro st hm hl
    refine forall_mem_cons.2 ⟨fun he => ?_, h.publicTun st hm hl⟩
    obtain ⟨x, hx, -, hxt⟩ := h.streamTun st hm
    have := h.tunnels.lt x hx
    rw [key_tunnel, hxt, ← he, hc.ref] at this
    exact absurd this (lt_irrefl _)

lemma unregister {n : ℤ} (d : Bool) (h : Wf b) (ht : t ∈ b.tunnels)
    (hs : t.Stopped) (ha : t.agent = none) (hst : ∀ st ∈ b.streams, st.tun ≠ t.ref) :
    Wf { b.updTun t.ref (fun t => { t with deleting := d || t.deleting, registered := false }) with
      ports := ports, tunnelCount := n } where
  tunnels := h.tunnels.upd fun _ _ he => he
  conns := h.conns
  agents := h.agents
  streams := h.streams
  peer := h.peer
  ok := forall_upd (fun x hx _ => h.ok x hx) fun x hx he => by
    rw [h.tunnel_eq ht hx he]
    exact { h.ok t ht with unregistered := fun _ => { hs with }, deleting := fun _ => rfl }
  agentTun := fun a hm => exists_upd (h.agentTun a hm) fun x hx he hp => by
    rw [h.tunnel_eq ht hx he, ha] at hp
    exact absurd hp.2.2 (by simp)
  tunAgent := forall_upd (fun t ht _ => h.tunAgent t ht) fun t ht _ => h.tunAgent t ht
  streamTun := fun st hm => exists_upd (h.streamTun st hm) fun x _ he hp =>
    absurd (hp.2.symm.trans he) (hst st hm)
  live := h.live
  publicTun := fun st hm hl => forall_upd (fun t ht _ => h.publicTun st hm hl t ht)
    fun t ht _ => h.publicTun st hm hl t ht

lemma free {rs : List Tunnel} (h : Wf b) (hu : ∀ t ∈ b.tunnels, t.ref = T → t.registered = false) :
    Wf { b with tunnels := del T b.tunnels, released := rs } :=
  have hk : ∀ t ∈ b.tunnels, t.registered = true → t ∈ del T b.tunnels :=
    fun t ht hr => mem_del.2 ⟨ht, fun he => by simp [hu t ht he] at hr⟩
  { h with
    tunnels := h.tunnels.del
    ok := fun t ht => h.ok t (mem_del.1 ht).1
    agentTun := fun a ha => (h.agentTun a ha).imp fun _ hx => ⟨hk _ hx.1 hx.2.1, hx.2⟩
    tunAgent := fun t ht => h.tunAgent t (mem_del.1 ht).1
    streamTun := fun st hm => (h.streamTun st hm).imp fun _ hx => ⟨hk _ hx.1 hx.2.1, hx.2⟩
    publicTun := fun st hm hl t ht => h.publicTun st hm hl t (mem_del.1 ht).1 }

end Wf

lemma Move.wf (hm : Move digest b₀ e b b') (h : Wf b) : Wf b' := by
  cases hm with
  | misc he hn => exact h.misc he hn
  | accept =>
    exact (h.setConns (h.conns.cons rfl) (le_succ _)
      (forall_mem_cons.2 ⟨fun ha => (by cases ha), h.peer⟩)).hist _ _ _ _
  | closeConn c => exact h.closeConn c
  | hello =>
    exact h.setConns (h.conns.upd fun _ _ he => he) (le_refl _)
      (forall_upd (fun c hc _ => h.peer c hc) fun c hc _ ha => ⟨rfl, (h.peer c hc ha).2⟩)
  | auth _ _ hh =>
    exact h.setConns (h.conns.upd fun _ _ he => he) (le_refl _)
      (forall_upd (fun c hc _ => h.peer c hc) fun c hc he _ => ⟨hh c hc he, by simp⟩)
  | tunnel hf => exact h.updTun fun t ht he => (hf t ht he).toMild
  | dropAgent hx => exact h.dropAgent hx
  | addAgent _ hr hn => exact (h.addAgent hr hn).unlink _
  | openStream ht ho =>
    obtain ⟨-, hcl, hr⟩ := (h.ok _ ht).proto_of_open ho
    refine h.link ⟨_, ht, hr, rfl⟩ rfl fun _ t' ht' he => ?_
    rw [h.tunnel_eq ht ht' he]
    exact hcl
  | peerStream _ _ _ _ hr => exact (h.link hr rfl fun hk => by cases hk).unlink _
  | closeStream => exact h.closeStream _
  | @relay x l c _ _ _ hc =>
    have h' := h.updStream (k := x.ref) (f := fun x => { x with relay := c }) fun _ _ _ =>
      ⟨rfl, rfl, rfl, hc⟩
    exact h'.hist _ _ _ _
  | @attach x conn c hx _ hs =>
    have hc : c.s.closing = false := (Relay.step_attach hs).1.trans (h.live _ hx)
    have h' := h.updStream (k := x.ref) (f := fun x => { x with relay := c, sockB := some conn })
      fun _ _ _ => ⟨rfl, rfl, rfl, hc⟩
    exact .unlink (h'.hist _ _ _ _) _
  | noPort => exact { h with }
  | addTunnel hc => exact h.addTunnel hc
  | unregister d ht hs ha hst => exact h.unregister d ht hs ha hst
  | free ht hd =>
    refine h.free fun x hx he => ?_
    rw [h.tunnel_eq ht hx he]
    exact (h.ok _ ht).deleting hd

lemma Move.nextRef_le (hm : Move digest b₀ e b b') : b.nextRef ≤ b'.nextRef := by
  cases hm with
  | misc _ hn => exact hn
  | accept | addAgent | openStream | peerStream | addTunnel => exact le_succ _
  | _ => exact le_refl _

end TunnelMate
