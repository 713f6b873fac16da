import Mathlib.Algebra.Order.Group.Multiset
import Mathlib.Tactic.Abel
import TunnelMate.Proofs.Steps

/-!
# Who holds a connection of the control port

The io object and the socket of an accepted connection are held by the pending connection, by the
agent it becomes, or by the leg of the stream it becomes.
-/

namespace TunnelMate

open List Table Broker IoRef

open Duplex (Leg)

inductive Owner
  | pending
  | agent (a : Ref)
  | leg (st : Ref) (l : Leg)
  deriving DecidableEq

def IoRef.ref : IoRef → Ref
  | .ssl c => c
  | .raw st => st

def IoRef.conn : IoRef → Option Ref
  | .ssl c => some c
  | .raw _ => none

def legsWith (p : Leg → Bool) (st : Stream) : List Owner :=
  ([.a, .b].filter p).map (.leg st.ref)

namespace Broker

variable (b : Broker) (c : Ref)

def owners (p : Stream → Leg → Bool) : List Owner :=
  (b.conns.filter (·.ref = c)).map (fun _ => .pending) ++
    (b.agents.filter (·.conn = c)).map (.agent ·.ref) ++
      b.streams.flatMap fun st => legsWith (p st) st

def ioOwners : List Owner := b.owners c fun st l => st.io l = some (.ssl c)

def sockOwners : List Owner := b.owners c fun st l => st.sock l = some c

def holds {β : Type} (f : Conn → β) (g : Agent → β) (k : Stream → List β) : Multiset β :=
  ↑(b.conns.map f) + ↑(b.agents.map g) + ↑(b.streams.flatMap k)

def ios : Multiset IoRef := b.holds (fun x => .ssl x.ref) (fun a => .ssl a.conn) Stream.ios

def socks : Multiset Ref := b.holds Conn.ref Agent.conn Stream.socks

end Broker

/-- A leg with the TLS io of a connection has its socket, and a stream that waits for the agent has
neither on that side, nor a raw io. -/
structure Stream.Held (made : List IoRef) (st : Stream) : Prop where
  legs : ∀ l c, st.io l = some (.ssl c) → st.sock l = some c
  unbound : st.relay.s.bound = false → st.io .b = none ∧ st.sock .b = none ∧ .raw st.ref ∉ made

structure Owned (b : Broker) : Prop where
  ios : b.ios + ↑b.ioClosed = ↑b.ioMade
  socks : b.socks + ↑b.sockClosed = ↑(b.ioMade.filterMap conn)
  made : b.ioMade.Nodup
  fresh : ∀ i ∈ b.ioMade, i.ref < b.nextRef
  held : ∀ st ∈ b.streams, st.Held b.ioMade
  timers : b.timers = b.conns.map Conn.ref

/-! ## What changes hands -/

section Holds

variable {β : Type} {f : Conn → β} {g : Agent → β} {k : Stream → List β} {b b' : Broker}

lemma holds_congr (hc : b'.conns.map f = b.conns.map f) (ha : b'.agents = b.agents)
    (hs : b'.streams = b.streams) : b'.holds f g k = b.holds f g k := by
  rw [holds, hc, ha, hs, holds]

lemma holds_closeConn (c : Ref) : b.holds f g k =
    ↑((b.conns.filter (·.ref = c)).map f) + (connClose c b).holds f g k := by
  have hd : del c b.conns = b.conns.filter fun x => !decide (x.ref = c) := by
    simp only [del, ne_eq, decide_not]
    rfl
  have hp : (b.conns.map f).Perm ((b.conns.filter (·.ref = c)).map f ++
      (del c b.conns).map f) := by
    rw [hd, ← map_append]
    exact (filter_append_perm _ b.conns).symm.map f
  simp only [holds, connClose, connUnlink, noteClosed, Multiset.coe_eq_coe.2 hp,
    ← Multiset.coe_add, add_assoc]

lemma holds_unlink {c : Conn} (hn : (b.conns.map Conn.ref).Nodup) (hc : c ∈ b.conns) :
    b.holds f g k = {f c} + (connUnlink c.ref b).holds f g k := by
  have hp : (c :: del c.ref b.conns).Perm b.conns := perm_del hn hc
  simp only [holds, connUnlink, ← Multiset.coe_eq_coe.2 (hp.map f), map_cons,
    ← Multiset.cons_coe, ← Multiset.singleton_add, add_assoc]

lemma holds_dropAgent (hw : Wf b) {a : Agent} (ha : a ∈ b.agents) :
    b.holds f g k = {g a} + (b.agentGone a).holds f g k := by
  have hp : (a :: del a.ref b.agents).Perm b.agents := perm_del hw.agents.nodup ha
  simp only [holds, agentGone, updTun, noteClosed, ← Multiset.coe_eq_coe.2 (hp.map g),
    map_cons, ← Multiset.cons_coe, ← Multiset.singleton_add]
  abel

lemma holds_addAgent (hw : Wf b) {c : Conn} (hc : c ∈ b.conns) {T : Ref}
    (hg : g { ref := b.nextRef, tun := T, conn := c.ref } = f c) :
    (connUnlink c.ref (agentAdd c.ref T b)).holds f g k = b.holds f g k := by
  have hu : (agentAdd c.ref T b).holds f g k = {f c} + _ := holds_unlink hw.conns.nodup hc
  have ha : (agentAdd c.ref T b).holds f g k = {f c} + b.holds f g k := by
    simp only [holds, agentAdd, updTun, map_cons, hg, ← Multiset.cons_coe, ← Multiset.singleton_add]
    abel
  exact add_left_cancel (hu.symm.trans ha)

lemma holds_peerStream (hw : Wf b) {c : Conn} (hc : c ∈ b.conns) {T : Ref} {id : ℕ} {sock : Sock}
    {s : Duplex.Stream} (hk : k (streamLink T id sock s b).1 = [f c]) :
    (connUnlink c.ref (streamLink T id sock s b).2).holds f g k = b.holds f g k := by
  have hu : (streamLink T id sock s b).2.holds f g k = {f c} + _ := holds_unlink hw.conns.nodup hc
  have hl : (streamLink T id sock s b).2.holds f g k = {f c} + b.holds f g k := by
    have : (streamLink T id sock s b).2.holds f g k =
        ↑(b.conns.map f) + ↑(b.agents.map g) +
          ↑(k (streamLink T id sock s b).1 ++ b.streams.flatMap k) := rfl
    rw [this, hk, ← Multiset.coe_add, holds, Multiset.coe_singleton]
    abel
  exact add_left_cancel (hu.symm.trans hl)

lemma holds_closeStream (hw : Wf b) {st : Stream} (hs : st ∈ b.streams) :
    b.holds f g k = ↑(k st) + (b.streamGone st).holds f g k := by
  have hp : (st :: del st.ref b.streams).Perm b.streams := perm_del hw.streams.nodup hs
  simp only [holds, streamGone, updTun, noteClosed,
    ← Multiset.coe_eq_coe.2 (hp.flatMap_right k), flatMap_cons, ← Multiset.coe_add]
  abel

lemma holds_updStream (hw : Wf b) {st : Stream} (hs : st ∈ b.streams) (h : Stream → Stream) :
    (b.updStream st.ref h).holds f g k + ↑(k st) = ↑(k (h st)) + b.holds f g k := by
  have hp : (st :: del st.ref b.streams).Perm b.streams := perm_del hw.streams.nodup hs
  have hq : (upd st.ref h b.streams).Perm (h st :: del st.ref b.streams) :=
    perm_upd hw.streams.nodup hs
  simp only [holds, updStream, Multiset.coe_eq_coe.2 (hq.flatMap_right k),
    ← Multiset.coe_eq_coe.2 (hp.flatMap_right k), flatMap_cons, ← Multiset.coe_add]
  abel

end Holds

namespace Owned

variable {digest : Bytes → Digest} {b₀ b b' : Broker} {e : BrokerEvent}

lemma init (h : BrokerInit b) : Owned b := by
  obtain ⟨cfg, -, rfl⟩ := h
  exact ⟨rfl, rfl, .nil, by simp, by simp, rfl⟩

section

variable (h : Owned b)
include h

lemma of_same (hc : b'.conns.map Conn.ref = b.conns.map Conn.ref)
    (ha : b'.agents = b.agents) (hs : b'.streams = b.streams) (ht : b'.timers = b.timers)
    (hm : b'.ioMade = b.ioMade) (hi : b'.ioClosed = b.ioClosed)
    (hk : b'.sockClosed = b.sockClosed) (hn : b.nextRef ≤ b'.nextRef) : Owned b' := by
  have hc' : (b'.conns.map fun x => ssl x.ref) = b.conns.map fun x => ssl x.ref := by
    have := congrArg (map ssl) hc
    rwa [map_map, map_map] at this
  refine ⟨?_, ?_, ?_, ?_, ?_, ?_⟩
  · rw [Broker.ios, holds_congr hc' ha hs, hi, hm]
    exact h.ios
  · rw [Broker.socks, holds_congr hc ha hs, hk, hm]
    exact h.socks
  · rw [hm]
    exact h.made
  · rw [hm]
    exact fun i hi => (h.fresh i hi).trans_le hn
  · rw [hs, hm]
    exact h.held
  · rw [ht, hc]
    exact h.timers

lemma accept : Owned { b with
    conns := { ref := b.nextRef } :: b.conns
    nextRef := b.nextRef + 1
    timers := b.nextRef :: b.timers
    ioMade := .ssl b.nextRef :: b.ioMade } where
  ios := by
    have := congrArg (.ssl b.nextRef ::ₘ ·) h.ios
    simpa [Broker.ios, Broker.holds, ← Multiset.cons_coe] using this
  socks := by
    have := congrArg (b.nextRef ::ₘ ·) h.socks
    simpa [Broker.socks, Broker.holds, ← Multiset.cons_coe, conn] using this
  made := nodup_cons.2 ⟨fun hm => Nat.lt_irrefl _ (h.fresh _ hm), h.made⟩
  fresh := forall_mem_cons.2 ⟨Nat.lt_succ_self _, fun i hi => Nat.lt_succ_of_lt (h.fresh i hi)⟩
  held st hst := { h.held st hst with
    unbound := fun hb => by
      obtain ⟨h1, h2, h3⟩ := (h.held st hst).unbound hb
      exact ⟨h1, h2, by simpa using h3⟩ }
  timers := congrArg (b.nextRef :: ·) h.timers

lemma timers_unlink (c : Ref) : b.timers.filter (· ≠ c) = (del c b.conns).map Conn.ref := by
  rw [h.timers, filter_map]
  rfl

lemma close {i : List IoRef} {k : List Ref} (hi : b.ios = ↑i + b'.ios)
    (hk : b.socks = ↑k + b'.socks) (hic : b'.ioClosed = i ++ b.ioClosed)
    (hkc : b'.sockClosed = k ++ b.sockClosed) (hm : b'.ioMade = b.ioMade)
    (hn : b'.nextRef = b.nextRef) (hs : ∀ st ∈ b'.streams, st.Held b'.ioMade)
    (ht : b'.timers = b'.conns.map Conn.ref) : Owned b' where
  ios := by
    rw [hm, ← h.ios, hi, hic, ← Multiset.coe_add]
    abel
  socks := by
    rw [hm, ← h.socks, hk, hkc, ← Multiset.coe_add]
    abel
  made := hm ▸ h.made
  fresh := by
    rw [hm, hn]
    exact h.fresh
  held := hs
  timers := ht

lemma pass (hi : b'.ios = b.ios) (hk : b'.socks = b.socks)
    (hic : b'.ioClosed = b.ioClosed) (hkc : b'.sockClosed = b.sockClosed)
    (hm : b'.ioMade = b.ioMade) (hn : b.nextRef ≤ b'.nextRef)
    (hs : ∀ st ∈ b'.streams, st.Held b'.ioMade) (ht : b'.timers = b'.conns.map Conn.ref) :
    Owned b' where
  ios := by
    rw [hi, hic, hm]
    exact h.ios
  socks := by
    rw [hk, hkc, hm]
    exact h.socks
  made := hm ▸ h.made
  fresh := by
    rw [hm]
    exact fun i hi => (h.fresh i hi).trans_le hn
  held := hs
  timers := ht

lemma closeConn (c : Ref) : Owned (connClose c b) := by
  refine h.close (i := ((b.conns.filter (·.ref = c)).map Conn.ref).map .ssl) ?_
    (holds_closeConn c) rfl rfl rfl rfl h.held (h.timers_unlink c)
  rw [map_map]
  exact holds_closeConn c

lemma dropAgent (hw : Wf b) {x : Agent} (hx : x ∈ b.agents) : Owned (b.agentGone x) :=
  h.close (i := [.ssl x.conn]) (k := [x.conn]) (holds_dropAgent hw hx) (holds_dropAgent hw hx)
    rfl rfl rfl rfl h.held h.timers

lemma addAgent (hw : Wf b) {c : Conn} (hc : c ∈ b.conns) (T : Ref) :
    Owned (connUnlink c.ref (agentAdd c.ref T b)) :=
  h.pass (holds_addAgent hw hc rfl) (holds_addAgent hw hc rfl) rfl rfl rfl (Nat.le_succ _) h.held
    (h.timers_unlink c.ref)

lemma openStream (T : Ref) (id : ℕ) : Owned (streamLink T id .listener Relay.createdOpen b).2 := by
  refine h.pass rfl rfl rfl rfl rfl (Nat.le_succ _) (forall_mem_cons.2 ⟨⟨?_, ?_⟩, h.held⟩) h.timers
  · intro l c hl
    cases l <;> cases hl
  · exact fun _ => ⟨rfl, rfl, fun hm => Nat.lt_irrefl _ (h.fresh _ hm)⟩

lemma peerStream (hw : Wf b) {c : Conn} (hc : c ∈ b.conns) (T : Ref) (id : ℕ) :
    Owned (connUnlink c.ref (streamLink T id (.conn c.ref) (Relay.createdClosed c.ref) b).2) := by
  refine h.pass (holds_peerStream hw hc rfl) (holds_peerStream hw hc rfl) rfl rfl rfl
    (Nat.le_succ _) (forall_mem_cons.2 ⟨⟨?_, ?_⟩, h.held⟩) (h.timers_unlink c.ref)
  · intro l c' hl
    cases l with
    | a => exact congrArg some (ssl.inj (Option.some.inj hl))
    | b => cases hl
  · exact fun _ => ⟨rfl, rfl, fun hm => Nat.lt_irrefl _ (h.fresh _ hm)⟩

lemma closeStream (hw : Wf b) {x : Stream} (hx : x ∈ b.streams) : Owned (b.streamGone x) :=
  h.close (holds_closeStream hw hx) (holds_closeStream hw hx) rfl rfl rfl rfl
    (fun y hy => h.held y (mem_del.1 hy).1) h.timers

end

section Relay

variable {x : Stream} {r : Duplex.Config Relay.Tail}

lemma io_shrinks (hs : Duplex.Shrinks x.relay.s r.s) (l : Leg) :
    ({ x with relay := r } : Stream).io l = x.io l ∨ (r.s.side l).io = none :=
  (hs l).imp_left fun h => congrArg (Option.map _) h

lemma coe_toList {p : Prop} [Decidable p] {o o' : Option IoRef} (hp : p → o' = none)
    (hn : ¬ p → o' = o) :
    (↑o.toList : Multiset IoRef) = ↑(if p then o.toList else []) + ↑o'.toList := by
  split_ifs with h
  · simp [hp h]
  · simp [hn h]

lemma ios_closedBy (hs : Duplex.Shrinks x.relay.s r.s) : (↑x.ios : Multiset IoRef) =
    ↑(x.closedBy r.s) + ↑({ x with relay := r } : Stream).ios := by
  have hl : ∀ l, (r.s.side l).io = none → ({ x with relay := r } : Stream).io l = none :=
    fun l hn => by simp [Stream.io, hn]
  have ha := coe_toList (hl .a) (io_shrinks hs .a).resolve_right
  have hb := coe_toList (hl .b) (io_shrinks hs .b).resolve_right
  simp only [Stream.ios, Stream.closedBy, ← Multiset.coe_add]
  rw [ha, hb]
  exact add_add_add_comm _ _ _ _

lemma relay (h : Owned b) (hw : Wf b) (hx : x ∈ b.streams)
    (hs : Duplex.Shrinks x.relay.s r.s) (hb : r.s.bound = x.relay.s.bound) :
    Owned { b.noteClosed (x.closedBy r.s) [] with
      streams := upd x.ref (fun x => { x with relay := r }) b.streams
      ioMade := x.madeBy r.s ++ b.ioMade } := by
  have hmade : x.madeBy r.s = [] := if_neg fun ⟨hn, hs'⟩ => hs' ((hs .a).elim (·.trans hn) id)
  have hx' : ({ x with relay := r } : Stream).Held b.ioMade := by
    obtain ⟨hl, hu⟩ := h.held x hx
    refine ⟨fun l c hio => ?_, fun hub => ?_⟩
    · rcases io_shrinks hs l with he | hn
      · exact hl l c (he ▸ hio)
      · simp [Stream.io, hn] at hio
    · obtain ⟨h1, h2, h3⟩ := hu (hb ▸ hub)
      refine ⟨?_, h2, h3⟩
      rcases io_shrinks hs .b with he | hn
      · exact he.trans h1
      · simp [Stream.io, hn]
  have hi := holds_updStream (f := fun x => ssl x.ref) (g := fun a => ssl a.conn)
    (k := Stream.ios) hw hx fun x => { x with relay := r }
  have hk := holds_updStream (f := Conn.ref) (g := Agent.conn) (k := Stream.socks) hw hx
    fun x => { x with relay := r }
  rw [hmade]
  refine h.close (i := x.closedBy r.s) (k := []) ?_ ?_ rfl rfl rfl rfl ?_ h.timers
  · rw [ios_closedBy hs] at hi
    refine add_left_cancel (a := (↑({ x with relay := r } : Stream).ios : Multiset IoRef)) ?_
    refine hi.symm.trans ?_
    rw [Broker.ios]
    simp only [holds, updStream, noteClosed]
    abel
  · exact (add_left_cancel ((add_comm _ _).trans hk)).symm.trans (zero_add _).symm
  · refine forall_upd (fun y hy _ => h.held y hy) fun y hy he => ?_
    rw [eq_of_key hw.streams.nodup hy hx he]
    exact hx'

end Relay

section Attach

variable {x : Stream} {r : Duplex.Config Relay.Tail} {c : Ref}

def bind (r : Duplex.Config Relay.Tail) (c : Ref) (x : Stream) : Stream :=
  { x with relay := r, sockB := some c }

structure Attaches (x : Stream) (r : Duplex.Config Relay.Tail) (c : Ref) : Prop where
  unbound : x.relay.s.bound = false
  bound : r.s.bound = true
  a : r.s.a.io = some (x.relay.s.a.io.getD .tcp)
  b : r.s.b.io = some (.ssl c)

namespace Attaches

section

variable (h : Attaches x r c)
include h

lemma closedBy : x.closedBy r.s = [] := by
  simp [Stream.closedBy, h.a, h.b]

lemma ioB : (bind r c x).io .b = some (.ssl c) :=
  congrArg (Option.map (ofIo x.ref)) h.b

lemma ioA : ((bind r c x).io .a = x.io .a ∧ x.madeBy r.s = []) ∨
    x.io .a = none ∧ (bind r c x).io .a = some (.raw x.ref) ∧ x.madeBy r.s = [.raw x.ref] := by
  have ha := h.a
  cases hx : x.relay.s.a.io with
  | none =>
    rw [hx] at ha
    refine .inr ⟨congrArg (Option.map (ofIo x.ref)) hx, ?_, if_pos ⟨hx, by simp [ha]⟩⟩
    exact congrArg (Option.map (ofIo x.ref)) ha
  | some i =>
    rw [hx] at ha
    refine .inl ⟨congrArg (Option.map (ofIo x.ref)) (ha.trans hx.symm), if_neg fun hn => ?_⟩
    exact absurd (hx.symm.trans hn.1) (by simp)

lemma ios (hb : x.io .b = none) : (↑(bind r c x).ios : Multiset IoRef) =
    ↑(x.madeBy r.s) + ({.ssl c} + ↑x.ios) := by
  rcases h.ioA with ⟨ha, hm⟩ | ⟨hn, ha, hm⟩
  · simp [Stream.ios, h.ioB, hb, ha, hm, add_comm, ← Multiset.coe_add]
  · rw [Stream.ios, Stream.ios, h.ioB, hb, hn, ha, hm]
    rfl

omit h in
lemma socks (hb : x.sock .b = none) : (↑(bind r c x).socks : Multiset Ref) = {c} + ↑x.socks := by
  have ha : (bind r c x).sock .a = x.sock .a := rfl
  have hc : (bind r c x).sock .b = some c := rfl
  rw [Stream.socks, Stream.socks, ha, hc, hb]
  simp [add_comm, ← Multiset.coe_add]

lemma conn_madeBy (is : List IoRef) :
    (x.madeBy r.s ++ is).filterMap conn = is.filterMap conn := by
  rcases h.ioA with ⟨-, hm⟩ | ⟨-, -, hm⟩ <;> rw [hm] <;> rfl

lemma held {is is' : List IoRef} (hx : x.Held is) : (bind r c x).Held is' := by
  refine ⟨fun l c' hl => ?_, fun hu => absurd (h.bound.symm.trans hu) (by simp)⟩
  cases l with
  | a =>
    rcases h.ioA with ⟨ha, -⟩ | ⟨-, ha, -⟩
    · exact hx.legs .a c' (ha ▸ hl)
    · cases ha.symm.trans hl
  | b =>
    cases h.ioB.symm.trans hl
    rfl

end

end Attaches

lemma holds_attach {β : Type} {f : Conn → β} {g : Agent → β} {k : Stream → List β} (hw : Wf b)
    {c : Conn} (hc : c ∈ b.conns) (hx : x ∈ b.streams) {made : Multiset β}
    (hk : (↑(k (bind r c.ref x)) : Multiset β) = made + ({f c} + ↑(k x))) :
    (connUnlink c.ref (b.updStream x.ref (bind r c.ref))).holds f g k = made + b.holds f g k := by
  have hup := holds_updStream (f := f) (g := g) (k := k) hw hx (bind r c.ref)
  have hun : (b.updStream x.ref (bind r c.ref)).holds f g k = _ := holds_unlink hw.conns.nodup hc
  rw [hk, hun] at hup
  refine add_left_cancel (a := ({f c} : Multiset β) + ↑(k x)) ?_
  calc {f c} + ↑(k x) + (connUnlink c.ref (b.updStream x.ref (bind r c.ref))).holds f g k
      = {f c} + (connUnlink c.ref (b.updStream x.ref (bind r c.ref))).holds f g k + ↑(k x) :=
        add_right_comm _ _ _
    _ = made + ({f c} + ↑(k x)) + b.holds f g k := hup
    _ = {f c} + ↑(k x) + (made + b.holds f g k) := by
      rw [add_comm made, add_assoc]

lemma attach (h : Owned b) (hw : Wf b) {c : Conn} (hc : c ∈ b.conns) (hx : x ∈ b.streams)
    (hr : Attaches x r c.ref) : Owned (connUnlink c.ref { b.noteClosed (x.closedBy r.s) [] with
        streams := upd x.ref (bind r c.ref) b.streams
        ioMade := x.madeBy r.s ++ b.ioMade }) := by
  obtain ⟨hib, hkb, hraw⟩ := (h.held x hx).unbound hr.unbound
  have hi : (connUnlink c.ref (b.updStream x.ref (bind r c.ref))).ios =
    ↑(x.madeBy r.s) + b.ios := holds_attach hw hc hx (hr.ios hib)
  have hk : (connUnlink c.ref (b.updStream x.ref (bind r c.ref))).socks = 0 + b.socks :=
    holds_attach hw hc hx ((Attaches.socks hkb).trans (zero_add _).symm)
  rw [hr.closedBy]
  refine ⟨?_, ?_, ?_, ?_, ?_, h.timers_unlink c.ref⟩
  · refine (congrArg (· + (↑b.ioClosed : Multiset IoRef)) hi).trans ?_
    exact (add_assoc _ _ _).trans (congrArg (_ + ·) h.ios)
  · refine (congrArg (· + (↑b.sockClosed : Multiset Ref)) (hk.trans (zero_add _))).trans ?_
    exact h.socks.trans (congrArg _ (hr.conn_madeBy _).symm)
  · rcases hr.ioA with ⟨-, hm⟩ | ⟨-, -, hm⟩ <;> rw [connUnlink, hm]
    · exact h.made
    · exact nodup_cons.2 ⟨hraw, h.made⟩
  · rcases hr.ioA with ⟨-, hm⟩ | ⟨-, -, hm⟩ <;> rw [connUnlink, hm]
    · exact h.fresh
    · exact forall_mem_cons.2 ⟨hw.streams.lt x hx, h.fresh⟩
  · refine forall_upd (fun y hy hne => ?_) fun y hy he => ?_
    · refine { h.held y hy with unbound := fun hu => ?_ }
      obtain ⟨h1, h2, h3⟩ := (h.held y hy).unbound hu
      refine ⟨h1, h2, fun hm => ?_⟩
      rcases mem_append.1 hm with hm | hm
      · rcases hr.ioA with ⟨-, he⟩ | ⟨-, -, he⟩ <;> rw [he] at hm
        · cases hm
        · exact hne (raw.inj (mem_singleton.1 hm))
      · exact h3 hm
    · rw [eq_of_key hw.streams.nodup hy hx he]
      exact hr.held (h.held x hx)

end Attach

lemma move (hm : Move digest b₀ e b b') (hw : Wf b) (h : Owned b) : Owned b' := by
  cases hm with
  | misc he hn =>
    obtain ⟨-, -, -, hc, ha, hs, -, -, -, ht, hm, hi, hk⟩ := core_eq.1 he
    exact h.of_same (by rw [hc]) ha hs ht hm hi hk hn
  | accept => exact h.accept
  | closeConn c => exact h.closeConn c
  | hello _ | auth _ _ _ =>
    exact h.of_same (map_upd fun _ _ _ => rfl) rfl rfl rfl rfl rfl rfl le_rfl
  | addTunnel => exact h.of_same rfl rfl rfl rfl rfl rfl rfl (Nat.le_succ _)
  | dropAgent hx => exact h.dropAgent hw hx
  | addAgent _ _ _ hc =>
    obtain ⟨c, hc, rfl⟩ := hc
    exact h.addAgent hw hc _
  | openStream => exact h.openStream _ _
  | peerStream _ _ _ _ _ hc =>
    obtain ⟨c, hc, rfl⟩ := hc
    exact h.peerStream hw hc _ _
  | closeStream hx => exact h.closeStream hw hx
  | relay hx hs hl _ => exact h.relay hw hx (Relay.shrinks_step hs hl) (Relay.bound_step hs hl)
  | attach hx hb hs hc =>
    obtain ⟨c, hc, rfl⟩ := hc
    obtain ⟨-, -, -, -, -, -, -, hu, -⟩ := hb
    obtain ⟨h1, h2, h3⟩ := Relay.legs_attach hs (hw.live _ hx) hu
    exact h.attach hw hc hx ⟨hu, h1, h2, h3⟩
  | _ =>
    exact h.of_same rfl rfl rfl rfl rfl rfl rfl le_rfl

lemma of_trace {tr : List (Broker × BrokerEvent)}
    (h : Trace (brokerStep digest) BrokerInit tr b) : Owned b :=
  inv_of_moves (fun _ => init) (fun _ _ _ _ (_ : True) hw hm ho => ho.move hm hw) h
    fun _ _ => trivial

end Owned

/-! ## Owners -/

section Owners

variable {digest : Bytes → Digest} {b b' : Broker} {c : Ref}

lemma length_legsWith (p : Leg → Bool) (st : Stream) :
    (legsWith p st).length = (if p .a then 1 else 0) + if p .b then 1 else 0 := by
  rw [legsWith, length_map, ← countP_eq_length_filter, countP_cons, countP_singleton, add_comm]

lemma count_toList {β : Type*} [DecidableEq β] (o o' : Option β) (v : β) :
    (o.toList ++ o'.toList).count v =
      (if o = some v then 1 else 0) + if o' = some v then 1 else 0 := by
  rw [count_append]
  congr 1
  · cases o <;> simp [count_singleton]
  · cases o' <;> simp [count_singleton]

variable {p : Stream → Leg → Bool}

lemma count_holds {β : Type} [DecidableEq β] {f : Conn → β} {g : Agent → β}
    {k : Stream → List β} {v : β} (hf : ∀ x, f x = v ↔ x.ref = c)
    (hg : ∀ a, g a = v ↔ a.conn = c) (hk : ∀ st, (k st).count v = (legsWith (p st) st).length) :
    (b.holds f g k).count v = (b.owners c p).length := by
  have h1 : (b.conns.map f).count v = (b.conns.filter (·.ref = c)).length := by
    rw [count, countP_map, ← countP_eq_length_filter]
    exact countP_congr fun x _ => by simp [hf]
  have h2 : (b.agents.map g).count v = (b.agents.filter (·.conn = c)).length := by
    rw [count, countP_map, ← countP_eq_length_filter]
    exact countP_congr fun a _ => by simp [hg]
  have h3 : (b.streams.flatMap k).count v =
      (b.streams.flatMap fun st => legsWith (p st) st).length := by
    rw [count_flatMap, length_flatMap]
    exact congrArg sum (map_congr_left fun st _ => hk st)
  simp only [holds, owners, Multiset.count_add, Multiset.coe_count,
    length_append, length_map, h1, h2, h3]

lemma count_ios : b.ios.count (.ssl c) = (b.ioOwners c).length :=
  count_holds (fun x => by simp) (fun a => by simp) fun st => by
    rw [Stream.ios, count_toList, length_legsWith]
    simp

lemma count_socks : b.socks.count c = (b.sockOwners c).length :=
  count_holds (fun _ => .rfl) (fun _ => .rfl) fun st => by
    rw [Stream.socks, count_toList, length_legsWith]
    simp

lemma pending_mem_owners : .pending ∈ b.owners c p ↔ c ∈ b.conns.map Conn.ref := by
  simp [owners, legsWith]

section

variable (h : Owned b)
include h

lemma Owned.ioOwners_subset : b.ioOwners c ⊆ b.sockOwners c := by
  intro o ho
  rcases mem_append.1 ho with ho | ho
  · exact mem_append_left _ ho
  · refine mem_append_right _ ?_
    obtain ⟨st, hst, ho⟩ := mem_flatMap.1 ho
    refine mem_flatMap.2 ⟨st, hst, ?_⟩
    obtain ⟨l, hl, rfl⟩ := mem_map.1 ho
    obtain ⟨hl, hp⟩ := mem_filter.1 hl
    refine mem_map.2 ⟨l, mem_filter.2 ⟨hl, ?_⟩, rfl⟩
    exact decide_eq_true ((h.held st hst).legs l c (of_decide_eq_true hp))

omit h in
lemma mem_sockOwners {o : Owner} (ho : o ∈ b.sockOwners c) :
    o ∈ b.ioOwners c ∨ ∃ st l, o = .leg st l := by
  rcases mem_append.1 ho with ho | ho
  · exact .inl (mem_append_left _ ho)
  · obtain ⟨st, -, ho⟩ := mem_flatMap.1 ho
    obtain ⟨l, -, rfl⟩ := mem_map.1 ho
    exact .inr ⟨st.ref, l, rfl⟩

lemma Owned.ioClosed_nodup : b.ioClosed.Nodup := by
  refine Multiset.coe_nodup.1 (Multiset.nodup_of_le (Multiset.le_add_left _ b.ios) ?_)
  rw [h.ios]
  exact h.made

omit h in
lemma conn_inj (i i' : IoRef) (c : Ref) (h : c ∈ i.conn) (h' : c ∈ i'.conn) : i = i' := by
  cases i <;> cases i' <;> simp_all [conn]

lemma Owned.conns_nodup : (b.ioMade.filterMap conn).Nodup :=
  h.made.filterMap conn_inj

lemma Owned.sockClosed_nodup : b.sockClosed.Nodup := by
  refine Multiset.coe_nodup.1 (Multiset.nodup_of_le (Multiset.le_add_left _ b.socks) ?_)
  rw [h.socks]
  exact h.conns_nodup

lemma Owned.length_ioOwners (hc : .ssl c ∈ b.ioMade) :
    (b.ioOwners c).length + b.ioClosed.count (.ssl c) = 1 := by
  have := congrArg (Multiset.count (ssl c)) h.ios
  rw [Multiset.count_add, count_ios, Multiset.coe_count, Multiset.coe_count] at this
  exact this.trans (count_eq_one_of_mem h.made hc)

lemma Owned.length_sockOwners (hc : .ssl c ∈ b.ioMade) :
    (b.sockOwners c).length + b.sockClosed.count c = 1 := by
  have := congrArg (Multiset.count c) h.socks
  rw [Multiset.count_add, count_socks, Multiset.coe_count, Multiset.coe_count] at this
  exact this.trans (count_eq_one_of_mem h.conns_nodup (mem_filterMap.2 ⟨_, hc, rfl⟩))

omit h in
inductive Broker.Held (b : Broker) (c : Ref) : Prop
  | both (o : Owner) : b.ioOwners c = [o] → b.sockOwners c = [o] → .ssl c ∉ b.ioClosed →
      c ∉ b.sockClosed → b.Held c
  /-- A leg has lost its io. -/
  | sock (st : Ref) (l : Leg) : b.ioOwners c = [] → b.sockOwners c = [.leg st l] →
      .ssl c ∈ b.ioClosed → c ∉ b.sockClosed → b.Held c
  | closed : b.ioOwners c = [] → b.sockOwners c = [] → .ssl c ∈ b.ioClosed → c ∈ b.sockClosed →
      b.Held c

lemma Owned.held_conn (hc : .ssl c ∈ b.ioMade) : b.Held c := by
  have hi := h.length_ioOwners hc
  have hs := h.length_sockOwners hc
  have hsub := h.ioOwners_subset (c := c)
  by_cases hk : c ∈ b.sockClosed
  · have hk' := count_pos_iff.2 hk
    have hs0 : b.sockOwners c = [] := eq_nil_of_length_eq_zero (by omega)
    have hi0 : b.ioOwners c = [] := subset_nil.1 (hs0 ▸ hsub)
    refine .closed hi0 hs0 (count_pos_iff.1 ?_) hk
    rw [hi0] at hi
    simp at hi
    omega
  · rw [count_eq_zero_of_not_mem hk] at hs
    obtain ⟨o, ho⟩ := length_eq_one_iff.1 hs
    by_cases hcl : .ssl c ∈ b.ioClosed
    · have hcl' := count_pos_iff.2 hcl
      have hi0 : b.ioOwners c = [] := eq_nil_of_length_eq_zero (by omega)
      rcases mem_sockOwners (ho ▸ mem_singleton_self o) with hm | ⟨st, l, rfl⟩
      · rw [hi0] at hm
        cases hm
      · exact .sock st l hi0 ho hcl hk
    · rw [count_eq_zero_of_not_mem hcl] at hi
      obtain ⟨o', ho'⟩ := length_eq_one_iff.1 hi
      have : o' = o := mem_singleton.1 (ho ▸ hsub (ho' ▸ mem_singleton_self o'))
      exact .both o (this ▸ ho') ho hcl hk

lemma Owned.conn_made (hc : c ∈ b.conns.map Conn.ref) : .ssl c ∈ b.ioMade := by
  have hm : (.ssl c) ∈ b.ios := by
    obtain ⟨x, hx, rfl⟩ := mem_map.1 hc
    simp only [Broker.ios, Broker.holds, Multiset.mem_add, Multiset.mem_coe]
    exact .inl (.inl (mem_map.2 ⟨x, hx, rfl⟩))
  rw [← Multiset.mem_coe, ← h.ios]
  exact Multiset.mem_add.2 (.inl hm)

end

lemma made_move {b₀ : Broker} {e : BrokerEvent} (hm : Move digest b₀ e b b')
    (hc : .ssl c ∈ b.ioMade) : .ssl c ∈ b'.ioMade := by
  cases hm with
  | misc he =>
    obtain ⟨-, -, -, -, -, -, -, -, -, -, hm, -, -⟩ := core_eq.1 he
    exact hm ▸ hc
  | accept => exact mem_cons_of_mem _ hc
  | relay _ _ _ _ | attach _ _ _ _ => exact mem_append_right _ hc
  | _ => exact hc

end Owners

def Broker.Pending (b : Broker) (c : Ref) : Prop :=
  c ∈ b.timers ∧ b.ioOwners c = [.pending] ∧ b.sockOwners c = [.pending]

lemma Owned.pending {b : Broker} (h : Owned b) {c : Ref} (hc : c ∈ b.conns.map Conn.ref) :
    b.Pending c := by
  refine ⟨h.timers ▸ hc, ?_⟩
  have hi : .pending ∈ b.ioOwners c := pending_mem_owners.2 hc
  cases h.held_conn (h.conn_made hc) with
  | both o ho hs =>
    obtain rfl : .pending = o := mem_singleton.1 (ho ▸ hi)
    exact ⟨ho, hs⟩
  | sock _ _ hn | closed hn =>
    rw [hn] at hi
    cases hi

/-! ## Writes that break the connection -/

lemma dataConnAttach_isSome {b : Broker} {c : Conn} {st : Stream} {w : Write} (hw : Wf b)
    (hst : st ∈ b.streams) (ht : st.relay.todo = []) :
    (dataConnAttach c st w b).isSome = true ↔ w ≠ .broken := by
  have hg (b' : Broker) (he : b'.streams = b.streams) : get st.ref b'.streams = some st :=
    he ▸ get_of_mem hw.streams.nodup hst
  cases w <;> simp [dataConnAttach, relayStep, hg, log, protocolError, Relay.step, ht]

/-- The stream is marked bound, but leg B has neither io nor socket. -/
def Stream.Unserved (st : Stream) : Prop :=
  st.relay.s.bound = true ∧ st.io .b = none ∧ st.sock .b = none

instance (st : Stream) : Decidable st.Unserved :=
  inferInstanceAs (Decidable (_ ∧ _ ∧ _))

lemma relayStart_unserved {s : Duplex.Stream} (hb : s.bound = false) (hi : s.b.io = none) :
    (Relay.tmStreamRelayStart s).1.bound = true ∧ (Relay.tmStreamRelayStart s).1.b.io = none := by
  unfold Relay.tmStreamRelayStart Duplex.flushPend
  simp only [hb, Bool.false_eq_true, if_false]
  split_ifs <;> exact ⟨rfl, hi⟩

lemma dataConnBroken_unserved {b : Broker} {c : Conn} {st : Stream} (hw : Wf b) (ho : Owned b)
    (hc : c ∈ b.conns) (hst : st ∈ b.streams) (hb : st.relay.s.bound = false) :
    (∃ x ∈ (dataConnBroken c st b).1.streams, x.ref = st.ref ∧ x.Unserved) ∧
      (dataConnBroken c st b).2 = [c.ref, c.ref] := by
  obtain ⟨hi, hs, -⟩ := (ho.held st hst).unbound hb
  obtain ⟨hr, hi'⟩ := relayStart_unserved hb (Option.map_eq_none_iff.1 hi)
  have hm := mem_upd_self (f := fun x : Stream =>
    { x with relay := st.relay.push (Relay.tmStreamRelayStart st.relay.s) }) hst rfl
  refine ⟨⟨_, hm, rfl, hr, Option.map_eq_none_iff.2 hi', hs⟩, ?_⟩
  have hf : (b.conns.filter (·.ref = c.ref)).map Conn.ref = [c.ref] := by
    have hone : (b.conns.map Conn.ref).count c.ref = 1 :=
      count_eq_one_of_mem hw.conns.nodup (mem_map_of_mem hc)
    have hm := filter_map (p := (· = c.ref)) (f := Conn.ref) (l := b.conns)
    rw [filter_eq, hone] at hm
    exact hm.symm
  exact congrArg (· ++ [c.ref]) hf

/-- In every run the io object and the socket of an accepted connection have the same one owner, or
are closed, none twice, and a pending connection has its timer. A promotion succeeds if the write
does not break the connection; else a data connection leaves a bound stream without a leg B and
closes its timer twice. -/
theorem connections_owned {digest : Bytes → Digest} {tr : List (Broker × BrokerEvent)} {b : Broker}
    (h : Trace (brokerStep digest) BrokerInit tr b) :
    ((∀ c, .ssl c ∈ b.ioMade → b.Held c) ∧ b.timers = b.conns.map Conn.ref ∧
    b.ioClosed.Nodup ∧ b.sockClosed.Nodup ∧
    ∀ e b', brokerStep digest b e = some b' → ∀ c ∈ b.conns.map Conn.ref, b.Pending c ∧
      if c ∈ b'.conns.map Conn.ref then b'.Pending c
      else c ∉ b'.timers ∧ .pending ∉ b'.sockOwners c ∧ b'.Held c) ∧
    ∀ c ∈ b.conns, (∀ t w, (agentPromote c t w b).isSome = true ↔ w ≠ .broken) ∧
      ∀ st ∈ b.streams, st.relay.s.bound = false → st.relay.todo = [] →
        (∀ w, (dataConnAttach c st w b).isSome = true ↔ w ≠ .broken) ∧
        (∃ x ∈ (dataConnBroken c st b).1.streams, x.ref = st.ref ∧ x.Unserved) ∧
        (dataConnBroken c st b).2 = [c.ref, c.ref] := by
  have ho := Owned.of_trace h
  have hw := Wf.of_trace h
  refine ⟨⟨fun c hc => ho.held_conn hc, ho.timers, ho.ioClosed_nodup, ho.sockClosed_nodup, ?_⟩,
    fun c hc => ⟨fun t w => by cases w <;> simp [agentPromote], fun st hst hb ht =>
      ⟨fun w => dataConnAttach_isSome hw hst ht, dataConnBroken_unserved hw ho hc hst hb⟩⟩⟩
  intro e b' hs c hc
  have ho' : Owned b' := .of_trace (h.next hs)
  refine ⟨ho.pending hc, ?_⟩
  split_ifs with hc'
  · exact ho'.pending hc'
  · have hm : .ssl c ∈ b'.ioMade :=
      Moves.inv (step_moves hw hs) hw (ho.conn_made hc) fun _ _ _ => made_move
    exact ⟨ho'.timers ▸ hc', fun hp => hc' (pending_mem_owners.1 hp), ho'.held_conn hm⟩

/-- The write of DATA_BIND_OK breaks the connection. -/
theorem data_bind_broken : ∃ tr b, Trace (brokerStep padDigest) BrokerInit tr b ∧
    ∃ c ∈ b.conns, ∃ st ∈ b.streams, ∃ f, c.ref = 5 ∧ st.ref = 4 ∧
      dataConnFirstFrame padDigest c f .broken b = none ∧
      (∃ x ∈ (dataConnBroken c st b).1.streams, x.ref = 4 ∧ x.Unserved) ∧
      (dataConnBroken c st b).2 = [5, 5] := by
  obtain ⟨tr, b, h, c, hc, st, hst, hq⟩ := smallBroker_trace (peerOpens ++ [.controlAccept])
    (fun r => ∃ c ∈ r.2.conns, ∃ st ∈ r.2.streams, c.ref = 5 ∧ st.ref = 4 ∧
      dataConnFirstFrame padDigest c ⟨.dataBind, 1, [1]⟩ .broken r.2 = none ∧
      (∃ x ∈ (dataConnBroken c st r.2).1.streams, x.ref = 4 ∧ x.Unserved) ∧
      (dataConnBroken c st r.2).2 = [5, 5]) (by decide)
  exact ⟨tr, b, h, c, hc, st, hst, _, hq⟩

theorem connections_owned_promoted : ∃ tr b, Trace (brokerStep padDigest) BrokerInit tr b ∧
    b.conns = [] ∧ b.timers = [] ∧ b.sockOwners 1 = [.agent 2] ∧ b.sockOwners 3 = [.leg 4 .a] ∧
    b.sockOwners 5 = [.leg 4 .b] ∧ ∀ c ∈ [1, 3, 5], b.Held c := by
  obtain ⟨tr, b, h, hc, hm, h1, h3, h5⟩ := smallBroker_trace
    (peerOpens ++ [.controlAccept, sends 5 .dataBind 1 [1]])
    (fun r => r.2.conns = [] ∧ (∀ c ∈ [1, 3, 5], .ssl c ∈ r.2.ioMade) ∧
      r.2.sockOwners 1 = [.agent 2] ∧ r.2.sockOwners 3 = [.leg 4 .a] ∧
      r.2.sockOwners 5 = [.leg 4 .b]) (by decide)
  obtain ⟨⟨hh, ht, -⟩, -⟩ := connections_owned h
  exact ⟨tr, b, h, hc, by rw [ht, hc]; rfl, h1, h3, h5, fun c hx => hh c (hm c hx)⟩

end TunnelMate
