import TunnelMate.Proofs.PeerUdp
import TunnelMate.Proofs.UdpWorld

/-!
# What happens after a loss

A client sends its ClientHello once and its AUTH once, and its timers sweep flows and keep an
authenticated session alive.
-/

namespace TunnelMate

open Option Table

namespace Udp

variable {cfg : BrokerCfg} {p : Plane} {s : Ref} {x : Session} {a : PumpAns} {recs : ℕ}

structure Session.Retransmits (cfg : BrokerCfg) (p : Plane) (now : ℕ) (x : Session) : Prop where
  handshake : x.handshakeDone = false
  inflight : x.inflight = false
  heard : ¬ x.Silent cfg now
  room : p.udpRawInflight < toU64 cfg.udpQueuePackets

lemma sent_udpSendRaw {o : Option Ref} {dst : Addr} {body : Body} {send : Bool}
    (h : (udpSendRaw cfg o dst body send p).sent ≠ p.sent) :
    p.udpRawInflight < toU64 cfg.udpQueuePackets := by
  unfold udpSendRaw at h
  split_ifs at h with hq
  · exact absurd rfl h
  · omega
  · exact absurd rfl h

lemma sent_pumpOut (hx : get s p.sessions = some x) (h : (pumpOut cfg s a p).sent ≠ p.sent) :
    x.inflight = false ∧ p.udpRawInflight < toU64 cfg.udpQueuePackets := by
  simp only [pumpOut, hx] at h
  split_ifs at h with hi
  · exact absurd rfl h
  refine ⟨by simpa using hi, ?_⟩
  split at h
  · exact absurd rfl h
  split at h
  · exact absurd rfl h
  · exact sent_udpSendRaw (p := { p with pumps := _ }.upd s _) h

lemma encrypt_want (x : Session) : encrypt .want x = some x := by
  unfold encrypt
  split <;> rfl

section

variable (hx : get s p.sessions = some x)
include hx

lemma sent_pumpOut_want (hi : x.inflight = false)
    (hw : x.wbio ≠ []) (hr : p.udpRawInflight < toU64 cfg.udpQueuePackets) :
    (pumpOut cfg s ⟨.want, true⟩ p).sent ≠ p.sent := by
  obtain ⟨r, rest, hw⟩ := List.exists_cons_of_ne_nil hw
  have hr' : ¬ p.udpRawInflight ≥ toU64 cfg.udpQueuePackets := by omega
  simp [pumpOut, hx, hi, encrypt_want, hw, udpSendRaw, Plane.upd, hr']

lemma get_addRecs (recs : ℕ) : get s (addRecs s recs p).sessions =
      some { x with wbio := x.wbio ++ .replicate recs none } := by
  have h : get s (addRecs s recs p).sessions = (get s p.sessions).map fun x =>
      { x with wbio := x.wbio ++ .replicate recs none } := get_upd fun _ => rfl
  rw [h, hx]
  rfl

lemma retransmits_of_sent
    (h : (sessionTimer cfg s recs a p).sent ≠ p.sent) : x.Retransmits cfg p p.now := by
  simp only [sessionTimer, hx] at h
  split_ifs at h with hsil hdone
  · simp [tmUdpSessionClose, hx] at h
  · exact absurd rfl h
  · obtain ⟨hi, hr⟩ := sent_pumpOut (get_addRecs hx recs) h
    exact ⟨by simpa using hdone, hi, hsil, hr⟩

lemma sent_of_retransmits (h : x.Retransmits cfg p p.now) :
    (sessionTimer cfg s 1 ⟨.want, true⟩ p).sent ≠ p.sent := by
  simp only [sessionTimer, hx]
  have hsil : ¬ p.now - x.lastRxMs > toU64 cfg.udpFlowIdleTimeoutMs * 2 % 2 ^ 64 := h.heard
  rw [if_neg hsil, if_neg (by simp [h.handshake])]
  exact sent_pumpOut_want (get_addRecs hx 1) h.inflight (by simp) h.room

end

end Udp

namespace PeerUdp

variable {x y : Life} {ev : Event}

lemma wire_uvClose (w : Which) (p : App) :
    (p.uvClose w).ssl = p.ssl ∧ (p.uvClose w).sent = p.sent := by
  unfold App.uvClose
  split_ifs
  · cases w <;> exact ⟨rfl, rfl⟩
  · exact ⟨rfl, rfl⟩

lemma sent_udpReconnect {p : App} (r : StartAns) (ended : List Ref) (hs : p.ssl ≠ none) :
    (udpReconnect r ended p).sent = p.sent := by
  unfold udpReconnect
  dsimp only
  split_ifs
  · rfl
  · obtain ⟨hssl, hsent⟩ := wire_uvClose .reconnectTimer { p with reconnectTimerOn := false }
    have hsome := isSome_iff_ne_none.2 hs
    rw [tmPeerUdpStart, hssl, if_pos (by rw [hsome, Bool.true_or]), hsent]

lemma ssl_udpReconnect {p : App} (addr : Addr) (recs : ℕ) (ended : List Ref) (hb : p.Bare)
    (hs : p.ssl = none) (hd : p.shuttingDown = false) :
    ∃ y, (udpReconnect (.ok addr recs) ended p).ssl = some y := by
  have h : (udpReconnect (.ok addr recs) ended p).life.session = true := by
    rw [(App.Lives.reconnect ⟨rfl, hb⟩ _ _).life]
    simp [Life.reconnect, Life.start, App.life, hs, hd]
  exact isSome_iff_exists.1 h

def Event.startsOk : Event → Bool
  | .start r | .reconnect r => r.isOk
  | _ => true

def Life.Waits (x : Life) : Prop :=
  x.session = false → x.shuttingDown = true ∨ x.reconnectOn = true

namespace Life.Waits

lemma stop (h : x.Waits) : x.stop.Waits := by
  unfold Life.stop
  split
  · dsimp only
    split_ifs with hd
    · exact fun _ => .inl (by simpa using hd)
    · exact fun _ => .inr rfl
  · exact h

lemma start (x : Life) {r : StartAns} (hr : r.isOk = true) : (x.start r).Waits := by
  obtain ⟨addr, recs, rfl⟩ := StartAns.eq_ok hr
  unfold Life.start
  split_ifs with hs
  · intro hn
    rw [hn, Bool.false_or] at hs
    exact .inl hs
  · intro hn
    cases hn

lemma step (h : x.Waits) (hs : Life.Step x ev y) (ho : ev.startsOk = true) : y.Waits := by
  cases hs with
  | quiet | closed => exact h
  | stop => exact h.stop
  | start => exact start x ho
  | reconnect =>
    unfold Life.reconnect
    dsimp only
    split_ifs with hd
    · exact fun _ => .inl hd
    · exact start _ ho
  | shutdown =>
    unfold Life.shutdown
    split_ifs
    · exact h
    · exact stop fun _ => .inl rfl

end Life.Waits

end PeerUdp

namespace UdpWorld

variable {ι : Type} {bcfg : BrokerCfg} {acfg : AgentUdp.Cfg}
  {pcfg : ι → PeerUdp.Cfg} {digest : Bytes → Digest} {w w' : World ι} {c : Party ι}

/-! ## Timers -/

namespace World

def udpAuthed (w : World ι) : Party ι → Bool
  | .agent => w.app.udpAuthed
  | .peer k => (w.peers k).udpAuthed

def Up (w : World ι) : Party ι → Prop
  | .agent => w.app.ssl ≠ none
  | .peer k => (w.peers k).shuttingDown = false

inductive Timer (w : World ι) : Party ι → Event ι → Prop
  | session {c : Party ι} {x : Udp.Session} (loop : ℕ) (k : Udp.Creds) (recs : ℕ)
      (a : Udp.PumpAns) : x ∈ w.plane.sessions → tmAddrEq x.peer (w.client c).addr = true →
      Timer w c (.pair (.broker loop k (.sessionTimer x.ref recs a)))
  | agentSweep : Timer w .agent (.pair .flowSweep)
  | peerSweep (k : ι) : Timer w (.peer k) (.peer k .flowSweep)
  | keepalive (k : ι) (ans : List Udp.SslAns) : Timer w (.peer k) (.peer k (.keepalive ans))
  | reconnect (k : ι) (r : PeerUdp.StartAns) : Timer w (.peer k) (.peer k (.reconnect r))

def Revives (c : Party ι) (w w' : World ι) : Prop :=
  (w'.client c).sent ≠ (w.client c).sent ∨ w'.plane.sent ≠ w.plane.sent ∨
    (w.client c).ssl = none ∧ (w'.client c).ssl ≠ none

def Recovers [DecidableEq ι] (bcfg : BrokerCfg) (acfg : AgentUdp.Cfg) (pcfg : ι → PeerUdp.Cfg)
    (digest : Bytes → Digest) (w : World ι) (c : Party ι) : Prop :=
  ∃ l w', w.Timer c l.ev ∧ step bcfg acfg pcfg digest w l = some w' ∧ Revives c w w'

def InHandshake (bcfg : BrokerCfg) (w : World ι) (c : Party ι) : Prop :=
  ∃ x ∈ w.plane.sessions, tmAddrEq x.peer (w.client c).addr = true ∧
    x.Retransmits bcfg w.plane w.now

end World

lemma not_revives (hs : (w.client c).ssl ≠ none) (hp : w'.plane.sent = w.plane.sent)
    (hc : (w'.client c).sent = (w.client c).sent) : ¬ World.Revives c w w' := by
  rintro (h | h | ⟨h, -⟩)
  · exact h hc
  · exact h hp
  · exact hs h

variable {d : AgentUdp.Pair} {now : ℕ} {r : ι → PeerUdp.StartAns} {k : ι}

lemma retransmits_of_revives {x : Udp.Session} {loop recs : ℕ} {k : Udp.Creds} {a : Udp.PumpAns}
    (hi : Table.Fresh w.plane.nextRef w.plane.sessions) (hs : (w.client c).ssl ≠ none)
    (hx : x ∈ w.plane.sessions)
    (hc : AgentUdp.handle bcfg acfg digest { w.toPair with now := now } now
      (.broker loop k (.sessionTimer x.ref recs a)) = some d)
    (hr : World.Revives c w (w.setPair (.broker loop k (.sessionTimer x.ref recs a)) d)) :
    x.Retransmits bcfg w.plane now := by
  obtain ⟨p, hp, rfl⟩ := map_eq_some_iff.1 hc
  have hget : get x.ref w.plane.sessions = some x := get_of_mem hi.nodup hx
  unfold Udp.step at hp
  split_ifs at hp
  cases hp
  by_contra hn
  refine not_revives hs ?_ ?_ hr
  · by_contra hsent
    have hret := Udp.retransmits_of_sent (p := { w.plane with now := now, loop := loop }) hget hsent
    exact hn { hret with }
  · cases c <;> rfl

/-! ## What a run keeps -/

structure Running (w : World ι) : Prop where
  plane : Udp.Inv w.plane
  clock : w.plane.now ≤ w.now
  bare : ∀ k, (w.peers k).Bare
  waits : ∀ k, (w.peers k).life.Waits

namespace Running

lemma init (hi : Init r w) (hr : ∀ k, (r k).isOk = true) : Running w := by
  obtain ⟨hw, hp⟩ := hi
  rw [hw]
  refine ⟨.init, le_rfl, fun k => ?_, fun k => ?_⟩
  all_goals
    obtain ⟨ended, max, clock, he⟩ := hp k
    rw [he]
  · exact (PeerUdp.App.Lives.init _ _ _).bare
  · rw [(PeerUdp.App.Lives.init _ _ _).life]
    exact .start _ (hr k)

lemma reconnectTimerOn (h : Running w) (hs : (w.peers k).ssl = none)
    (hd : (w.peers k).shuttingDown = false) : (w.peers k).reconnectTimerOn = true := by
  have hw := h.waits k
  simpa [PeerUdp.Life.Waits, PeerUdp.App.life, hs, hd] using hw

lemma setPair (h : Running w) {ev : AgentUdp.Event} (hn : w.now ≤ now)
    (hs : AgentUdp.handle bcfg acfg digest { w.toPair with now := now } now ev = some d) :
    Running (w.setPair ev d) := by
  have quiet : d.plane = w.plane → d.now = now → Running (w.setPair ev d) := by
    intro hp hnow
    refine { h with plane := hp ▸ h.plane, clock := ?_ }
    change d.plane.now ≤ d.now
    rw [hp, hnow]
    exact h.clock.trans hn
  cases ev with
  | broker =>
    obtain ⟨p, hp, rfl⟩ := map_eq_some_iff.1 hs
    obtain ⟨-, o, hm⟩ := Udp.step_turns hp
    exact { h with plane := h.plane.step hp, clock := (Udp.Turns.now hm).le }
  | udpRecv =>
    obtain ⟨-, rfl⟩ := of_guard hs
    exact quiet rfl rfl
  | _ =>
    cases hs
    exact quiet rfl rfl

end Running

/-! ## When a timer helps -/

section

variable [DecidableEq ι]

lemma client_setPeer_self (w : World ι) (now : ℕ) (k : ι) (p : PeerUdp.App) :
    (w.setPeer now k p).client (.peer k) = { p with } := by
  rw [World.client, World.peers_setPeer_self]

variable {ev : PeerUdp.Event} {p : PeerUdp.App}

lemma not_revives_peer (hu : (w.peers k).udpAuthed = false) (hs : (w.peers k).ssl ≠ none)
    (ht : w.Timer (.peer k) (.peer k ev))
    (hp : PeerUdp.handle (pcfg k) (AgentUdp.endedSessions w.plane) now (w.peers k) ev = some p) :
    ¬ World.Revives (.peer k) w (w.setPeer now k p) := by
  refine not_revives hs rfl ?_
  rw [client_setPeer_self]
  change p.sent = (w.peers k).sent
  cases ht with
  | peerSweep =>
    obtain ⟨-, rfl⟩ := of_guard hp
    rfl
  | keepalive =>
    obtain ⟨-, rfl⟩ := of_guard hp
    simp [PeerUdp.keepalive, hu]
  | reconnect _ r =>
    obtain ⟨-, rfl⟩ := of_guard hp
    exact PeerUdp.sent_udpReconnect r _ hs

lemma inHandshake_of_recovers (hi : Table.Fresh w.plane.nextRef w.plane.sessions)
    (hu : w.udpAuthed c = false)
    (hs : (w.client c).ssl ≠ none) (h : w.Recovers bcfg acfg pcfg digest c) :
    w.InHandshake bcfg c := by
  obtain ⟨⟨now, ev⟩, w', ht, hstep, hr⟩ := h
  obtain ⟨hnow, ⟨aev, d, rfl, -, hc, rfl⟩ | ⟨k, pev, p, rfl, -, hp, rfl⟩⟩ := step_cases hstep
  · cases ht with
    | session loop k recs a hx ha =>
      have hret := retransmits_of_revives hi hs hx hc hr
      refine ⟨_, hx, ha, { hret with heard := fun hsil => hret.heard ?_ }⟩
      exact hsil.trans_le (Nat.sub_le_sub_right hnow _)
    | agentSweep =>
      cases hc
      exact absurd hr (not_revives hs rfl rfl)
  · cases ht with
    | peerSweep => exact absurd hr (not_revives_peer hu hs (.peerSweep k) hp)
    | keepalive _ ans => exact absurd hr (not_revives_peer hu hs (.keepalive k ans) hp)
    | reconnect _ r => exact absurd hr (not_revives_peer hu hs (.reconnect k r) hp)

lemma recovers_of_inHandshake (hi : Udp.Inv w.plane) (hn : w.plane.now ≤ w.now)
    (h : w.InHandshake bcfg c) : w.Recovers bcfg acfg pcfg digest c := by
  obtain ⟨x, hx, ha, hr⟩ := h
  have hget : get x.ref w.plane.sessions = some x := get_of_mem hi.sessions.nodup hx
  let ev : AgentUdp.Event := .broker w.now ⟨true, [], []⟩ (.sessionTimer x.ref 1 ⟨.want, true⟩)
  let p := Udp.sessionTimer bcfg x.ref 1 ⟨.want, true⟩ { w.plane with now := w.now, loop := w.now }
  have hstep : step bcfg acfg pcfg digest w ⟨w.now, .pair ev⟩ =
      some (w.setPair ev { w.toPair with plane := p }) := by
    have hclock : w.plane.now ≤ w.now ∧ w.plane.loop ≤ w.now ∧ w.now ≤ w.now :=
      ⟨hn, hi.clock.trans hn, le_rfl⟩
    have hp : Udp.step bcfg digest w.plane ⟨w.now, w.now, ⟨true, [], []⟩,
        .sessionTimer x.ref 1 ⟨.want, true⟩⟩ = some p := if_pos hclock
    simp only [step, handle, ev, World.agentMay, AgentUdp.handle, le_refl, if_true, hp, map_some]
  refine ⟨_, _, .session w.now _ 1 _ hx ha, hstep, .inr (.inl ?_)⟩
  exact Udp.sent_of_retransmits hget { hr with }

lemma recovers_of_waits (hb : (w.peers k).Bare) (hs : (w.peers k).ssl = none)
    (hd : (w.peers k).shuttingDown = false) (ho : (w.peers k).reconnectTimerOn = true) :
    w.Recovers bcfg acfg pcfg digest (.peer k) := by
  obtain ⟨y, hy⟩ := PeerUdp.ssl_udpReconnect w.app.addr 1 (AgentUdp.endedSessions w.plane) hb hs hd
  have hstep : step bcfg acfg pcfg digest w ⟨w.now, .peer k (.reconnect (.ok w.app.addr 1))⟩ =
      some (w.setPeer w.now k (PeerUdp.udpReconnect (.ok w.app.addr 1)
        (AgentUdp.endedSessions w.plane) (w.peers k))) := by
    simp only [step, handle, World.peerMay, PeerUdp.handle, le_refl, if_true, ho, map_some]
  refine ⟨_, _, .reconnect k _, hstep, .inr (.inr ⟨hs, ?_⟩)⟩
  rw [client_setPeer_self]
  simp [hy]

def Event.startsOk : Event ι → Bool
  | .pair _ => true
  | .peer _ ev => ev.startsOk

namespace Running

lemma setPeer (h : Running w) (hn : w.now ≤ now) (ho : ev.startsOk = true)
    (hs : PeerUdp.handle (pcfg k) (AgentUdp.endedSessions w.plane) now (w.peers k) ev = some p) :
    Running (w.setPeer now k p) := by
  obtain ⟨hb, hl⟩ :=
    PeerUdp.life_step (l := ⟨AgentUdp.endedSessions w.plane, now, ev⟩) (h.bare k) hs
  refine ⟨h.plane, h.clock.trans hn, fun j => ?_, fun j => ?_⟩
  all_goals by_cases hj : j = k
  · subst hj
    rw [World.peers_setPeer_self]
    exact hb
  · rw [World.peers_setPeer_of_ne w now p hj]
    exact h.bare j
  · subst hj
    rw [World.peers_setPeer_self]
    exact (h.waits j).step hl ho
  · rw [World.peers_setPeer_of_ne w now p hj]
    exact h.waits j

lemma step {l : Label ι} (h : Running w) (ho : l.ev.startsOk = true)
    (hs : step bcfg acfg pcfg digest w l = some w') : Running w' := by
  obtain ⟨hn, ⟨ev, d, -, -, hd, rfl⟩ | ⟨k, ev, p, he, -, hp, rfl⟩⟩ := step_cases hs
  · exact h.setPair hn hd
  · rw [he] at ho
    exact h.setPeer hn ho hp

lemma of_trace {tr : List (World ι × Label ι)}
    (h : Trace (UdpWorld.step bcfg acfg pcfg digest) (Init r) tr w) (hr : ∀ k, (r k).isOk = true)
    (ho : ∀ q ∈ tr, q.2.ev.startsOk = true) : Running w :=
  h.inv_of_ok (fun _ hi => init hi hr) (fun _ _ _ hi hok hs => .step hi hok hs) ho

end Running

/-- In every run in which the starts of the peers succeed, a timer helps a client that is not
authenticated exactly if it has no session, or the broker has one for it in its handshake. -/
theorem recovers_iff {r : ι → PeerUdp.StartAns} {tr : List (World ι × Label ι)}
    (h : Trace (step bcfg acfg pcfg digest) (Init r) tr w) (hr : ∀ k, (r k).isOk = true)
    (ho : ∀ q ∈ tr, q.2.ev.startsOk = true) (hup : w.Up c) (hu : w.udpAuthed c = false) :
    w.Recovers bcfg acfg pcfg digest c ↔ (w.client c).ssl = none ∨ w.InHandshake bcfg c := by
  have hrun := Running.of_trace h hr ho
  constructor
  · intro hrec
    by_cases hs : (w.client c).ssl = none
    · exact .inl hs
    · exact .inr (inHandshake_of_recovers hrun.plane.sessions hu hs hrec)
  · rintro (hs | hh)
    · cases c with
      | agent => exact absurd hs hup
      | peer k =>
        exact recovers_of_waits (hrun.bare k) hs hup (hrun.reconnectTimerOn hs hup)
    · exact recovers_of_inHandshake hrun.plane hrun.clock hh

end

section Runs

open Udp (headDigest)
open AgentUdp (agentAddr)

theorem recovers_iff_both : ∃ tr w,
    Trace (step {} agentCfg peerCfg headDigest) (Init fun _ => .ok peerAddr 1) tr w ∧
    w.Up .agent ∧ w.udpAuthed .agent = false ∧ w.Up (.peer ()) ∧ w.udpAuthed (.peer ()) = false ∧
    w.Recovers {} agentCfg peerCfg headDigest .agent ∧
    w.Recovers {} agentCfg peerCfg headDigest (.peer ()) := by
  obtain ⟨tr, w, h, ho, ha, hua, hp, hup, hs, x, hx, haddr, hd, hi, hsil, hr⟩ := exists_trace
    (step {} agentCfg peerCfg headDigest) (Init fun _ => .ok peerAddr 1) init_started
    (agentShakes.take 3 ++ [peerDoes .stop])
    (fun r => (∀ q ∈ r.1, q.2.ev.startsOk = true) ∧ r.2.app.ssl ≠ none ∧
      r.2.app.udpAuthed = false ∧ (r.2.peers ()).shuttingDown = false ∧
      (r.2.peers ()).udpAuthed = false ∧ (r.2.peers ()).ssl = none ∧
      ∃ x ∈ r.2.plane.sessions, tmAddrEq x.peer r.2.app.addr = true ∧ x.handshakeDone = false ∧
        x.inflight = false ∧
        ¬ r.2.now - x.lastRxMs > toU64 ({} : BrokerCfg).udpFlowIdleTimeoutMs * 2 % 2 ^ 64 ∧
        r.2.plane.udpRawInflight < toU64 ({} : BrokerCfg).udpQueuePackets) (by decide)
  have iff := fun c => recovers_iff (c := c) h (fun _ => rfl) ho
  exact ⟨tr, w, h, ha, hua, hp, hup, (iff .agent ha hua).2 (.inr ⟨x, hx, haddr, hd, hi, hsil, hr⟩),
    (iff (.peer ()) hp hup).2 (.inl hs)⟩

def Stuck (w : World Unit) : Prop :=
  (w.app.ssl ≠ none ∧ w.app.udpAuthed = false) ∧
    ((w.peers ()).ssl ≠ none ∧ (w.peers ()).udpAuthed = false) ∧
    (w.peers ()).shuttingDown = false ∧ ∀ x ∈ w.plane.sessions, x.handshakeDone = true

instance (w : World Unit) : Decidable (Stuck w) :=
  inferInstanceAs (Decidable ((_ ∧ _) ∧ (_ ∧ _) ∧ _ ∧ _))

lemma Stuck.not_recovers {tr : List (World Unit × Label Unit)} {w : World Unit}
    (h : Trace (step {} agentCfg peerCfg headDigest) (Init fun _ => .ok peerAddr 1) tr w)
    (ho : ∀ q ∈ tr, q.2.ev.startsOk = true) (hw : Stuck w) (c : Party Unit) :
    w.Up c ∧ w.udpAuthed c = false ∧ ¬ w.Recovers {} agentCfg peerCfg headDigest c := by
  obtain ⟨⟨ha, hua⟩, ⟨hp, hup⟩, hd, hx⟩ := hw
  have hfresh := (Running.of_trace h (fun _ => rfl) ho).plane.sessions
  have alone : w.udpAuthed c = false → (w.client c).ssl ≠ none →
      ¬ w.Recovers {} agentCfg peerCfg headDigest c := by
    intro hu hs hrec
    obtain ⟨x, hm, -, hr⟩ := inHandshake_of_recovers hfresh hu hs hrec
    exact Bool.noConfusion ((hx x hm).symm.trans hr.handshake)
  cases c with
  | agent => exact ⟨ha, hua, alone hua ha⟩
  | peer k => exact ⟨hd, hup, alone hup hp⟩

/-- Both ClientHellos are lost, or the agent's AUTH and the broker's AUTH_OK to the peer: no timer
helps any of the clients. -/
theorem clients_stranded :
    (∃ tr w, Trace (step {} agentCfg peerCfg headDigest) (Init fun _ => .ok peerAddr 1) tr w ∧
      w.plane.opened = [] ∧ w.app.sent = [none] ∧ (w.peers ()).sent = [none] ∧
      ∀ c, w.Up c ∧ w.udpAuthed c = false ∧ ¬ w.Recovers {} agentCfg peerCfg headDigest c) ∧
    (∃ tr w, Trace (step {} agentCfg peerCfg headDigest) (Init fun _ => .ok peerAddr 1) tr w ∧
      w.plane.sessions.map (fun x => (x.peer, x.authenticated)) =
        [(peerAddr, true), (agentAddr, false)] ∧
      w.app.sent.head? = some (some (tmEnvEncode 0 tmEnvFlagAuthReq [1])) ∧
      (w.peers ()).sent.head? = some (some (tmEnvEncode 0 tmEnvFlagAuthReq [2])) ∧
      ∀ c, w.Up c ∧ w.udpAuthed c = false ∧ ¬ w.Recovers {} agentCfg peerCfg headDigest c) := by
  constructor
  · obtain ⟨tr, w, h, hw, hsent, hpsent, ho, hstuck⟩ := exists_trace
      (step {} agentCfg peerCfg headDigest) (Init fun _ => .ok peerAddr 1) init_started
      (agentShakes.take 1)
      (fun r => r.2.plane.opened = [] ∧ r.2.app.sent = [none] ∧ (r.2.peers ()).sent = [none] ∧
        (∀ q ∈ r.1, q.2.ev.startsOk = true) ∧ Stuck r.2) (by decide)
    exact ⟨tr, w, h, hw, hsent, hpsent, Stuck.not_recovers h ho hstuck⟩
  · obtain ⟨tr, w, h, hw, hsent, hpsent, ho, hstuck⟩ := exists_trace
      (step {} agentCfg peerCfg headDigest) (Init fun _ => .ok peerAddr 1) init_started
      (agentShakes ++ peerShakes)
      (fun r => r.2.plane.sessions.map (fun x => (x.peer, x.authenticated)) =
          [(peerAddr, true), (agentAddr, false)] ∧
        r.2.app.sent.head? = some (some (tmEnvEncode 0 tmEnvFlagAuthReq [1])) ∧
        (r.2.peers ()).sent.head? = some (some (tmEnvEncode 0 tmEnvFlagAuthReq [2])) ∧
        (∀ q ∈ r.1, q.2.ev.startsOk = true) ∧ Stuck r.2) (by decide)
    exact ⟨tr, w, h, hw, hsent, hpsent, Stuck.not_recovers h ho hstuck⟩

end Runs

end UdpWorld

end TunnelMate
