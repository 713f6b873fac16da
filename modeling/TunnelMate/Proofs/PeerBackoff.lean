import TunnelMate.Proofs.PeerUdp

/-!
# The delays of the peer's reconnects

`main` never sets the field that `tm_peer_udp_stop` doubles, so that it stays at zero and every
reconnect is scheduled at once.
-/

namespace TunnelMate.PeerUdp

open List

variable {cfg : Cfg} {p : App} {d m : ℕ}

lemma Backoff.next_zero {b : Backoff} (h : b.reconnectDelayMs = 0) :
    b.next.reconnectDelayMs = 0 ∧ b.next.delays = 0 :: b.delays := by
  have hz : min (toU64 (b.reconnectDelayMs * 2)) b.reconnectMaxDelayMs = 0 := by simp [h, toU64]
  simp only [Backoff.next, hz]
  simp [jittered, toU64]

namespace Life

variable (x : Life)

def reconnects : ℕ := x.inits.countP (·.1 = .reconnectTimer)

/-- The base is zero, and so is every delay of a reconnect. -/
def Flat : Prop :=
  x.backoff.reconnectDelayMs = 0 ∧ x.backoff.delays = replicate x.reconnects 0

variable {x}

lemma Flat.of_eq {y : Life} (h : x.Flat) (hb : y.backoff = x.backoff)
    (hr : y.reconnects = x.reconnects) : y.Flat := by
  rw [Flat, hb, hr]
  exact h

lemma Flat.stop (h : x.Flat) : x.stop.Flat := by
  unfold Life.stop
  split_ifs
  · exact h.of_eq (by simp) (by simp [reconnects])
  · have hr : ({ ({ (x.close .brokerUdp).close .localUdp with session := false } : Life).init
        .reconnectTimer with reconnectOn := true, backoff := x.backoff.next } : Life).reconnects =
        x.reconnects + 1 := by simp [reconnects, Life.init]
    obtain ⟨hz, hd⟩ := Backoff.next_zero h.1
    rw [Flat, hr]
    exact ⟨hz, hd.trans (by rw [h.2, replicate_succ])⟩
  · exact h

lemma Flat.start (h : x.Flat) (r : StartAns) : (x.start r).Flat := by
  refine h.of_eq ?_ ?_ <;> unfold Life.start <;> split_ifs
  · rfl
  · cases r <;> simp [Life.init]
  · rfl
  · cases r <;> simp [reconnects, Life.init]

lemma Flat.step {y : Life} {ev : Event} (h : x.Flat) (hs : x.Step ev y) : y.Flat := by
  cases hs with
  | quiet => exact h
  | stop => exact h.stop
  | start r => exact h.start r
  | reconnect r =>
    unfold Life.reconnect
    dsimp only
    split_ifs
    · exact h
    · exact .start (h.of_eq (by simp) (by simp [reconnects])) r
  | closed => exact h
  | shutdown =>
    unfold Life.shutdown
    split_ifs
    · exact h
    · exact .stop (x := { x with shuttingDown := true }) h

end Life

lemma flat_of_trace {r : StartAns} {tr : List (App × Label)}
    (h : Trace (step cfg) (Init r) tr p) : p.Bare ∧ p.life.Flat := by
  refine h.inv (I := fun p => p.Bare ∧ p.life.Flat) ?_ fun p l q hp hs => ?_
  · rintro p ⟨ended, max, clock, rfl⟩
    have hl := App.Lives.init r ended { reconnectMaxDelayMs := max, clock := clock }
    refine ⟨hl.bare, ?_⟩
    rw [hl.life]
    exact .start ⟨rfl, rfl⟩ r
  · obtain ⟨hb, hl⟩ := life_step hp.1 hs
    exact ⟨hb, hp.2.step hl⟩

/-- Over every run the base of the delays is zero and so is every delay, so that they keep to the
bounds only as long as no reconnect is scheduled. -/
theorem peer_backoff {r : StartAns} {tr : List (App × Label)} (h : Trace (step cfg) (Init r) tr p)
    (hd : 0 < d) : p.backoff.reconnectDelayMs = 0 ∧ p.backoff.delays = replicate p.reconnects 0 ∧
    ((∀ x ∈ p.backoff.delays, 4 * d ≤ 5 * x ∧ 5 * x ≤ 6 * m) ↔ p.reconnects = 0) := by
  obtain ⟨-, hb, hs⟩ := flat_of_trace h
  have hs' : p.backoff.delays = replicate p.reconnects 0 := hs
  refine ⟨hb, hs', fun hall => ?_, fun hz => ?_⟩
  · by_contra hz
    have := (hall 0 (hs' ▸ mem_replicate.2 ⟨hz, rfl⟩)).1
    omega
  · rw [hs', hz]
    exact nofun

theorem peer_backoff_started :
    ∃ tr p, Trace (step { token := [] }) (Init (.ok localAddr 1)) tr p ∧ p.ssl.isSome = true ∧
      ∀ x ∈ p.backoff.delays, 4 * 1000 ≤ 5 * x ∧ 5 * x ≤ 6 * 30000 := by
  obtain ⟨tr, p, h, hp, hz⟩ := exists_trace (step { token := [] }) (Init (.ok localAddr 1))
    ⟨[], 30000, [], rfl⟩ [] (fun r => r.2.ssl.isSome = true ∧ r.2.reconnects = 0) (by decide)
  exact ⟨tr, p, h, hp, (peer_backoff h (by decide)).2.2.2 hz⟩

/-- A peer that has stopped reconnects at once. -/
theorem peer_reconnects_at_once :
    ∃ tr p, Trace (step { token := [] }) (Init (.ok localAddr 1)) tr p ∧ p.reconnects = 1 ∧
      p.backoff.reconnectMaxDelayMs = 30000 ∧ p.backoff.delays = [0] :=
  exists_run ⟨[], 30000, [], rfl⟩ (labelsOf [.stop]) (by decide)

end TunnelMate.PeerUdp
