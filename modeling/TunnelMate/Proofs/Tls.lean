import TunnelMate.Tls

/-!
# A TLS stream is released once

The fields that decide when a stream is released are its `Life`; nothing else matters here, so a
step that touches other fields keeps what is proved of it.
-/

namespace TunnelMate.Tls

open Bool hiding not_or

structure Life where
  state : State
  inflight : Bool
  pumpingRead : Bool
  freePending : Bool
  freeing : Bool
  closeCalled : Bool
  frees : ℕ
  finishes : List Bool

def Stream.life (s : Stream) : Life :=
  { state := s.state, inflight := s.inflight, pumpingRead := s.pumpingRead,
    freePending := s.freePending, freeing := s.freeing, closeCalled := s.closeCalled,
    frees := s.frees, finishes := s.finishes }

structure Life.Ok (x : Life) : Prop where
  frees : x.frees = if x.freeing then 1 else 0
  freed : x.freeing = true → x.state = .closed
  called : x.closeCalled = true → x.state = .closed
  pending : x.freePending = true → x.state = .closed
  finish : x.finishes ≠ [] → x.state = .closed
  /-- Somebody is going to release a closed stream. -/
  due : x.state = .closed → (∀ f ∈ x.finishes, f = true) →
    x.freeing = true ∨ x.inflight = true ∨ x.pumpingRead = true ∧ x.freePending = true
  /-- Nobody releases a stream that failed without a write in flight. -/
  lost : false ∈ x.finishes → x.freeing = false ∧ x.inflight = false ∧ x.freePending = false

namespace Life.Ok

variable {x : Life}

lemma of_not_closed (hs : x.state ≠ .closed) (hf : x.freeing = false) (h0 : x.frees = 0)
    (hc : x.closeCalled = false) (hp : x.freePending = false) (hn : x.finishes = []) : x.Ok :=
  { frees := by simp [h0, hf], freed := by simp [hf], called := by simp [hc]
    pending := by simp [hp], finish := by simp [hn], due := fun h => absurd h hs
    lost := by simp [hn] }

variable (h : x.Ok) (hs : x.state ≠ .closed)
include h hs

lemma not_freeing : x.freeing = false := eq_false_iff.2 fun hf => hs (h.freed hf)

lemma frees_zero : x.frees = 0 := by simp [h.frees, h.not_freeing hs]

lemma not_called : x.closeCalled = false := eq_false_iff.2 fun hc => hs (h.called hc)

lemma not_pending : x.freePending = false := eq_false_iff.2 fun hp => hs (h.pending hp)

lemma no_finish : x.finishes = [] := not_not.1 fun hn => hs (h.finish hn)

lemma live (st : State) (hst : st ≠ .closed) (i p : Bool) :
    Life.Ok { x with state := st, inflight := i, pumpingRead := p } :=
  of_not_closed hst (h.not_freeing hs) (h.frees_zero hs) (h.not_called hs) (h.not_pending hs)
    (h.no_finish hs)

end Life.Ok

variable {s : Stream} {e : Answers} {r : SslRead}

/-! ## What each function keeps -/

lemma Life.Ok.doFree (hf : s.frees = if s.freeing then 1 else 0) (hc : s.state = .closed)
    (hl : false ∉ s.finishes) : (doFree s).life.Ok := by
  unfold Tls.doFree
  split
  · rename_i hs
    exact ⟨hf, fun _ => hc, fun _ => hc, fun _ => hc, fun _ => hc, fun _ _ => .inl hs,
      fun h => absurd h hl⟩
  · rename_i hs
    have h1 : s.frees + 1 = 1 := by simpa [hs] using hf
    exact ⟨h1, fun _ => hc, fun _ => hc, fun _ => hc, fun _ => hc, fun _ _ => .inl rfl,
      fun h => absurd h hl⟩

section Functions

variable (h : s.life.Ok)
include h

lemma Life.Ok.finishClose : (finishClose s).1.life.Ok := by
  unfold Tls.finishClose
  split
  · exact h
  · rename_i hs
    have hok : Life.Ok { s.life with state := .closed, finishes := s.inflight :: s.finishes } :=
      { h with
        freed := fun _ => rfl, called := fun _ => rfl, pending := fun _ => rfl
        finish := fun _ => rfl
        due := fun _ hall => .inr (.inl (hall _ (List.mem_cons_self ..)))
        lost := fun hf => by
          have hn : s.finishes = [] := h.no_finish hs
          have hi : s.inflight = false := by simpa [hn] using hf
          exact ⟨h.not_freeing hs, hi, h.not_pending hs⟩ }
    dsimp only
    split <;> exact hok

lemma Life.Ok.sendChunk (hs : s.state ≠ .closed) : (sendChunk e s).1.life.Ok := by
  unfold Tls.sendChunk
  dsimp only
  split
  · exact h.live hs s.state hs true s.pumpingRead
  · exact .finishClose h

lemma Life.Ok.pumpWrite : (pumpWrite e s).1.life.Ok := by
  unfold Tls.pumpWrite
  split
  · exact h
  rename_i hs
  rw [not_or] at hs
  split
  · exact h.sendChunk hs.1
  split
  · dsimp only
    split <;> exact h
  split
  · exact .sendChunk h hs.1
  · exact h
  · exact .finishClose h
  · exact .finishClose h

omit h in
lemma Life.Ok.tlsTryShutdown (ws : List SslWrite) : ∀ {s : Stream}, s.life.Ok →
    (tlsTryShutdown e ws s).1.life.Ok := by
  induction ws with
  | nil =>
    intro s h
    unfold Tls.tlsTryShutdown
    split
    · exact .pumpWrite h
    split
    · exact h
    · exact .pumpWrite h
  | cons w ws ih =>
    intro s h
    unfold Tls.tlsTryShutdown
    split
    · cases w with
      | ok => exact ih h
      | want => exact .pumpWrite h
      | zeroReturn | fail => exact .finishClose h
    split
    · exact h
    · exact .pumpWrite h

lemma Life.Ok.pqAppend (len : ℕ) : (pqAppend len s).life.Ok := by
  unfold Tls.pqAppend
  split <;> exact h

lemma Life.Ok.tmSslStreamWrite (len : ℕ) : (tmSslStreamWrite len e s).2.1.life.Ok := by
  unfold Tls.tmSslStreamWrite
  split
  · exact h
  split
  · exact h
  · refine .pumpWrite (.pqAppend ?_ len)
    exact h

lemma Life.Ok.tmSslStreamShutdownSend : (tmSslStreamShutdownSend e s).1.life.Ok := by
  unfold Tls.tmSslStreamShutdownSend
  split
  · exact h
  · exact .tlsTryShutdown _ h

lemma Life.Ok.promoteOpen (hs : s.state = .handshake) : (promoteOpen s).1.life.Ok := by
  have hc : s.life.state ≠ .closed := by simp [Stream.life, hs]
  exact h.live hc .opened (by simp) s.inflight s.pumpingRead

lemma Life.Ok.pumpRead : (pumpRead s).1.life.Ok := by
  unfold Tls.pumpRead
  split
  · exact h
  rename_i hp
  refine { h with due := fun hc hall => ?_ }
  rcases h.due hc hall with hf | hi | ⟨hp', -⟩
  · exact .inl hf
  · exact .inr (.inl hi)
  · exact absurd hp' hp

lemma Life.Ok.handOver (d : Bytes) : (handOver d s).s.life.Ok := h

lemma Life.Ok.readTurn : (readTurn e r s).s.life.Ok := by
  unfold Tls.readTurn
  split
  · exact h
  cases r with
  | data d =>
    dsimp only
    split
    · rename_i hs
      exact .promoteOpen h hs.1
    · exact .handOver h d
  | zero =>
    dsimp only
    split
    · exact .finishClose h
    · exact h
  | wantRead =>
    dsimp only
    split
    · rename_i hs
      split
      · exact .promoteOpen h hs
      · exact .pumpWrite h
    · exact h
  | wantWrite => exact .pumpWrite h
  | zeroReturn => exact h
  | fail => exact .finishClose h

lemma Life.Ok.readEnd : (exec e r s .readEnd).s.life.Ok := by
  simp only [exec]
  split
  · rename_i hp
    obtain ⟨hp, -⟩ : s.freePending = true ∧ s.inflight = false := by simpa using hp
    refine .doFree h.frees (h.pending hp) fun hf => ?_
    have : s.freePending = false := (h.lost hf).2.2
    simp [hp] at this
  · rename_i hp
    refine { h with due := fun hc hall => ?_ }
    rcases h.due hc hall with hf | hi | ⟨-, hp'⟩
    · exact .inl hf
    · exact .inr (.inl hi)
    · -- the close was pending, so a write must be in flight
      have hi : s.inflight = true := by
        have : s.freePending = true := hp'
        simpa [this] using hp
      exact .inr (.inl hi)

lemma Life.Ok.exec (f : Frame) : (exec e r s f).s.life.Ok := by
  cases f with
  | readLoop => exact .readTurn h
  | deliver d =>
    simp only [Tls.exec]
    split
    · exact h
    · exact .handOver h d
  | flushFlight =>
    simp only [Tls.exec]
    split
    · exact h
    · exact .pumpWrite h
  | readEnd => exact .readEnd h
  | writeDone =>
    simp only [Tls.exec]
    split
    · exact .tlsTryShutdown _ h
    · exact h

lemma Life.Ok.onWriteDone (hi : s.inflight = true) (st : Status) :
    (onWriteDone st e s).s.life.Ok := by
  unfold Tls.onWriteDone
  dsimp only
  split
  · rename_i hc
    refine .doFree h.frees hc fun hf => ?_
    have : s.inflight = false := (h.lost hf).2.1
    simp [hi] at this
  · rename_i hc
    have h' : Life.Ok { s.life with inflight := false } := h.live hc s.state hc false s.pumpingRead
    split
    · exact .finishClose h'
    · exact .pumpWrite h'

lemma Life.Ok.onRead (n : Nread) : (onRead n s).s.life.Ok := by
  cases n with
  | bytes => exact .pumpRead h
  | eof => exact h
  | error => exact .finishClose h

lemma Life.Ok.dtlsTimerCb (out : ℕ) : (dtlsTimerCb out e s).s.life.Ok := by
  unfold Tls.dtlsTimerCb
  split
  · exact h
  · exact .pumpWrite h

lemma Life.Ok.tmSslStreamHandshake (hs : s.state = .handshake) (k : Handshake) :
    (tmSslStreamHandshake k e s).s.life.Ok := by
  cases k with
  | done =>
    simp only [Tls.tmSslStreamHandshake]
    split
    · exact .promoteOpen h hs
    · exact .pumpWrite h
  | want => exact .pumpWrite h
  | fail => exact .finishClose h

lemma Life.Ok.tmSslStreamStart : (tmSslStreamStart s).life.Ok := by
  unfold Tls.tmSslStreamStart
  split <;> exact h

lemma Life.Ok.tmSslStreamPauseRead : (tmSslStreamPauseRead s).life.Ok := by
  unfold Tls.tmSslStreamPauseRead
  dsimp only
  split <;> exact h

lemma Life.Ok.tmSslStreamResumeRead : (tmSslStreamResumeRead s).s.life.Ok := by
  unfold Tls.tmSslStreamResumeRead
  split
  · exact h
  dsimp only
  split
  · exact h
  · exact .pumpRead h

lemma Life.Ok.tmSslStreamClose : (tmSslStreamClose s).life.Ok := by
  unfold Tls.tmSslStreamClose
  dsimp only
  split
  · rename_i hc
    exact { h with called := fun _ => hc }
  · rename_i hc
    have hn : s.finishes = [] := h.no_finish hc
    split
    · rename_i hb
      refine ⟨h.frees, fun _ => rfl, fun _ => rfl, fun _ => rfl, fun _ => rfl, fun _ _ => ?_, ?_⟩
      · rcases or_eq_true_iff.1 hb with hi | hp
        · exact .inr (.inl hi)
        · exact .inr (.inr ⟨hp, rfl⟩)
      · simp [Stream.life, hn]
    · exact .doFree h.frees rfl (by simp [hn])

lemma Life.Ok.call {k : Call} (hk : mayCall s k = true) : (call e s k).s.life.Ok := by
  cases k with
  | write len => exact .tmSslStreamWrite h len
  | shutdownSend => exact .tmSslStreamShutdownSend h
  | pauseRead => exact .tmSslStreamPauseRead h
  | resumeRead => exact .tmSslStreamResumeRead h
  | start => exact .tmSslStreamStart h
  | handshake k =>
    have hs : s.state = .handshake := by simpa using (and_eq_true_iff.1 hk).2
    exact .tmSslStreamHandshake h hs k
  | close => exact .tmSslStreamClose h

end Functions

/-! ## Whole runs -/

variable {tr : List (Config × Label)} {c : Config}

lemma Life.Ok.step {d : Config} {i : Label} (h : c.s.life.Ok) (hst : step c i = some d) :
    d.s.life.Ok := by
  cases i with
  | call =>
    simp only [Tls.step, Option.ite_none_right_eq_some, Option.some.injEq] at hst
    obtain ⟨⟨-, hk⟩, rfl⟩ := hst
    exact .call h hk
  | ret =>
    simp only [Tls.step] at hst
    split at hst
    · cases hst
      exact h
    · cases hst
  | run =>
    simp only [Tls.step] at hst
    split at hst
    · cases hst
      exact .exec h _
    · cases hst
  | writeDone st =>
    simp only [Tls.step, Option.ite_none_right_eq_some, Option.some.injEq] at hst
    obtain ⟨⟨-, hi⟩, rfl⟩ := hst
    exact .onWriteDone h hi st
  | read n =>
    obtain ⟨-, rfl⟩ := of_guard hst
    exact .onRead h n
  | dtlsTimer out =>
    obtain ⟨-, rfl⟩ := of_guard hst
    exact .dtlsTimerCb h out

lemma Life.Ok.of_trace (h : Trace Tls.step Init tr c) : c.s.life.Ok := by
  refine h.inv (I := fun c => c.s.life.Ok) ?_ fun c i d hc hst => hc.step hst
  rintro c ⟨dtls, cbs, rfl⟩
  exact .of_not_closed (by simp [Stream.life]) rfl rfl rfl rfl rfl

/-- The body of `do_free` runs at most once; and a stream with nothing left to wait for is released
exactly when every `finish_close` on it came while a write was in flight. -/
theorem released_once (h : Trace Tls.step Init tr c) :
    c.s.frees ≤ 1 ∧ (c.s.freeing = true ↔ c.s.frees = 1) ∧
      (c.s.closeCalled = true → c.s.inflight = false → c.s.pumpingRead = false →
        (c.s.freeing = true ↔ ∀ f ∈ c.s.finishes, f = true)) := by
  have hok := Life.Ok.of_trace h
  have hfr : c.s.frees = if c.s.freeing then 1 else 0 := hok.frees
  refine ⟨by rw [hfr]; split <;> simp, by rw [hfr]; simp, fun hcl hi hp => ⟨?_, fun hall => ?_⟩⟩
  · intro hf f hm
    by_contra hne
    have hm : false ∈ c.s.finishes := eq_false_iff.2 hne ▸ hm
    have : c.s.freeing = false := (hok.lost hm).1
    simp [hf] at this
  · rcases hok.due (hok.called hcl) hall with hf | hi' | ⟨hp', -⟩
    · exact hf
    · simp [Stream.life, hi] at hi'
    · simp [Stream.life, hp] at hp'

theorem released_once_inflight : ∃ tr c, Trace Tls.step Init tr c ∧ c.todo = [] ∧
    c.s.closeCalled = true ∧ c.s.inflight = false ∧ c.s.pumpingRead = false ∧
    c.s.finishes = [true] ∧ c.s.freeing = true := by
  obtain ⟨tr, c, h, h1, h2, h3, h4, h5⟩ := exists_trace Tls.step Init (s := { s := {} })
    ⟨false, {}, rfl⟩
    [.call .start {}, .call (.handshake (.want 0)) {}, .read .bytes,
      .run {} (.wantRead false 1200), .run {} .zero, .read .error, .call .close {}, .ret,
      .writeDone .ok {}]
    (fun r => r.2.todo = [] ∧ r.2.s.closeCalled = true ∧ r.2.s.inflight = false ∧
      r.2.s.pumpingRead = false ∧ r.2.s.finishes = [true]) (by decide)
  have hall : ∀ f ∈ c.s.finishes, f = true := by
    rw [show c.s.finishes = [true] from h5]
    simp
  exact ⟨tr, c, h, h1, h2, h3, h4, h5, ((released_once h).2.2 h2 h3 h4).2 hall⟩

/-- The peer resets the connection before anything was written: the owner's `tm_ssl_stream_close`
finds the stream closed, and nothing is left to release it. -/
theorem released_never : ∃ tr c, Trace Tls.step Init tr c ∧ c.todo = [] ∧
    c.s.closeCalled = true ∧ c.s.inflight = false ∧ c.s.pumpingRead = false ∧
    c.s.frees = 0 ∧ c.s.freeing = false :=
  exists_run (s := { s := {} }) ⟨false, {}, rfl⟩
    [.call .start {}, .read .error, .call .close {}, .ret] (by decide)

/-! ## The queue -/

lemma writeLen_le (hr : s.sslRetryLen ≤ s.pqLen - s.pqOff) : writeLen s ≤ s.pqLen - s.pqOff := by
  unfold writeLen
  split
  · exact hr
  · exact Nat.min_le_left _ _

end TunnelMate.Tls
