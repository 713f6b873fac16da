import TunnelMate.TmIo
import TunnelMate.Proofs.Tls

/-!
# What an io object owes its owner

A leg in service is `Ok`.
-/

namespace TunnelMate.Tls

structure Stream.Ready (x : Stream) : Prop where
  state : x.state = .opened
  cbs : x.cbs = {}
  started : x.readStarted = true
  off : x.pqOff ≤ x.pqLen
  empty : x.pqOff = x.pqLen → x.pqLen = 0
  retry : x.sslRetryLen ≤ x.pqLen - x.pqOff

def Stream.Work (x : Stream) : Prop := x.inflight = true ∨ x.pqOff < x.pqLen ∨ x.wbio ≠ 0

variable {x y : Stream} {e : Answers}

lemma Stream.Ready.work (h : x.Ready) (hd : tmSslStreamDrained x = false) : x.Work := by
  simp only [tmSslStreamDrained, Bool.and_eq_false_iff, beq_eq_false_iff_ne, Bool.not_eq_false']
    at hd
  rcases hd with hd | hd
  · exact .inr (.inl (lt_of_le_of_ne h.off hd))
  · exact .inl hd

inductive Quiet : Option Cb → Prop
  | none : Quiet none
  | low : Quiet (some .low)
  | error (e : Err) : Quiet (some (.error e))

def IsError (o : Option Cb) : Prop := ∃ e, o = some (.error e)

structure Sent (x : Stream) (r : Stream × Option Cb) : Prop where
  quiet : Quiet r.2
  ready : r.1.Ready ∨ IsError r.2
  work : x.Work → tmSslStreamDrained r.1 = false ∨ r.2 = some .low ∨ IsError r.2
  above : x.aboveLow = true → r.1.aboveLow = true ∨ r.2 = some .low
  paused : r.1.readPaused = x.readPaused
  reading : r.1.reading = x.reading
  closed : x.closeSent = true → r.1.closeSent = true

structure Same (x y : Stream) : Prop where
  above : x.aboveLow = true → y.aboveLow = true
  paused : y.readPaused = x.readPaused
  reading : y.reading = x.reading
  closed : x.closeSent = true → y.closeSent = true

lemma sent_finishClose (hs : y.state = .opened) (hc : y.cbs = {}) (h : Same x y) :
    Sent x (finishClose y) := by
  have hf : finishClose y = ({ y with
      state := .closed, finishes := y.inflight :: y.finishes
      cbs := { y.cbs with read := false, eof := false, error := false } },
      some (.error (y.lastErr.getD .io))) := by
    simp [finishClose, hs, hc]
  rw [hf]
  exact ⟨.error _, .inr ⟨_, rfl⟩, fun _ => .inr (.inr ⟨_, rfl⟩), fun ha => .inl (h.above ha),
    h.paused, h.reading, h.closed⟩

lemma sent_sendChunk (hy : y.Ready) (h : Same x y) : Sent x (sendChunk e y) := by
  unfold sendChunk
  split
  · exact ⟨.none, .inl { hy with },
      fun _ => .inl (by simp [tmSslStreamDrained]), fun ha => .inl (h.above ha), h.paused,
      h.reading, h.closed⟩
  · exact sent_finishClose hy.state hy.cbs { h with }

lemma sent_pumpWrite (hy : y.Ready) (h : Same x y) (hw : x.Work → y.Work) :
    Sent x (pumpWrite e y) := by
  have habove : x.aboveLow = true → y.aboveLow = true := fun ha => h.above ha
  unfold pumpWrite
  split
  · rename_i hi
    have hi : y.inflight = true := by simpa [hy.state] using hi
    exact ⟨.none, .inl hy, fun _ => .inl (by simp [tmSslStreamDrained, hi]),
      fun ha => .inl (habove ha),
      h.paused, h.reading, h.closed⟩
  rename_i hni
  have hni : y.inflight = false := by simpa [hy.state] using hni
  split
  · exact sent_sendChunk hy h
  rename_i hb
  split
  · have hnw : ¬ x.Work := fun hx => by
      rcases hw hx with hi | hlt | hb'
      · simp [hni] at hi
      · omega
      · exact hb hb'
    have hy' : ({ y with pqLen := 0, pqOff := 0 } : Stream).Ready :=
      ⟨hy.state, hy.cbs, hy.started, le_rfl, fun _ => rfl, by have := hy.retry; dsimp only; omega⟩
    dsimp only
    split
    · have hl : y.cbs.low = true := by rw [hy.cbs]
      rw [if_pos hl]
      exact ⟨.low, .inl ⟨hy'.state, hy'.cbs, hy'.started, hy'.off, hy'.empty, hy'.retry⟩,
        fun hx => absurd hx hnw, fun _ => .inr rfl, h.paused, h.reading, h.closed⟩
    · rename_i ha
      exact ⟨.none, .inl hy', fun hx => absurd hx hnw, fun hx => absurd (habove hx) ha, h.paused,
        h.reading, h.closed⟩
  rename_i hne
  have hlt : y.pqOff < y.pqLen := lt_of_le_of_ne hy.off hne
  have hle := writeLen_le hy.retry
  split
  · refine sent_sendChunk ⟨hy.state, hy.cbs, hy.started, ?_, ?_, Nat.zero_le _⟩ { h with }
    · dsimp only
      split <;> omega
    · dsimp only
      split
      · exact fun _ => rfl
      · omega
  · refine ⟨.none, .inl ⟨hy.state, hy.cbs, hy.started, hy.off, hy.empty, hle⟩, fun _ => .inl ?_,
      fun ha => .inl (habove ha), h.paused, h.reading, h.closed⟩
    simp [tmSslStreamDrained, hne]
  · exact sent_finishClose hy.state hy.cbs { h with }
  · exact sent_finishClose hy.state hy.cbs { h with }

structure Closing (x y : Stream) : Prop where
  state : y.state = .opened
  cbs : y.cbs = {}
  started : y.readStarted = true
  off : y.pqOff ≤ y.pqLen
  retry : y.sslRetryLen ≤ y.pqLen - y.pqOff
  same : Same x y
  work : x.Work → y.Work

lemma Closing.finish (h : Closing x y) (hge : ¬ y.pqOff < y.pqLen) (ws : List SslWrite) :
    Sent x (pumpWrite { e with writes := ws }
      { y with pqLen := 0, pqOff := 0, sslRetryLen := 0, shutdownPending := false,
               wbio := y.wbio + e.shut }) := by
  refine sent_pumpWrite ⟨h.state, h.cbs, h.started, le_rfl, fun _ => rfl, le_rfl⟩
    { h.same with } fun hx => ?_
  rcases h.work hx with hi | hlt | hb
  · exact .inl hi
  · exact absurd hlt hge
  · exact .inr (.inr (by dsimp only; omega))

lemma sent_tlsTryShutdown (ws : List SslWrite) : ∀ {y : Stream}, Closing x y →
    Sent x (tlsTryShutdown e ws y) := by
  induction ws with
  | nil =>
    intro y h
    unfold tlsTryShutdown
    split
    · rename_i hlt
      exact sent_pumpWrite ⟨h.state, h.cbs, h.started, h.off, fun he => by simp only at he; omega,
        writeLen_le h.retry⟩ { h.same with }
        fun _ => .inr (.inl hlt.1)
    rename_i hn
    rw [if_neg (by simp [h.state])]
    exact h.finish (fun hlt => hn ⟨hlt, h.state⟩) []
  | cons w ws ih =>
    intro y h
    unfold tlsTryShutdown
    split
    · rename_i hlt
      have hle := writeLen_le h.retry
      cases w with
      | ok =>
        refine ih ⟨h.state, h.cbs, h.started, ?_, Nat.zero_le _,
          { h.same with }, fun _ => .inr (.inr ?_)⟩
        · dsimp only
          omega
        · dsimp only
          omega
      | want =>
        exact sent_pumpWrite ⟨h.state, h.cbs, h.started, h.off, fun he => by simp only at he; omega,
          writeLen_le h.retry⟩ { h.same with }
          fun _ => .inr (.inl hlt.1)
      | zeroReturn | fail =>
        exact sent_finishClose h.state h.cbs { h.same with }
    rename_i hn
    rw [if_neg (by simp [h.state])]
    exact h.finish (fun hlt => hn ⟨hlt, h.state⟩) (w :: ws)

end TunnelMate.Tls

namespace TunnelMate.TmIo

open Duplex (Ans)
open Tls (Answers SslRead Status)

structure Tcp.Ready (t : Tcp) : Prop where
  reading : t.reading = true
  idle : t.wreqPending = false → t.wbLen = 0 ∧ t.wbOff = 0
  ack : t.wreqPending = true → t.wbOff + t.inFlight ≤ t.wbLen ∧ 0 < t.inFlight
  fin : t.finSent = true → t.wreqPending = false ∧ t.writeClosed = true

def Obj.Ok : Obj → Prop
  | .gone => False
  | .tcp t => t.Ready
  | .tls x => x.Ready

def Obj.Owing : Obj → Prop
  | .gone => False
  | .tcp t => tcpDrained t = false
  | .tls x => x.aboveLow = true ∧ Tls.tmSslStreamDrained x = false

def Obj.Paused : Obj → Prop
  | .gone => True
  | .tcp t => t.active = false
  | .tls x => x.readPaused = true ∧ x.reading = false

def Obj.Refuses : Obj → Prop
  | .gone => True
  | .tcp t => t.writeClosed = true
  | .tls x => x.closeSent = true

def Told (o : Option Cb) : Prop := o = some .low ∨ o = some .error

def Frame.Plain : Frame → Prop
  | .tls (.deliver _) => False
  | _ => True

structure Move (x : Obj) (r : Res) : Prop where
  ok : r.io.Ok ∨ r.cb = some .error
  owing : x.Owing → r.io.Owing ∨ Told r.cb
  paused : x.Paused → r.io.Paused
  silent : x.Paused → r.cb ≠ some .eof ∧ ∀ d, r.cb ≠ some (.read d)
  refuses : x.Refuses → r.io.Refuses
  plain : ∀ f ∈ r.frames, f.Plain

structure Wrote (x : Obj) (w : Ans × Res) : Prop where
  move : Move x w.2
  ok : w.1 = .ok → w.2.io.drained = false ∨ Told w.2.cb
  busy : w.1 = .busy → w.2.io.Owing
  quiet : w.1 ≠ .ok → w.2.cb = none
  frames : w.2.frames = []
  told : w.2.cb = none ∨ Told w.2.cb
  err : x.Refuses ↔ w.1 = .err

def Move.Loud (x : Obj) (r : Res) : Prop := x.drained = false → r.io.drained = false ∨ Told r.cb

/-- What a step of an io does. It is `loud` under `p`, and `P` says which chunks it delivers. -/
structure Served (p : Prop) (P : Bytes → Prop) (x : Obj) (r : Res) : Prop where
  move : Move x r
  loud : p → Move.Loud x r
  data : ∀ d, r.cb = some (.read d) → P d

structure HalfClosed (x : Obj) (r : Res) : Prop where
  move : Move x r
  loud : Move.Loud x r
  refuses : r.io.Refuses
  told : r.cb = none ∨ Told r.cb
  frames : r.frames = []

lemma HalfClosed.of_served {x : Obj} {r : Res} (h : Served True (fun _ => False) x r)
    (hr : r.io.Refuses) (hc : r.cb = none ∨ Told r.cb) (hf : r.frames = []) : HalfClosed x r :=
  ⟨h.move, h.loud trivial, hr, hc, hf⟩

structure Resumed (x : Obj) (r : Res) : Prop where
  ok : r.io.Ok
  owing : x.Owing → r.io.Owing
  refuses : x.Refuses → r.io.Refuses
  drained : r.io.drained = x.drained
  cb : r.cb = none
  plain : ∀ f ∈ r.frames, f.Plain

variable {x : Tls.Stream} {t : Tcp} {e : Answers} {a : SslRead} {p : Prop} {P : Bytes → Prop}

/-! ## TLS -/

variable {o : Option Tls.Cb} {y : Tls.Stream} {r : Tls.Stream × Option Tls.Cb}

lemma cb_ofTls (h : Tls.Quiet o) : o.bind Cb.ofTls = none ∨ Told (o.bind Cb.ofTls) := by
  cases h with
  | none => exact .inl rfl
  | low => exact .inr (.inl rfl)
  | error => exact .inr (.inr rfl)

lemma told_ofTls (h : o = some .low ∨ Tls.IsError o) : Told (o.bind Cb.ofTls) := by
  obtain rfl | ⟨e, rfl⟩ := h
  · exact .inl rfl
  · exact .inr rfl

lemma not_data_of_quiet (h : Tls.Quiet o) :
    o.bind Cb.ofTls ≠ some .eof ∧ ∀ d, o.bind Cb.ofTls ≠ some (.read d) := by
  cases h <;> simp [Cb.ofTls]

lemma move_sent (h : Tls.Sent y r) (hy : Tls.Same x y)
    (hw : x.aboveLow = true → Tls.tmSslStreamDrained x = false → y.Work ∨ r.2 = some .low)
    (fs : List Tls.Frame) (hfs : ∀ f ∈ fs, (Frame.tls f).Plain) :
    Move (.tls x) (.ofTls { s := r.1, cb := r.2, frames := fs }) where
  ok := h.ready.imp id fun ⟨e, he⟩ => by simp [Res.ofTls, he, Cb.ofTls]
  owing := fun ⟨ha, hd⟩ => by
    rcases hw ha hd with hw | hl
    · rcases h.work hw with hd' | ht
      · rcases h.above (hy.above ha) with ha' | hl
        · exact .inl ⟨ha', hd'⟩
        · exact .inr (told_ofTls (.inl hl))
      · exact .inr (told_ofTls ht)
    · exact .inr (told_ofTls (.inl hl))
  paused := fun hp =>
    ⟨h.paused.trans (hy.paused.trans hp.1), h.reading.trans (hy.reading.trans hp.2)⟩
  silent := fun _ => not_data_of_quiet h.quiet
  refuses := fun hc => h.closed (hy.closed hc)
  plain := by simpa [Res.ofTls] using hfs

lemma loud_sent (h : Tls.Sent y r)
    (hw : Tls.tmSslStreamDrained x = false → y.Work ∨ r.2 = some .low) (fs : List Tls.Frame) :
    Move.Loud (.tls x) (.ofTls { s := r.1, cb := r.2, frames := fs }) := fun hd => by
  rcases hw hd with hw | hl
  · rcases h.work hw with hd' | ht
    · exact .inl hd'
    · exact .inr (told_ofTls ht)
  · exact .inr (told_ofTls (.inl hl))

structure Calm (x : Tls.Stream) (r : Tls.Res) : Prop where
  ready : r.s.Ready
  same : Tls.Same x r.s
  drained : Tls.tmSslStreamDrained r.s = Tls.tmSslStreamDrained x
  silent : x.readPaused = true → x.reading = false →
    r.cb.bind Cb.ofTls ≠ some .eof ∧ ∀ d, r.cb.bind Cb.ofTls ≠ some (.read d)
  plain : ∀ f ∈ r.frames, (Frame.tls f).Plain

lemma Calm.move {r : Tls.Res} (h : Calm x r) : Move (.tls x) (.ofTls r) where
  ok := .inl h.ready
  owing := fun ⟨ha, hd⟩ => .inl ⟨h.same.above ha, h.drained.trans hd⟩
  paused := fun hp => ⟨h.same.paused.trans hp.1, h.same.reading.trans hp.2⟩
  silent := fun hp => h.silent hp.1 hp.2
  refuses := h.same.closed
  plain := by simpa [Res.ofTls] using h.plain

lemma Calm.loud {r : Tls.Res} (h : Calm x r) : Move.Loud (.tls x) (.ofTls r) :=
  fun hd => .inl (h.drained.trans hd)

lemma Calm.served {r : Tls.Res} (h : Calm x r)
    (hd : ∀ d, r.cb.bind Cb.ofTls = some (.read d) → P d) : Served p P (.tls x) (.ofTls r) :=
  ⟨h.move, fun _ => h.loud, hd⟩

lemma calm_self (h : x.Ready) : Calm x { s := x } :=
  ⟨h, ⟨id, rfl, rfl, id⟩, rfl, by simp, by simp⟩

lemma served_sent (hx : x.Ready) (h : Tls.Sent x r) : Served p P (.tls x) (.ofTls (.last r)) where
  move := move_sent h ⟨id, rfl, rfl, id⟩ (fun _ hd => .inl (hx.work hd)) [] (by simp)
  loud _ := loud_sent h (fun hd => .inl (hx.work hd)) []
  data d hd := absurd hd ((not_data_of_quiet h.quiet).2 d)

lemma tls_shutdownSend (h : x.Ready) :
    HalfClosed (.tls x) (.ofTls (.last (Tls.tmSslStreamShutdownSend e x))) := by
  unfold Tls.tmSslStreamShutdownSend
  split
  · rename_i hs
    have hcl : x.closeSent = true := by simpa [h.state] using hs
    exact .of_served ((calm_self h).served (by simp)) hcl (.inl rfl) rfl
  · let y : Tls.Stream := { x with closeSent := true, shutdownPending := true }
    have hy : ∀ z, Tls.Same z y → (z.Work → y.Work) → Tls.Closing z y := fun z hs hw =>
      ⟨h.state, h.cbs, h.started, h.off, h.retry, hs, hw⟩
    have hsent := Tls.sent_tlsTryShutdown (e := e) e.writes (hy x ⟨id, rfl, rfl, fun _ => rfl⟩ id)
    exact .of_served (served_sent h hsent)
      ((Tls.sent_tlsTryShutdown e.writes (hy y ⟨id, rfl, rfl, id⟩ id)).closed rfl)
      (cb_ofTls hsent.quiet) rfl

lemma calm_pumpRead (hy : y.Ready) (hs : Tls.Same x y)
    (hd : Tls.tmSslStreamDrained y = Tls.tmSslStreamDrained x) :
    Calm x { s := (Tls.pumpRead y).1, frames := (Tls.pumpRead y).2 } := by
  unfold Tls.pumpRead
  split
  · exact ⟨hy, hs, hd, by simp, by simp⟩
  · rw [if_neg (by simp [hy.state])]
    exact ⟨{ hy with },
      { hs with },
      hd, by simp, by simp [Frame.Plain]⟩

lemma tls_readTurn (h : x.Ready) :
    Served p (fun d => ∃ i o, a = .data d i o) (.tls x) (.ofTls (Tls.readTurn e a x)) := by
  have hnh : x.state ≠ .handshake := by simp [h.state]
  have hkeep : ∀ (n : ℕ) (cb : Option Tls.Cb) (fs : List Tls.Frame), x.readPaused = false →
      (∀ f ∈ fs, (Frame.tls f).Plain) →
      Calm x { s := { x with wbio := n }, cb := cb, frames := fs } :=
    fun n cb fs hp hfs => ⟨{ h with }, ⟨id, rfl, rfl, id⟩, rfl, fun hp' => by simp [hp] at hp', hfs⟩
  unfold Tls.readTurn
  split
  · exact (calm_self h).served (by simp)
  rename_i hp
  have hp : x.readPaused = false := by simpa using hp
  cases a with
  | data =>
    simp only [hnh, false_and, if_false]
    refine (hkeep _ _ _ hp (by simp [Frame.Plain])).served fun d hd => ?_
    simp only [h.cbs, if_true, Option.bind_some, Cb.ofTls, Option.some.injEq, Cb.read.injEq] at hd
    exact ⟨_, _, by rw [hd]⟩
  | zero | zeroReturn =>
    exact (hkeep x.wbio _ [] hp (by simp)).served (by simp [h.cbs, Cb.ofTls])
  | wantRead =>
    simp only [hnh, if_false]
    exact (hkeep _ none [] hp (by simp)).served (by simp)
  | wantWrite =>
    refine served_sent h (Tls.sent_pumpWrite { h with } ⟨id, rfl, rfl, id⟩ fun hw => ?_)
    exact hw.imp id (Or.imp id fun hb => by dsimp only; omega)
  | fail => exact served_sent h (Tls.sent_finishClose h.state h.cbs ⟨id, rfl, rfl, id⟩)

lemma tls_exec (h : x.Ready) {f : Tls.Frame} (hf : (Frame.tls f).Plain) :
    Served p (fun d => ∃ i o, a = .data d i o) (.tls x) (.ofTls (Tls.exec e a x f)) := by
  have hnc : x.state ≠ .closed := by simp [h.state]
  cases f with
  | readLoop => exact tls_readTurn h
  | deliver => exact hf.elim
  | flushFlight =>
    simp only [Tls.exec, hnc, if_false]
    exact served_sent h (Tls.sent_pumpWrite h ⟨id, rfl, rfl, id⟩ id)
  | readEnd =>
    have hc : Calm x (Tls.exec e a x .readEnd) := by
      simp only [Tls.exec]
      split
      · unfold Tls.doFree
        split <;> exact ⟨{ h with }, ⟨id, rfl, rfl, id⟩, rfl, by simp, by simp⟩
      · exact ⟨{ h with }, ⟨id, rfl, rfl, id⟩, rfl, by simp, by simp⟩
    exact hc.served (by simp [Tls.exec])
  | writeDone =>
    simp only [Tls.exec]
    split
    · exact served_sent h (Tls.sent_tlsTryShutdown _
        ⟨h.state, h.cbs, h.started, h.off, h.retry, ⟨id, rfl, rfl, id⟩, id⟩)
    · exact (calm_self h).served (by simp)

lemma tls_writeDone (h : x.Ready) (st : Status) :
    Served (st ≠ .error → x.pqOff = x.pqLen → x.wbio = 0 → x.aboveLow = true) P (.tls x)
      (.ofTls (Tls.onWriteDone st e x)) := by
  unfold Tls.onWriteDone
  rw [if_neg (by simp [h.state])]
  split
  · exact served_sent h (Tls.sent_finishClose
      (y := { x with inflight := false, lastErr := some .io })
      h.state h.cbs ⟨id, rfl, rfl, id⟩)
  · rename_i hst
    let y : Tls.Stream := { x with inflight := false }
    have hy : y.Ready := { h with }
    have hs := Tls.sent_pumpWrite (x := y) (e := e) hy ⟨id, rfl, rfl, id⟩ id
    -- either more goes out, or the stream is empty and a waiting owner is told
    have hw : (x.pqOff = x.pqLen → x.wbio = 0 → x.aboveLow = true) →
        y.Work ∨ (Tls.pumpWrite e y).2 = some .low := fun ha => by
      by_cases hw : y.Work
      · exact .inl hw
      simp only [Tls.Stream.Work, not_or, not_not] at hw
      have he : x.pqOff = x.pqLen := le_antisymm h.off (not_lt.1 hw.2.1)
      have hb : x.wbio = 0 := hw.2.2
      have hal := ha he hb
      simp [y, Tls.pumpWrite, h.state, h.cbs, hb, he, hal]
    exact ⟨move_sent (x := x) hs ⟨id, rfl, rfl, id⟩ (fun ha _ => hw fun _ _ => ha) [.writeDone]
      (by simp [Frame.Plain]), fun hl => loud_sent (x := x) hs (fun _ => hw (hl hst)) [.writeDone],
      fun d hd => absurd hd ((not_data_of_quiet hs.quiet).2 d)⟩

lemma tls_write (h : x.Ready) {n : ℕ} (hn : 0 < n) (hle : n ≤ 65536) :
    Wrote (.tls x) ((Obj.tls x).write n e) := by
  simp only [Obj.write, Tls.tmSslStreamWrite]
  split
  · rename_i hc
    have hc : x.closeSent = true := by simpa [h.state] using hc
    exact ⟨(calm_self h).move, by simp, by simp, fun _ => rfl, rfl, .inl rfl,
      by simp [Obj.Refuses, hc]⟩
  rename_i hopen
  have hopen : x.closeSent = false := by simpa [h.state] using hopen
  split
  · rename_i hb
    have hne : x.pqOff ≠ x.pqLen := fun he => by
      have := h.empty he
      simp only [Tls.tmPqHigh] at hb
      omega
    have hd : Tls.tmSslStreamDrained x = false := by simp [Tls.tmSslStreamDrained, hne]
    have ho : (Obj.tls { x with aboveLow := true }).Owing := ⟨rfl, hd⟩
    exact ⟨⟨.inl { h with }, fun _ => .inl ho,
      fun hp => hp,
      by simp [Res.ofTls, Tls.Res.last], fun hc => hc, by simp [Res.ofTls, Tls.Res.last]⟩, by simp,
      fun _ => ho, fun _ => rfl, rfl, .inl rfl, by simp [Obj.Refuses, hopen]⟩
  · let y := Tls.pqAppend n { x with aboveLow := x.aboveLow || decide (x.pqLen + n > Tls.tmPqLow) }
    have hoff := h.off
    have hretry := h.retry
    have hy : y.Ready ∧ Tls.Same x y ∧ y.Work := by
      simp only [y, Tls.pqAppend]
      split
      · exact ⟨⟨h.state, h.cbs, h.started, Nat.zero_le _, fun he => by dsimp only at he; omega,
          by dsimp only; omega⟩, ⟨fun ha => by simp [ha], rfl, rfl, id⟩,
          .inr (.inl (by dsimp only; omega))⟩
      · exact ⟨⟨h.state, h.cbs, h.started, by dsimp only; omega,
          fun he => by dsimp only at he; omega, by dsimp only; omega⟩,
          ⟨fun ha => by simp [ha], rfl, rfl, id⟩, .inr (.inl (by dsimp only; omega))⟩
    have hs := Tls.sent_pumpWrite (x := y) (e := e) hy.1 ⟨id, rfl, rfl, id⟩ id
    refine ⟨move_sent hs hy.2.1 (fun _ _ => .inl hy.2.2) [] (by simp), fun _ => ?_, by simp,
      by simp, rfl,
      cb_ofTls hs.quiet, by simp [Obj.Refuses, hopen]⟩
    rcases hs.work hy.2.2 with hd | ht
    · exact .inl hd
    · exact .inr (told_ofTls ht)

/-! ## TCP -/

lemma served_tcp {u : Tcp} {cb : Option Cb} (hu : u.Ready) (hd : tcpDrained u = tcpDrained t)
    (ha : u.active = t.active) (hw : t.writeClosed = true → u.writeClosed = true)
    (hcb : t.active = false → cb ≠ some .eof ∧ ∀ d, cb ≠ some (.read d))
    (hsrc : ∀ d, cb = some (.read d) → P d) : Served p P (.tcp t) { io := .tcp u, cb := cb } :=
  ⟨⟨.inl hu, fun ho => .inl (hd.trans ho), fun hp => ha.trans hp, hcb, hw, by simp⟩,
    fun _ h => .inl (hd.trans h), hsrc⟩

lemma served_self (h : t.Ready) : Served p P (.tcp t) { io := .tcp t } :=
  served_tcp h rfl rfl id (by simp) (by simp)

lemma tcp_pump {u : Tcp} (hr : u.reading = true) (hp : u.wreqPending = false)
    (hoff : u.wbOff ≤ u.wbLen) (hf : u.finSent = true → u.writeClosed = true ∧ u.wbOff = u.wbLen)
    (ha : u.active = t.active) (hwc : t.writeClosed = true → u.writeClosed = true) :
    Served p P (.tcp t) (.ofTcp (tcpPump e.uv u)) ∧
      (u.wbOff ≠ u.wbLen → (Res.ofTcp (tcpPump e.uv u)).io.drained = false ∨
        Told (Res.ofTcp (tcpPump e.uv u)).cb) := by
  unfold tcpPump
  rw [if_neg (by simp [hp])]
  split
  · rename_i he
    have hu : ({ u with wbLen := 0, wbOff := 0 } : Tcp).Ready :=
      ⟨hr, fun _ => ⟨rfl, rfl⟩, by simp [hp], fun h => ⟨hp, (hf h).1⟩⟩
    exact ⟨⟨⟨.inl hu, fun _ => .inr (.inl rfl), fun h => ha.trans h, by simp [Res.ofTcp], hwc,
      by simp [Res.ofTcp, Frame.Plain]⟩, fun _ _ => .inr (.inl rfl), by simp [Res.ofTcp]⟩,
      fun hne => absurd he hne⟩
  rename_i hne
  have hfin : u.finSent = false := Bool.eq_false_iff.2 fun h => hne (hf h).2
  rw [if_neg (by simp [hfin])]
  split
  · have hd : tcpDrained { u with inFlight := u.wbLen - u.wbOff, wreqPending := true } = false := by
      simp [tcpDrained]
    have hu : ({ u with inFlight := u.wbLen - u.wbOff, wreqPending := true } : Tcp).Ready :=
      ⟨hr, by simp, fun _ => by dsimp only; omega, by simp [hfin]⟩
    exact ⟨⟨⟨.inl hu, fun _ => .inl hd, fun h => ha.trans h, by simp [Res.ofTcp], hwc,
      by simp [Res.ofTcp]⟩, fun _ _ => .inl hd, by simp [Res.ofTcp]⟩, fun _ => .inl hd⟩
  · exact ⟨⟨⟨.inr rfl, fun _ => .inr (.inr rfl), fun h => ha.trans h, by simp [Res.ofTcp], hwc,
      by simp [Res.ofTcp]⟩, fun _ _ => .inr (.inr rfl), by simp [Res.ofTcp]⟩,
      fun _ => .inr (.inr rfl)⟩

section

variable (h : t.Ready)
include h

lemma tcp_execPump : Served p P (.tcp t) (.ofTcp (tcpPump e.uv t)) := by
  cases hp : t.wreqPending with
  | true =>
    simp only [tcpPump, hp, if_true]
    exact served_self h
  | false =>
    obtain ⟨hl, ho⟩ := h.idle hp
    exact (tcp_pump h.reading hp (by omega) (fun hf => ⟨(h.fin hf).2, by omega⟩) rfl id).1

lemma tcp_execFin : Served p P (.tcp t) { io := .tcp (tcpFin t) } := by
  unfold tcpFin
  split
  · rename_i hc
    simp only [Bool.and_eq_true, beq_iff_eq] at hc
    have hp : t.wreqPending = false := Bool.eq_false_iff.2 fun hp => by
      have := h.ack hp
      omega
    have hu : ({ t with finSent := true } : Tcp).Ready :=
      ⟨h.reading, h.idle, h.ack, fun _ => ⟨hp, hc.1⟩⟩
    exact served_tcp hu rfl rfl id (by simp) (by simp)
  · exact served_self h

lemma tcp_writeDone (hp : t.wreqPending = true) (st : Status) :
    Served p P (.tcp t) (.ofTcp (tcpWriteDone st e.uv t)) := by
  have hack := h.ack hp
  have hfin : t.finSent = false := Bool.eq_false_iff.2 fun hf => by simp [(h.fin hf).1] at hp
  unfold tcpWriteDone
  dsimp only
  split
  · exact ⟨⟨.inr rfl, fun _ => .inr (.inr rfl), fun h => h, by simp [Res.ofTcp], fun h => h,
      by simp [Res.ofTcp]⟩, fun _ _ => .inr (.inr rfl), by simp [Res.ofTcp]⟩
  split
  · rename_i hl
    have hu : (tcpAck t).Ready := by
      refine ⟨h.reading, fun _ => ⟨hl, ?_⟩, by simp [tcpAck], by simp [tcpAck, hfin]⟩
      by_contra hne
      simp only [tcpAck] at hl hne
      split at hl <;> simp_all
    exact ⟨⟨.inl hu, fun _ => .inr (.inl rfl), fun h => h, by simp [Res.ofTcp], fun h => h,
      by simp [Res.ofTcp, Frame.Plain]⟩, fun _ _ => .inr (.inl rfl), by simp [Res.ofTcp]⟩
  · exact (tcp_pump (t := t) (u := tcpAck t) h.reading rfl (by simp only [tcpAck]; split <;> omega)
      (by simp [tcpAck, hfin]) rfl id).1

lemma tcp_write {n : ℕ} (hn : 0 < n) (hle : n ≤ 65536) :
    Wrote (.tcp t) ((Obj.tcp t).write n e) := by
  have hself := (served_self (p := True) (P := fun _ => False) h).move
  have hbusy : t.wreqPending = true → tcpDrained t = false := fun hp => by simp [tcpDrained, hp]
  simp only [Obj.write, tcpWrite]
  split
  · rename_i hwc
    exact ⟨hself, by simp, by simp, fun _ => rfl, rfl, .inl rfl, by simp [Obj.Refuses, hwc]⟩
  rename_i hwc
  have hno : ¬ (Obj.tcp t).Refuses := hwc
  have hfin : t.finSent = false := Bool.eq_false_iff.2 fun hf => hwc (h.fin hf).2
  split
  · rename_i hb
    refine ⟨hself, by simp, fun _ => hbusy ?_, fun _ => rfl, rfl, .inl rfl, by simp [hno]⟩
    by_contra hp
    have := (h.idle (by simpa using hp)).1
    simp only [tmIoHighWater] at hb
    omega
  split
  · rename_i hb
    exact ⟨hself, by simp, fun _ => hbusy hb.2, fun _ => rfl, rfl, .inl rfl, by simp [hno]⟩
  · rename_i hc
    cases hp : t.wreqPending with
    | true =>
      -- the write in flight goes on, and will find the new bytes behind it
      have hcap : ¬ t.wbLen + n > t.wbCap := fun hgt => hc ⟨hgt, hp⟩
      have hack := h.ack hp
      have hd : tcpDrained { t with wbLen := t.wbLen + n, wreqPending := true } = false := by
        simp [tcpDrained]
      have hu : ({ t with wbLen := t.wbLen + n, wreqPending := true } : Tcp).Ready :=
        ⟨h.reading, by simp, fun _ => by dsimp only; omega, by simp [hfin]⟩
      simp only [wbAppend, hcap, if_false, tcpPump, hp, if_true]
      exact ⟨⟨.inl hu, fun _ => .inl hd, fun h => h, by simp, fun h => h, by simp⟩,
        fun _ => .inl hd,
        by simp, by simp, rfl, .inl rfl, by simp [hno]⟩
    | false =>
      obtain ⟨hl, ho⟩ := h.idle hp
      have hu : (wbAppend n t).reading = true ∧ (wbAppend n t).wreqPending = false ∧
          (wbAppend n t).wbOff = 0 ∧ (wbAppend n t).wbLen = n ∧ (wbAppend n t).finSent = false ∧
          (wbAppend n t).active = t.active := by
        unfold wbAppend
        split <;> simp [h.reading, hp, hl, ho, hfin]
      obtain ⟨h1, h2, h3, h4, h5, h6⟩ := hu
      obtain ⟨⟨hm, -, -⟩, hd⟩ := tcp_pump (t := t) (u := wbAppend n t) (e := e) (p := True)
        (P := fun _ => False) h1 h2 (by omega) (by simp [h5]) h6 fun hw => absurd hw hwc
      refine ⟨⟨hm.ok, hm.owing, hm.paused, hm.silent, hm.refuses, by simp⟩, fun _ => hd (by omega),
        by simp, by simp, rfl, ?_, by simp [hno]⟩
      simp only [tcpPump]
      split_ifs <;> simp [Told]

lemma tcp_shutdownSend : HalfClosed (.tcp t) { io := .tcp (tcpShutdownSend t) } := by
  unfold tcpShutdownSend
  split
  · rename_i hc
    exact .of_served (served_self h) hc (.inl rfl) rfl
  dsimp only
  split
  · exact .of_served (served_tcp { h with fin := fun hf => ⟨(h.fin hf).1, rfl⟩ } rfl rfl
      (fun _ => rfl) (by simp) (by simp)) rfl (.inl rfl) rfl
  · rename_i hc
    have hp : t.wreqPending = false := by
      simp only [Bool.or_eq_true, not_or] at hc
      simpa using hc.1
    exact .of_served (served_tcp { h with fin := fun _ => ⟨hp, rfl⟩ } rfl rfl (fun _ => rfl)
      (by simp) (by simp)) rfl (.inl rfl) rfl

end

/-! ## Every io -/

variable {x : Obj}

lemma Obj.Ok.write (h : x.Ok) {n : ℕ} (hn : 0 < n) (hle : n ≤ 65536) : Wrote x (x.write n e) := by
  cases x with
  | gone => exact h.elim
  | tcp => exact tcp_write h hn hle
  | tls => exact tls_write h hn hle

lemma Obj.Ok.shutdownSend (h : x.Ok) : HalfClosed x (x.shutdownSend e) := by
  cases x with
  | gone => exact h.elim
  | tcp => exact tcp_shutdownSend h
  | tls => exact tls_shutdownSend h

lemma Obj.Ok.exec (h : x.Ok) {f : Frame} (hf : f.Plain) :
    Served p (fun d => ∃ i o, a = .data d i o) x (x.exec e a f) := by
  cases x with
  | gone => exact h.elim
  | tcp =>
    cases f with
    | tls => exact served_self h
    | tcpPump => exact tcp_execPump h
    | tcpFin => exact tcp_execFin h
  | tls y =>
    cases f with
    | tls => exact tls_exec h hf
    | tcpPump | tcpFin => exact (calm_self h).served (by simp)

def drainsSilently (ev : Event) : Obj → Bool
  | .tls y =>
    match ev with
    | .writeDone st => st != .error && y.pqOff == y.pqLen && y.wbio == 0 && !y.aboveLow
    | _ => false
  | _ => false

lemma Obj.Ok.event (h : x.Ok) {ev : Event} {r : Res} (hr : x.event ev e = some r) :
    Served (drainsSilently ev x = false) (fun d => ev = .recv d) x r := by
  cases x with
  | gone => exact h.elim
  | tcp t =>
    cases ev <;> simp only [Obj.event, Option.ite_none_right_eq_some, Option.some.injEq] at hr <;>
      obtain ⟨ha, rfl⟩ := hr
    case writeDone st => exact tcp_writeDone h ha st
    all_goals exact served_tcp h rfl rfl id (by simp [ha]) (by simp)
  | tls y =>
    cases ev <;> simp only [Obj.event, Option.ite_none_right_eq_some, Option.some.injEq] at hr <;>
      obtain ⟨ha, rfl⟩ := hr
    case writeDone st =>
      obtain ⟨hm, hl, hd⟩ := tls_writeDone (e := e) h st
      refine ⟨hm, fun hs => hl fun h1 h2 h3 => ?_, hd⟩
      simpa [drainsSilently, h1, h2, h3] using hs
    case recv d => exact (calm_pumpRead (x := y) h ⟨id, rfl, rfl, id⟩ rfl).served (by simp)
    case eof =>
      have hc : Calm y (Tls.onRead .eof y) := ⟨h, ⟨id, rfl, rfl, id⟩, rfl,
        fun _ hr => by simp [ha] at hr, by simp [Tls.onRead]⟩
      exact hc.served (by simp [Tls.onRead, h.cbs, Cb.ofTls])
    case error =>
      exact served_sent h (Tls.sent_finishClose (y := { y with lastErr := some .io }) h.state h.cbs
        ⟨id, rfl, rfl, id⟩)

lemma Obj.Ok.resumeRead (h : x.Ok) : Resumed x x.resumeRead := by
  cases x with
  | gone => exact h.elim
  | tcp t =>
    have hu : (tcpResumeRead t).Ready ∧ tcpDrained (tcpResumeRead t) = tcpDrained t ∧
        (tcpResumeRead t).writeClosed = t.writeClosed := by
      unfold tcpResumeRead
      split
      · exact ⟨{ h with }, rfl, rfl⟩
      · exact ⟨h, rfl, rfl⟩
    exact ⟨hu.1, fun ho => hu.2.1.trans ho, fun hr => hu.2.2.trans hr, hu.2.1, rfl,
      by simp [Obj.resumeRead]⟩
  | tls y =>
    unfold Obj.resumeRead Tls.tmSslStreamResumeRead
    dsimp only
    split
    · exact ⟨h, id, id, rfl, rfl, by simp [Res.ofTls]⟩
    have hy : ({ y with readPaused := false } : Tls.Stream).Ready := { h with }
    split
    · exact ⟨hy, id, id, rfl, rfl, by simp [Res.ofTls]⟩
    · have hc := calm_pumpRead (x := { y with readPaused := false, reading := true })
        (y := { y with readPaused := false, reading := true })
        { h with } ⟨id, rfl, rfl, id⟩ rfl
      exact ⟨hc.ready, fun ho => ⟨hc.same.above ho.1, hc.drained.trans ho.2⟩, hc.same.closed,
        hc.drained, rfl, hc.move.plain⟩

lemma Obj.pauseRead_spec :
    (x.Ok → x.pauseRead.Ok ∧ x.pauseRead.Paused) ∧ (x.Paused → x.pauseRead.Paused) ∧
      (x.Owing → x.pauseRead.Owing) ∧ (x.Refuses → x.pauseRead.Refuses) ∧
      x.pauseRead.drained = x.drained := by
  cases x with
  | gone => exact ⟨fun h => h.elim, id, id, id, rfl⟩
  | tcp =>
    simp only [Obj.pauseRead, tcpPauseRead]
    split
    · exact ⟨fun h => ⟨{ h with }, rfl⟩, fun _ => rfl, id, id, rfl⟩
    · rename_i hr
      exact ⟨fun h => absurd h.reading hr, id, id, id, rfl⟩
  | tls =>
    simp only [Obj.pauseRead, Tls.tmSslStreamPauseRead]
    split
    · rename_i hr
      exact ⟨fun h => by simp [h.started, h.state] at hr, fun h => ⟨rfl, h.2⟩, id, id, rfl⟩
    · exact ⟨fun h => ⟨{ h with }, rfl, rfl⟩, fun _ => ⟨rfl, rfl⟩, id, id, rfl⟩

end TunnelMate.TmIo
