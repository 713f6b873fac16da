import TunnelMate.Relay
import TunnelMate.Proofs.Duplex

/-!
# The broker's relay loses, doubles and reorders nothing

Every callback of `relay.c`, and every continuation of one, keeps the invariant of the two pipes,
however callbacks nest; so it holds at every moment of every run of a stream (`relay_fifo`).
-/

namespace TunnelMate.Relay

open Bool hiding not_or

open List Option

open Duplex

variable {s s₁ : Stream} {t : List (Op Tail)} {l m : Leg} {d : Bytes} {ans : Ans}

section Events

section

variable (h : Inv ⟨s, t⟩)
include h

lemma inv_relayARead (hr : Read .a d s s₁) (hc : s.closing = false) :
    Inv ⟨(relayARead d ans s₁).1, (relayARead d ans s₁).2 ++ t⟩ := by
  have hr' : Read .a d s { s₁ with upBytes := s₁.upBytes + d.length } := { hr with }
  have hib : s₁.b.io = s.b.io := hr.io .b
  have heb : s₁.b.eof = s.b.eof := hr.eof
  have hc' : ¬ s₁.closing = true := by simp [hr.closing, hc]
  unfold relayARead
  dsimp only
  split_ifs with hi he
  · exact h.closeRead hr' hc
  · -- a missing agent leg of a bound stream has ended, so this one is not bound
    have hb : s.bound = false := by
      by_contra hb
      have := (h.bound (by simpa using hb)).2 hc (hib ▸ hi)
      exact he (heb.trans this)
    exact h.queueEarly hr' hc hb
  · exact h.relayWrite hr' hc (h.isBound (hib ▸ hi))

lemma inv_relayBRead (hr : Read .b d s s₁) (hc : s.closing = false)
    (hb : s.bound = true) : Inv ⟨(relayBRead d ans s₁).1, (relayBRead d ans s₁).2 ++ t⟩ := by
  have hr' : Read .b d s { s₁ with downBytes := s₁.downBytes + d.length } := { hr with }
  have hc' : ¬ s₁.closing = true := by simp [hr.closing, hc]
  unfold relayBRead
  dsimp only
  split_ifs with hi
  · exact h.closeRead hr' hc
  · exact h.relayWrite hr' hc hb

lemma inv_legEnded (l : Leg) : Inv ⟨(legEnded l s).1, (legEnded l s).2 ++ t⟩ := by
  unfold legEnded
  split_ifs with hi
  · exact h.maybeClose
  · simp only [append_assoc, singleton_append]
    refine (h.push (.tail (.ended l)) fun _ => rfl).flushPend l.other fun hl => ?_
    rw [hl] at hi
    exact h.isBound hi

lemma inv_relayEof (hb : l = .b → s.bound = true) :
    Inv ⟨(relayEof l s).1, (relayEof l s).2 ++ t⟩ := by
  unfold relayEof
  split_ifs
  · exact h
  · have he : s.upd (fun x => { x with eof := true }) l
        = s.upd (fun x => { x with io := (s.side l).io, eof := true }) l := by cases l <;> rfl
    rw [he]
    exact inv_legEnded (h.ended hb (.inl rfl)) l

lemma inv_relayError (hb : l = .b → s.bound = true) :
    Inv ⟨(relayError l s).1, (relayError l s).2 ++ t⟩ := by
  unfold relayError
  split_ifs
  · exact h
  · exact inv_legEnded (h.ended hb (.inr rfl)) l

lemma inv_relayLow : Inv ⟨(relayLow l s).1, (relayLow l s).2 ++ t⟩ := by
  unfold relayLow
  split_ifs with hc hi
  · exact h
  · exact h.maybeClose
  · simp only [append_assoc, singleton_append]
    refine (h.push (.tail (.low l)) fun _ => rfl).flushPend l fun hl => ?_
    rw [hl] at hi
    exact h.isBound hi

end

def attached (io : Io) (s : Stream) : Stream :=
  { s with
    bound := true
    preq := []
    a := if s.a.io = none then { s.a with io := some .tcp, shut := false, drained := true } else s.a
    b := { s.b with
      io := some io, shut := false, drained := true
      pend := if s.preq = [] then s.b.pend else s.preq } }

lemma attachAgent_eq (io : Io) (hc : s.closing = false) (hu : s.bound = false) :
    tmStreamRelayAttachAgent io s = if s.preq = [] then (attached io s, [.tail .start])
      else ((flushPend .b (attached io s) : _ × List (Op Tail)).1,
        (flushPend .b (attached io s)).2 ++ [.tail .start]) := by
  by_cases hq : s.preq = [] <;> by_cases hi : s.a.io = none <;>
    simp [tmStreamRelayAttachAgent, tmStreamRelayStart, attached, Stream.upd, hc, hu, hq, hi]

lemma attachAgent_cases (io : Io) (s : Stream) : tmStreamRelayAttachAgent io s = (s, []) ∨
    s.closing = false ∧ s.bound = false ∧
      (tmStreamRelayAttachAgent io s = (attached io s, [.tail .start]) ∨
        tmStreamRelayAttachAgent io s = ((flushPend .b (attached io s) : _ × List (Op Tail)).1,
          (flushPend .b (attached io s)).2 ++ [.tail .start])) := by
  by_cases hcb : s.closing = true ∨ s.bound = true
  · exact .inl (by rcases hcb with hc | hb <;> simp [tmStreamRelayAttachAgent, *])
  · simp only [not_or, not_eq_true] at hcb
    rw [attachAgent_eq io hcb.1 hcb.2]
    split_ifs
    · exact .inr ⟨hcb.1, hcb.2, .inl rfl⟩
    · exact .inr ⟨hcb.1, hcb.2, .inr rfl⟩

lemma side_attached (io : Io) (s : Stream) (m : Leg) : ∃ x b d, (attached io s).side m =
    { s.side m with
      io := some x, shut := b, drained := d
      pend := if m = .b ∧ s.preq ≠ [] then s.preq else (s.side m).pend } := by
  cases m with
  | a =>
    simp only [attached, Stream.side]
    split
    · exact ⟨_, _, _, rfl⟩
    · obtain ⟨x, hx⟩ := ne_none_iff_exists'.1 ‹_›
      exact ⟨x, s.a.shut, s.a.drained, by simp [← hx]⟩
  | b => exact ⟨io, false, true, by by_cases hq : s.preq = [] <;> simp [attached, Stream.side, hq]⟩

lemma alive_attached (io : Io) (s : Stream) (m : Leg) : ((attached io s).side m).io ≠ none := by
  obtain ⟨x, b, d, he⟩ := side_attached io s m
  simp [he]

lemma inv_attached (io : Io) (h : Inv (⟨s, []⟩ : Config Tail)) (hc : s.closing = false)
    (hu : s.bound = false) : Inv (⟨attached io s, []⟩ : Config Tail) := by
  obtain ⟨-, -, -, h4⟩ := h.unbound hu
  have hb4 : s.b.pend = [] := (h4 .b).1
  refine h.bindB hu hc hc rfl rfl ?_ ?_ (by simp [attached]) fun m => ?_
  · obtain ⟨x, b, d, he⟩ := side_attached io s .a
    exact (congrArg Side.pend he).trans (h4 .a).1
  · simp only [attached, hb4]
    split_ifs with hq
    · exact hq.symm
    · rfl
  · obtain ⟨x, b, d, he⟩ := side_attached io s m
    simp [he]

lemma inv_attachAgent (io : Io) (h : Inv (⟨s, []⟩ : Config Tail)) :
    Inv ⟨(tmStreamRelayAttachAgent io s).1, (tmStreamRelayAttachAgent io s).2⟩ := by
  obtain he | ⟨hc, hu, he⟩ := attachAgent_cases io s
  · rw [he]
    exact h
  have h' := (inv_attached io h hc hu).push (.tail .start) fun _ => rfl
  obtain he | he := he <;> rw [he]
  · exact h'
  · exact h'.flushPend .b fun _ => rfl

lemma inv_tail (h : Inv ⟨s, t⟩) (k : Tail) : Inv ⟨(tail k s).1, (tail k s).2 ++ t⟩ := by
  cases k with
  | maybeClose => exact h.maybeClose
  | ended l =>
    simp only [tail]
    split_ifs
    · exact h.maybeClose
    · have h2 := h.upd (f := fun x => { x with fin := true }) (l := l) (fun x => by simp)
        fun _ => rfl
      simp only [append_assoc, singleton_append]
      exact (h2.push (.tail .maybeClose) fun _ => rfl).shutdownSend l.other
  | low l =>
    simp only [tail]
    split_ifs
    · exact h.maybeClose
    · have h2 := h.upd (f := fun x => { x with fin := true }) (l := l.other) (fun x => by simp)
        fun _ => rfl
      simp only [append_assoc, singleton_append]
      exact (h2.push (.tail (.lowResume l)) fun _ => rfl).shutdownSend l
    · exact h.push _ fun _ => rfl
  | lowResume l =>
    simp only [tail]
    split_ifs
    · have h2 := h.upd (f := fun x => { x with paused := false }) (l := l.other) (fun x => by simp)
        fun _ => rfl
      simp only [append_assoc, singleton_append]
      exact (h2.push (.tail .maybeClose) fun _ => rfl).resumeRead l.other
    · exact h.push _ fun _ => rfl
  | start =>
    have h2 : ∀ p, Inv ⟨s.upd (fun x => { x with paused := p }) .a, t⟩ := fun p =>
      h.upd (fun x => by simp) fun _ => rfl
    simp only [tail]
    split_ifs
    · exact h2 true
    · exact (h2 false).resumeRead .a
    · exact h

end Events

section Runs

variable {c c' : Config Tail} {i : Label} {tr : List (Config Tail × Label)}

lemma step_inv (h : Inv c) (hs : step c i = some c') : Inv c' := by
  obtain ⟨s, t⟩ := c
  cases i with
  | read l d =>
    obtain ⟨-, hi, rfl⟩ := of_guards hs
    obtain ⟨hc, hb⟩ := h.of_io hi
    cases l
    · exact inv_relayARead h (.note .a d s) hc
    · exact inv_relayBRead h (.note .b d s) hc (hb rfl)
  | eof =>
    obtain ⟨-, hi, rfl⟩ := of_guards hs
    exact inv_relayEof h (h.of_io hi).2
  | error =>
    obtain ⟨-, hi, rfl⟩ := of_guards hs
    exact inv_relayError h (h.of_io hi).2
  | low =>
    simp only [step, and_eq_true, ite_none_right_eq_some] at hs
    obtain ⟨-, hs⟩ := hs
    cases hs
    exact inv_relayLow h
  | ingestA d =>
    simp only [step, and_eq_true, not_eq_true', ite_none_right_eq_some] at hs
    obtain ⟨⟨-, hc⟩, hs⟩ := hs
    cases hs
    exact inv_relayARead h (.note .a d s) hc
  | ingestB d =>
    simp only [step, and_eq_true, not_eq_true', ite_none_right_eq_some] at hs
    obtain ⟨⟨⟨-, hb⟩, hc⟩, hs⟩ := hs
    cases hs
    exact inv_relayBRead h (.note .b d s) hc hb
  | attach io =>
    obtain ⟨rfl, rfl⟩ := of_guard hs
    simpa [Config.push] using inv_attachAgent io h
  | bindTimer =>
    obtain ⟨-, rfl⟩ := of_guard hs
    split_ifs
    · exact h
    · exact h.close
  | close =>
    obtain ⟨-, rfl⟩ := of_guard hs
    exact h.close
  | run =>
    cases t with
    | nil => simp [step, Config.run] at hs
    | cons =>
      simp only [step, Config.run, map_eq_some_iff] at hs
      obtain ⟨r, he, rfl⟩ := hs
      exact h.exec (fun k h' => inv_tail h' k) he
  | drain =>
    cases hs
    exact h.upd (fun x => by simp) fun _ => rfl

lemma inv_init (h : Init c) : Inv c := by
  obtain ⟨s, t⟩ := c
  obtain ⟨rfl, hs⟩ := h
  rcases hs with rfl | ⟨k, rfl⟩ <;>
    refine ⟨fun m => ?_, by simp [createdOpen, createdClosed], fun m => ?_, fun m => ?_,
      fun _ => ⟨rfl, rfl, rfl, fun m => ?_⟩, by simp [createdOpen, createdClosed]⟩ <;>
    cases m <;>
      simp [createdOpen, createdClosed, Stream.side, pipe, Pipe.Ok, Leg.other, Stream.queue]

lemma trace_inv (h : Trace step Init tr c) : Inv c :=
  h.inv (fun _ => inv_init) fun _ _ _ => step_inv

/-- In every run of a stream, at every moment and in each direction, the bytes the destination has
accepted are a prefix of those read from the source; the rest is queued while the stream is not
closing and no write was refused. -/
theorem relay_fifo (h : Trace step Init tr c) (l : Leg) :
    (c.s.side l).acc <+: (c.s.side l.other).rd ∧ (c.s.closing = false → (c.s.side l).lost = false →
        (c.s.side l).acc ++ (c.s.queue l).drop (transit l c.todo) = (c.s.side l.other).rd ∧
        (c.todo = [] → (c.s.side l).acc ++ c.s.queue l = (c.s.side l.other).rd)) := by
  have hinv := trace_inv h
  have hok := hinv.pipes l
  refine ⟨hok.1, fun hc hl => ?_⟩
  have hlive : (pipe l c).live = true := by simp [pipe, hc, hl]
  refine ⟨hok.2.2 hlive, fun ht => ?_⟩
  exact hok.acc_append_queue hlive (by simp [pipe, ht])

theorem relay_fifo_preq : ∃ tr c, Trace step Init tr c ∧
    (c.s.b.pend = [1, 2] ∧ c.s.b.acc = [1, 2]) ∧ (c.s.side .b).acc <+: (c.s.side .a).rd ∧
    (c.s.closing = false → (c.s.side .b).lost = false →
      (c.s.side .b).acc ++ (c.s.queue .b).drop (transit .b c.todo) = (c.s.side .a).rd ∧
      (c.todo = [] → (c.s.side .b).acc ++ c.s.queue .b = (c.s.side .a).rd)) := by
  obtain ⟨tr, c, h, hc⟩ := exists_trace step Init (s := ⟨createdClosed 0, []⟩)
    ⟨rfl, .inr ⟨0, rfl⟩⟩ [.read .a [1, 2] .ok, .attach (.ssl 1), .run .ok]
    (fun r => r.2.s.b.pend = [1, 2] ∧ r.2.s.b.acc = [1, 2]) (by decide)
  exact ⟨tr, c, h, hc, relay_fifo h .b⟩

end Runs

end TunnelMate.Relay
