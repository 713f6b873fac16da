import Mathlib.Logic.Relation
import TunnelMate.Proofs.Relay

/-!
# What a callback does to the legs

Whatever a stream's callbacks and their continuations do is a chain of small changes (`Act`), of
which three matter to who is at the two ends: a leg is dropped after an error, a half-close is
requested, the stream closes.
-/

namespace TunnelMate.Duplex

variable {s s' s'' : Stream} {l m : Leg} {f : Side → Side} {τ : Type}

def Shrinks (s s' : Stream) : Prop :=
  ∀ m, (s'.side m).io = (s.side m).io ∨ (s'.side m).io = none

namespace Shrinks

lemma refl : Shrinks s s := fun _ => .inl rfl

lemma trans (h : Shrinks s s') (h' : Shrinks s' s'') : Shrinks s s'' := by
  intro m
  rcases h' m with hm | hm
  · rw [hm]; exact h m
  · exact .inr hm

lemma upd (hf : ∀ x, (f x).io = x.io ∨ (f x).io = none) : Shrinks s (s.upd f l) := by
  intro m
  cases l <;> cases m
  · exact hf _
  · exact .inl rfl
  · exact .inl rfl
  · exact hf _

lemma close : Shrinks s (tmStreamClose s) := by
  unfold tmStreamClose
  split
  · exact .refl
  · intro m
    cases m <;> exact .inr rfl

end Shrinks

/-- A change that a callback makes. `err` tells which legs have reported an error, `cut` which
queues may be there when a half-close is requested, and `fed` that bytes have been read. -/
inductive Act (err : Leg → Prop) (cut : Bytes → Prop) (fed : Prop) : Stream → Stream → Prop
  | leg {s : Stream} (l : Leg) (f : Side → Side) :
      (∀ x, (f x).io = x.io ∧ (f x).cuts = x.cuts ∧ (f x).rd = x.rd) →
      Act err cut fed s (s.upd f l)
  | note {s : Stream} (l : Leg) (d : Bytes) : fed → Act err cut fed s (s.noteRead l d)
  | early {s : Stream} (q : Bytes) : fed → Act err cut fed s { s with preq := q }
  | count {s : Stream} (up down : ℕ) : Act err cut fed s { s with upBytes := up, downBytes := down }
  | halfClose {s : Stream} (l : Leg) (k : Cut) : cut k.queue →
      Act err cut fed s (s.upd (fun x => { x with shut := true, cuts := k :: x.cuts }) l)
  | dropLeg {s : Stream} (l : Leg) : err l →
      Act err cut fed s (s.upd (fun x => { x with io := none, eof := true }) l)
  | close {s : Stream} : Act err cut fed s (tmStreamClose s)

def Acts (err : Leg → Prop) (cut : Bytes → Prop) (fed : Prop) : Stream → Stream → Prop :=
  Relation.ReflTransGen (Act err cut fed)

variable {E : Leg → Prop} {Q : Bytes → Prop} {F : Prop}

section Chains

lemma Act.shrinks (h : Act E Q F s s') : Shrinks s s' := by
  cases h with
  | leg l f hf => exact .upd fun x => .inl (hf x).1
  | note => exact .upd fun _ => .inl rfl
  | early | count => intro m; cases m <;> exact .inl rfl
  | halfClose => exact .upd fun _ => .inl rfl
  | dropLeg => exact .upd fun _ => .inr rfl
  | close => exact .close

lemma Acts.shrinks (h : Acts E Q F s s') : Shrinks s s' := by
  induction h with
  | refl => exact .refl
  | tail _ ha ih => exact ih.trans ha.shrinks

lemma Acts.bound (h : Acts E Q F s s') : s'.bound = s.bound := by
  induction h with
  | refl => rfl
  | tail _ ha ih => rw [← ih]; cases ha <;> simp [Stream.noteRead]

lemma Acts.closing (h : Acts E Q F s s') (hc : s.closing = true) : s'.closing = true := by
  induction h with
  | refl => exact hc
  | tail _ ha ih => cases ha <;> simp [ih, Stream.noteRead]

lemma Acts.trans (h : Acts E Q F s s') (h' : Acts E Q F s' s'') : Acts E Q F s s'' :=
  Relation.ReflTransGen.trans h h'

lemma Acts.leg (hf : ∀ x, (f x).io = x.io ∧ (f x).cuts = x.cuts ∧ (f x).rd = x.rd) :
    Acts E Q F s (s.upd f l) :=
  .single (.leg l f hf)

lemma Acts.of_leg (h : Acts E Q F (s.upd f l) s')
    (hf : ∀ x, (f x).io = x.io ∧ (f x).cuts = x.cuts ∧ (f x).rd = x.rd) : Acts E Q F s s' :=
  (Acts.leg hf).trans h

lemma Acts.close : Acts E Q F s (tmStreamClose s) := .single .close

end Chains

/-! ## The shared operations -/

section Operations

lemma acts_maybeClose : Acts E Q F s (streamMaybeClose s) := by
  unfold streamMaybeClose
  split_ifs
  · exact .refl
  · exact .refl
  · exact .refl
  · exact .refl
  · exact .close

lemma acts_flushPend : Acts E Q F s (flushPend l s : _ × List (Op τ)).1 := by
  unfold flushPend
  split_ifs <;> dsimp only
  · exact .refl
  · exact .leg fun _ => by simp

lemma acts_write (d : Bytes) (ans : Ans) : Acts E Q F s (tmIoWrite l d ans s).2 := by
  unfold tmIoWrite
  split <;> dsimp only
  · exact .leg fun _ => by simp
  · exact .refl
  · exact .leg fun _ => by simp

lemma acts_shutdownSend (hq : (s.side l).io ≠ none → Q (s.queue l)) :
    Acts E Q F s (tmIoShutdownSend l s : _ × List (Op τ)).1 := by
  unfold tmIoShutdownSend
  split_ifs with hi
  · exact .refl
  · exact .single (.halfClose l _ (hq hi))

lemma acts_resumeRead : Acts E Q F s (tmIoResumeRead l s : _ × List (Op τ)).1 := by
  unfold tmIoResumeRead
  split_ifs <;> exact .refl

lemma acts_queueBehind (d : Bytes) : Acts E Q F s (queueBehind l d s) :=
  .of_leg (.leg fun _ => by simp) fun _ => by simp

lemma acts_relayWrite (d : Bytes) (ans : Ans) :
    Acts E Q F s (relayWrite l d ans s : _ × List (Op τ)).1 := by
  have hw := acts_write (s := s) (l := l.other) (E := E) (Q := Q) (F := F) d ans
  unfold relayWrite
  split_ifs
  · exact acts_queueBehind d
  · split <;> rename_i he <;> rw [he] at hw
    · exact hw
    · exact hw.trans (acts_queueBehind d)
    · exact hw.trans .close

lemma acts_queueEarly (hF : F) (d : Bytes) : Acts E Q F s (queueEarly d s) := by
  unfold queueEarly
  split_ifs
  · exact .close
  · have h : Acts E Q F s { s with preq := s.preq ++ d } := .single (.early _ hF)
    dsimp only
    split_ifs
    · exact h.trans (.leg fun _ => by simp)
    · exact h

lemma acts_exec {tail : τ → Stream → Stream × List (Op τ)} {ans : Ans} {op : Op τ}
    {r : Stream × List (Op τ)} (ht : ∀ k, op = .tail k → Acts E Q F s (tail k s).1)
    (h : exec tail ans s op = some r) : Acts E Q F s r.1 := by
  cases op with
  | inIo =>
    cases h
    exact .refl
  | flushLoop l =>
    simp only [exec] at h
    split_ifs at h
    · cases h
      dsimp only
      exact .leg fun _ => by simp
    · have hw := acts_write (s := s) (l := l) (E := E) (Q := Q) (F := F)
        ((s.side l).pend.take (min (s.side l).pend.length flushMax)) ans
      split at h <;> rename_i he <;> rw [he] at hw <;> cases h <;> dsimp only
      · exact hw
      · exact hw.trans (.leg fun _ => by simp)
      · exact hw.trans (.leg fun _ => by simp)
  | flushShift =>
    simp only [exec] at h
    split_ifs at h
    cases h
    dsimp only
    exact .leg fun _ => by simp
  | tail k =>
    cases h
    exact ht k rfl

end Operations

end TunnelMate.Duplex

namespace TunnelMate.Relay

open Duplex

variable {s s' : Stream} {l : Leg} {c c' : Config Tail} {i : Label} {E : Leg → Prop}
  {Q : Bytes → Prop} {F : Prop}

section Callbacks

lemma acts_read (hF : F) (d : Bytes) (ans : Ans) : Acts E Q F s (relayRead l d ans s).1 := by
  cases l
  · have h : Acts E Q F s { s with upBytes := s.upBytes + d.length } := .single (.count _ _)
    unfold relayRead relayARead
    dsimp only
    split_ifs
    · exact .refl
    · exact h.trans .close
    · exact h.trans (acts_queueEarly hF d)
    · exact h.trans (acts_relayWrite d ans)
  · have h : Acts E Q F s { s with downBytes := s.downBytes + d.length } := .single (.count _ _)
    unfold relayRead relayBRead
    dsimp only
    split_ifs
    · exact .refl
    · exact h.trans .close
    · exact h.trans (acts_relayWrite d ans)

lemma acts_noteRead (hF : F) (d : Bytes) : Acts E Q F s (s.noteRead l d) :=
  .single (.note l d hF)

lemma acts_ended : Acts E Q F s (legEnded l s).1 := by
  unfold legEnded
  split_ifs
  · exact acts_maybeClose
  · exact acts_flushPend (τ := Tail)

lemma acts_eof : Acts E Q F s (relayEof l s).1 := by
  unfold relayEof
  split_ifs
  · exact .refl
  · exact acts_ended.of_leg fun _ => by simp

lemma acts_error (he : E l) : Acts E Q F s (relayError l s).1 := by
  unfold relayError
  split_ifs
  · exact .refl
  · exact (Relation.ReflTransGen.single (.dropLeg l he)).trans acts_ended

lemma acts_low : Acts E Q F s (relayLow l s).1 := by
  unfold relayLow
  split_ifs
  · exact .refl
  · exact acts_maybeClose
  · exact acts_flushPend (τ := Tail)

lemma acts_tail (hcut : ∀ l, (s.side l).io ≠ none → (s.side l).pend = [] → Q (s.queue l))
    (k : Tail) : Acts E Q F s (tail k s).1 := by
  have hq : ∀ l m : Leg, (s.upd (fun x => { x with fin := true }) l).queue m = s.queue m := by
    intro l m
    cases l <;> cases m <;> rfl
  cases k <;> unfold tail <;> dsimp only
  case ended l =>
    split_ifs with hp
    · exact acts_maybeClose
    · refine (acts_shutdownSend (τ := Tail) fun hi => ?_).of_leg fun _ => by simp
      rw [hq]
      exact hcut _ (by simpa using hi) (not_not.1 hp)
  case low l =>
    split_ifs with hp
    · exact acts_maybeClose
    · refine (acts_shutdownSend (τ := Tail) fun hi => ?_).of_leg fun _ => by simp
      rw [hq]
      exact hcut _ (by simpa using hi) (not_not.1 hp)
    · exact .refl
  case lowResume l =>
    split_ifs
    · exact (acts_resumeRead (τ := Tail)).of_leg fun _ => by simp
    · exact .refl
  case start =>
    split_ifs
    · dsimp only
      exact .leg fun _ => by simp
    · exact (acts_resumeRead (τ := Tail)).of_leg fun _ => by simp
    · exact .refl
  case maybeClose => exact acts_maybeClose

lemma step_acts (hcut : ∀ l, (c.s.side l).io ≠ none → (c.s.side l).pend = [] → Q (c.s.queue l))
    (hs : step c i = some c') (hi : ∀ io, i ≠ .attach io) :
    Acts (fun l => i = .error l) Q True c.s c'.s := by
  cases i with
  | attach io => exact absurd rfl (hi io)
  | run =>
    simp only [step, Config.run] at hs
    split at hs
    · simp at hs
    · obtain ⟨r, hr, rfl⟩ := Option.map_eq_some_iff.1 hs
      exact acts_exec (fun k _ => acts_tail hcut k) hr
  | drain =>
    cases hs
    dsimp only
    exact .leg fun _ => by simp
  | read l d ans =>
    obtain ⟨-, rfl⟩ := of_guard hs
    exact (acts_noteRead trivial d).trans (acts_read trivial d ans)
  | eof =>
    obtain ⟨-, rfl⟩ := of_guard hs
    exact acts_eof
  | error =>
    obtain ⟨-, rfl⟩ := of_guard hs
    exact acts_error rfl
  | low =>
    obtain ⟨-, rfl⟩ := of_guard hs
    exact acts_low
  | ingestA d ans =>
    obtain ⟨-, rfl⟩ := of_guard hs
    exact (acts_noteRead trivial d).trans (acts_read (l := .a) trivial d ans)
  | ingestB d ans =>
    obtain ⟨-, rfl⟩ := of_guard hs
    exact (acts_noteRead trivial d).trans (acts_read (l := .b) trivial d ans)
  | bindTimer =>
    simp only [step] at hs
    split_ifs at hs <;> cases hs
    · exact .refl
    · exact .close
  | close =>
    obtain ⟨-, rfl⟩ := of_guard hs
    exact .close

end Callbacks

section Legs

lemma shrinks_of (h : Acts (fun _ => True) (fun _ => True) True s s') : Shrinks s s' := h.shrinks

lemma shrinks_read (d : Bytes) (ans : Ans) : Shrinks s (relayRead l d ans (s.noteRead l d)).1 :=
  shrinks_of ((acts_noteRead trivial d).trans (acts_read trivial d ans))

lemma shrinks_ended : Shrinks s (legEnded l s).1 := shrinks_of acts_ended

lemma shrinks_eof : Shrinks s (relayEof l s).1 := shrinks_of acts_eof

lemma shrinks_low : Shrinks s (relayLow l s).1 := shrinks_of acts_low

lemma shrinks_tail (k : Tail) : Shrinks s (tail k s).1 :=
  shrinks_of (acts_tail (fun _ _ _ => trivial) k)

lemma shrinks_exec {ans : Ans} {op : Op Tail} {r : Stream × List (Op Tail)}
    (h : exec tail ans s op = some r) : Shrinks s r.1 :=
  shrinks_of (acts_exec (fun k _ => acts_tail (fun _ _ _ => trivial) k) h)

lemma shrinks_step (hs : step c i = some c') (hi : ∀ io, i ≠ .attach io) : Shrinks c.s c'.s :=
  (step_acts (Q := fun _ => True) (fun _ _ _ => trivial) hs hi).shrinks

lemma bound_step (hs : step c i = some c') (hi : ∀ io, i ≠ .attach io) : c'.s.bound = c.s.bound :=
  (step_acts (Q := fun _ => True) (fun _ _ _ => trivial) hs hi).bound

end Legs

section Attachment

lemma closing_flushPend : (flushPend l s : _ × List (Op Tail)).1.closing = s.closing := by
  unfold flushPend
  split_ifs <;> simp

lemma step_attach_cases {io : Io} (hs : step c (.attach io) = some c') :
    c'.s = c.s ∨ c.s.closing = false ∧ c.s.bound = false ∧ (c'.s = attached io c.s ∨
        c'.s = (flushPend .b (attached io c.s) : _ × List (Op Tail)).1) := by
  obtain ⟨-, rfl⟩ := of_guard hs
  obtain he | ⟨hc, hb, he | he⟩ := attachAgent_cases io c.s
  · exact .inl (congrArg Prod.fst he)
  · exact .inr ⟨hc, hb, .inl (congrArg Prod.fst he)⟩
  · exact .inr ⟨hc, hb, .inr (by simp [Config.push, he])⟩

lemma step_attach {io : Io} (hs : step c (.attach io) = some c') : c'.s.closing = c.s.closing ∧
      ∀ io', c'.s.b.io = some io' → c.s.b.io = some io' ∨ io' = io := by
  rcases step_attach_cases hs with h | ⟨-, -, h | h⟩ <;> rw [h]
  · exact ⟨rfl, fun io' h => .inl h⟩
  · exact ⟨rfl, fun io' h => .inr (Option.some.inj h).symm⟩
  · refine ⟨closing_flushPend, fun io' h => .inr ?_⟩
    have hsh := (acts_flushPend (s := attached io c.s) (l := .b) (τ := Tail)
      (E := fun _ => False) (Q := fun _ => False) (F := True)).shrinks
    rcases hsh .b with hf | hf
    · exact (Option.some.inj (hf.symm.trans h)).symm
    · exact absurd (hf.symm.trans h) (by simp)

lemma legs_attach {io : Io} (hs : step c (.attach io) = some c') (hc : c.s.closing = false)
    (hb : c.s.bound = false) :
    c'.s.bound = true ∧ c'.s.a.io = some (c.s.a.io.getD .tcp) ∧ c'.s.b.io = some io := by
  have ha : (attached io c.s).a.io = some (c.s.a.io.getD .tcp) := by
    unfold attached
    cases h : c.s.a.io with
    | none => simp
    | some => simp [h]
  have hf : ∀ s : Stream, (flushPend .b s : _ × List (Op Tail)).1.bound = s.bound ∧
      (flushPend .b s : _ × List (Op Tail)).1.a = s.a ∧
      (flushPend .b s : _ × List (Op Tail)).1.b.io = s.b.io := fun s => by
    unfold flushPend
    split_ifs <;> exact ⟨rfl, rfl, rfl⟩
  obtain ⟨-, rfl⟩ := of_guard hs
  simp only [Config.push, attachAgent_eq io hc hb]
  split_ifs
  · exact ⟨rfl, ha, rfl⟩
  · obtain ⟨h1, h2, h3⟩ := hf (attached io c.s)
    exact ⟨h1, (congrArg Side.io h2).trans ha, h3⟩

end Attachment

end TunnelMate.Relay
