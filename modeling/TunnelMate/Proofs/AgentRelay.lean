import TunnelMate.AgentRelay
import TunnelMate.Proofs.RelayIo

/-!
# The agent's relay and the end of the local service's input

The agent half-closes the local leg once the broker leg has ended.
-/

namespace TunnelMate.AgentRelay

open List Option Bool

open Duplex

variable {s s₁ : Stream} {t : List (Op Tail)} {l m : Leg} {d : Bytes} {ans : Ans}

def Ios (s : Stream) : Prop :=
  s.closing = false → s.a.io ≠ none ∧ (s.bound = true → s.b.io ≠ none)

lemma Ios.of_same {s' : Stream} (h : Ios s) (hc : s'.closing = s.closing)
    (hb : s'.bound = s.bound) (ha : s'.a.io = s.a.io) (hio : s'.b.io = s.b.io) : Ios s' := by
  unfold Ios
  rw [hc, hb, ha, hio]
  exact h

variable {f : Side → Side}

section

variable (h : Ios s)
include h

lemma Ios.upd (hf : ∀ x, (f x).io = x.io) : Ios (s.upd f l) := by
  cases l
  · exact h.of_same rfl rfl (hf _) rfl
  · exact h.of_same rfl rfl rfl (hf _)

omit h in
lemma ios_close : Ios (tmStreamClose s) := fun hc => by simp at hc

lemma Ios.acts (ha : Acts (fun _ => False) (fun _ => True) True s s₁) : Ios s₁ := by
  induction ha with
  | refl => exact h
  | tail _ hact ih =>
    cases hact with
    | leg l f hf => exact ih.upd fun x => (hf x).1
    | early | count => exact ih.of_same rfl rfl rfl rfl
    | note | halfClose => exact ih.upd fun _ => rfl
    | dropLeg _ he => exact he.elim
    | close => exact ios_close

end

variable {r : Stream × List (Op Tail)}

structure Tight (s : Stream) : Prop where
  early : s.bound = false → s.b.shut = false
  sealed : s.closing = false → s.b.lost = false → s.b.shut = true → s.queue .b = []
  cuts : ∀ k ∈ s.b.cuts, k.queue = []
  full : s.b.lost = false → ∀ k ∈ s.b.cuts, k.acc = k.rd

section Tight

variable {f : Side → Side}

section

variable (h : Tight s)
include h

lemma Tight.updA : Tight (s.upd f .a) := { h with }

lemma Tight.updB (hf : ∀ x, (f x).shut = x.shut
      ∧ (f x).lost = x.lost ∧ (f x).cuts = x.cuts ∧ (x.pend = [] → (f x).pend = [])) :
    Tight (s.upd f .b) := by
  obtain ⟨h2, h3, h4, h5⟩ := h
  obtain ⟨f2, f3, f4, f5⟩ := hf s.b
  refine ⟨fun hb => ?_, fun hc hl hs => ?_, ?_, fun hl => ?_⟩
  · simpa [Stream.upd, f2] using h2 hb
  · have hq := h3 hc (by simpa [Stream.upd, f3] using hl) (by simpa [Stream.upd, f2] using hs)
    simp only [Stream.queue, Stream.side, if_true, append_eq_nil_iff] at hq
    simpa [Stream.queue, Stream.side, Stream.upd, hq.2] using f5 hq.1
  · simpa [Stream.upd, f4] using h4
  · simpa [Stream.upd, f4] using h5 (by simpa [Stream.upd, f3] using hl)

lemma Tight.upd (hf : ∀ x, (f x).shut = x.shut
      ∧ (f x).lost = x.lost ∧ (f x).cuts = x.cuts ∧ (f x).pend = x.pend) : Tight (s.upd f l) := by
  cases l
  · exact h.updA
  · refine h.updB fun x => ?_
    obtain ⟨f2, f3, f4, f5⟩ := hf x
    exact ⟨f2, f3, f4, fun hp => by rw [f5, hp]⟩

lemma Tight.close : Tight (tmStreamClose s) := by
  unfold tmStreamClose
  split_ifs
  · exact h
  · exact ⟨h.early, fun hc => by simp at hc, h.cuts, h.full⟩

lemma Tight.maybeClose : Tight (streamMaybeClose s) := by
  unfold streamMaybeClose
  split_ifs
  all_goals first | exact h | exact h.close

lemma Tight.flushPend : Tight (flushPend l s : _ × List (Op Tail)).1 := by
  unfold Duplex.flushPend
  split_ifs
  · exact h
  · dsimp only
    exact h.upd fun x => by simp

lemma Tight.resumeRead : Tight (tmIoResumeRead l s : _ × List (Op Tail)).1 := by
  unfold tmIoResumeRead
  split_ifs <;> exact h

lemma Tight.shutdownSend (hi : Inv ⟨s, t⟩) (hq : l = .b → s.queue .b = []) :
    Tight (tmIoShutdownSend l s : _ × List (Op Tail)).1 := by
  unfold tmIoShutdownSend
  split_ifs with hio
  · exact h
  dsimp only
  cases l with
  | a => exact h.updA
  | b =>
    have hc : s.closing = false := by
      by_contra hc
      exact hio (hi.closed (by simpa using hc) .b)
    have hb : s.bound = true := hi.isBound hio
    have hfull : s.b.lost = false → s.b.acc = s.a.rd := fun hl => by
      have hok := hi.pipes .b
      have hsl : (pipe .b ⟨s, t⟩).slice = 0 := by
        have := hok.2.1
        simpa [pipe, hq rfl] using this
      have := hok.acc_append_queue (by simp [pipe, hc, Stream.side, hl]) hsl
      simpa [pipe, hq rfl, Stream.side, Leg.other] using this
    refine ⟨fun hu => by simp [Stream.upd, hb] at hu, fun _ _ _ => hq rfl, fun k hk => ?_,
      fun hl k hk => ?_⟩
    · rcases mem_cons.1 hk with rfl | hk
      · exact hq rfl
      · exact h.cuts k hk
    · rcases mem_cons.1 hk with rfl | hk
      · exact hfull hl
      · exact h.full hl k hk

lemma Tight.refused (hb : s.bound = true)
    (hf : ∀ x, (f x).lost = true ∧ (f x).cuts = x.cuts) : Tight (s.upd f .b) := by
  obtain ⟨f2, f3⟩ := hf s.b
  refine ⟨fun hu => ?_, fun _ hl => ?_, ?_, fun hl => ?_⟩
  · simp [Stream.upd, hb] at hu
  · simp [Stream.upd, f2] at hl
  · simpa [Stream.upd, f3] using h.cuts
  · simp [Stream.upd, f2] at hl

lemma Tight.queueBehind
    (hs : l = .a → s.b.lost = false → s.b.shut = false) : Tight (queueBehind l d s) := by
  cases l with
  | b =>
    refine .updB (s := s.upd _ .a) ?_ fun x => by simp
    exact h.updA
  | a =>
    refine .updA (s := s.upd _ .b) ?_
    refine ⟨h.early, fun hc hl hsh => ?_, h.cuts, h.full⟩
    simp only [Stream.upd] at hl hsh
    simp [hs rfl hl] at hsh

lemma Tight.relayWrite (hc : s.closing = false) (hb : s.bound = true) :
    Tight (relayWrite l d ans s : _ × List (Op Tail)).1 := by
  unfold Duplex.relayWrite
  split_ifs with hp
  · refine h.queueBehind fun hl hlost => ?_
    by_contra hs
    have := h.sealed hc hlost (by simpa using hs)
    simp only [Stream.queue, append_eq_nil_iff] at this
    exact hp (hl ▸ this.1)
  obtain ⟨-, hs, hw⟩ | ⟨-, hs, hw⟩ | hw := tmIoWrite_cases l.other d ans s <;> rw [hw] <;>
    dsimp only
  · exact h.upd fun x => by simp
  · refine h.queueBehind fun hl _ => ?_
    rwa [hl] at hs
  · cases l with
    | a => exact (h.refused hb fun x => by simp).close
    | b => exact .close h.updA

lemma Tight.queueEarly (hb : s.bound = false) : Tight (queueEarly d s) := by
  have h' : Tight { s with preq := s.preq ++ d } :=
    ⟨h.early, fun _ _ hs => by simp [h.early hb] at hs, h.cuts, h.full⟩
  unfold Duplex.queueEarly
  dsimp only
  split_ifs
  · exact h.close
  · exact h'.updA
  · exact h'

lemma Tight.flushLoop {tail : Tail → Stream → Stream × List (Op Tail)}
    (hi : Inv ⟨s, .flushLoop l :: t⟩)
    (he : exec tail ans s (.flushLoop l) = some r) : Tight r.1 := by
  simp only [exec] at he
  split_ifs at he with hp hio
  · cases he
    dsimp only
    exact h.upd fun x => by simp
  have hb : s.bound = true := by
    by_contra hb
    exact hp ((hi.unbound (by simpa using hb)).2.2.2 l).1
  generalize min (s.side l).pend.length flushMax = n at he
  obtain ⟨-, -, hw⟩ | ⟨-, -, hw⟩ | hw := tmIoWrite_cases l ((s.side l).pend.take n) ans s <;>
    rw [hw] at he <;> cases he <;> dsimp only
  · exact h.upd fun x => by simp
  · exact h.upd fun x => by simp
  · cases l with
    | a => exact .updA h.updA
    | b => exact .updB (h.refused hb fun x => by simp) fun x => by simp

lemma Tight.flushShift {tail : Tail → Stream → Stream × List (Op Tail)} {n : ℕ}
    (he : exec tail ans s (.flushShift l n) = some r) : Tight r.1 := by
  simp only [exec] at he
  split_ifs at he
  cases he
  dsimp only
  cases l with
  | a => exact h.updA
  | b =>
    refine h.updB fun x => ⟨by simp, by simp, by simp, fun hp => ?_⟩
    simp [hp]

end

end Tight

structure Good (K : Prop) (c : Config Tail) : Prop where
  inv : Inv c
  ios : Ios c.s
  tight : K → Tight c.s

section Events

variable {K : Prop}

section

variable (h : Good K ⟨s, t⟩)
include h

lemma Good.upd (hq : Quiet f)
    (hf : ∀ x, (f x).flushing = x.flushing ∧ (f x).shut = x.shut ∧ (f x).cuts = x.cuts) :
    Good K ⟨s.upd f l, t⟩ := by
  refine ⟨h.inv.upd hq fun x => (hf x).1, h.ios.upd fun x => (hq x).1,
    fun hK => (h.tight hK).upd fun x => ?_⟩
  obtain ⟨-, -, q3, -, -, q6, -⟩ := hq x
  exact ⟨(hf x).2.1, q6, (hf x).2.2, q3⟩

lemma Good.push (k : Tail) : Good K ⟨s, .tail k :: t⟩ :=
  ⟨h.inv.push _ fun _ => rfl, h.ios, h.tight⟩

lemma Good.maybeClose : Good K ⟨streamMaybeClose s, t⟩ :=
  ⟨h.inv.maybeClose, h.ios.acts acts_maybeClose, fun hK => (h.tight hK).maybeClose⟩

lemma Good.close : Good K ⟨tmStreamClose s, t⟩ :=
  ⟨h.inv.close, ios_close, fun hK => (h.tight hK).close⟩

lemma Good.flushPend (l : Leg) (hb : l = .b → s.bound = true) (k : Tail) :
    Good K ⟨(flushPend l s : _ × List (Op Tail)).1, ((flushPend l s).2 ++ [.tail k]) ++ t⟩ := by
  rw [append_assoc, singleton_append]
  exact ⟨(h.push k).inv.flushPend l hb, h.ios.acts acts_flushPend, fun hK => (h.tight hK).flushPend⟩

lemma Good.resumeRead (l : Leg) (k : Tail) : Good K ⟨(tmIoResumeRead l s : _ × List (Op Tail)).1,
      ((tmIoResumeRead l s).2 ++ [.tail k]) ++ t⟩ := by
  rw [append_assoc, singleton_append]
  exact ⟨(h.push k).inv.resumeRead l, h.ios.acts acts_resumeRead, fun hK => (h.tight hK).resumeRead⟩

lemma Good.shutdownSend (hq : K → l = .b → s.b.io ≠ none → s.queue .b = []) (k : Tail) :
    Good K ⟨(tmIoShutdownSend l s : _ × List (Op Tail)).1,
      ((tmIoShutdownSend l s).2 ++ [.tail k]) ++ t⟩ := by
  rw [append_assoc, singleton_append]
  refine ⟨(h.push k).inv.shutdownSend l, h.ios.acts (acts_shutdownSend fun _ => trivial),
    fun hK => ?_⟩
  by_cases hio : (s.side l).io = none
  · simpa [tmIoShutdownSend, hio] using h.tight hK
  · refine (h.tight hK).shutdownSend h.inv fun hl => hq hK hl ?_
    subst hl
    exact hio

lemma Good.queue_eq (hio : s.b.io ≠ none) (hp : s.b.pend = []) : s.queue .b = [] := by
  have : s.preq = [] := (h.inv.bound (h.inv.isBound hio)).1
  simp [Stream.queue, Stream.side, hp, this]

lemma Good.queueEarly (hr : Read .a d s s₁) (hc : s.closing = false)
    (hi : s.b.io = none) (hios : Ios s₁) (ht : K → Tight s₁) : Good K ⟨queueEarly d s₁, t⟩ := by
  have hb : s.bound = false := by
    by_contra hb
    exact (h.ios hc).2 (by simpa using hb) hi
  exact ⟨h.inv.queueEarly hr hc hb, hios.acts (acts_queueEarly trivial d),
    fun hK => (ht hK).queueEarly (hr.bound ▸ hb)⟩

lemma Good.relayWrite (hr : Read l d s s₁) (hc : s.closing = false)
    (hb : s.bound = true) (hios : Ios s₁) (ht : K → Tight s₁) :
    Good K ⟨(relayWrite l d ans s₁ : _ × List (Op Tail)).1, (relayWrite l d ans s₁).2 ++ t⟩ :=
  ⟨h.inv.relayWrite hr hc hb, hios.acts (acts_relayWrite d ans),
    fun hK => (ht hK).relayWrite (hr.closing ▸ hc) (hr.bound ▸ hb)⟩

lemma Good.relayBrokerRead (hc : s.closing = false) :
    Good K ⟨(relayBrokerRead d ans (s.noteRead .a d)).1,
      (relayBrokerRead d ans (s.noteRead .a d)).2 ++ t⟩ := by
  have hr : Read .a d s { s.noteRead .a d with
      upBytes := (s.noteRead .a d).upBytes + d.length } := ⟨rfl, rfl, rfl, rfl, rfl⟩
  have hios : Ios { s.noteRead .a d with upBytes := (s.noteRead .a d).upBytes + d.length } := h.ios
  have ht : K → Tight { s.noteRead .a d with
      upBytes := (s.noteRead .a d).upBytes + d.length } := fun hK => { h.tight hK with }
  have hc' : ¬ (s.noteRead .a d).closing = true := by simp [Stream.noteRead, hc]
  unfold AgentRelay.relayBrokerRead
  dsimp only
  split_ifs with hi
  · exact h.queueEarly hr hc hi hios ht
  · exact h.relayWrite hr hc (h.inv.isBound hi) hios ht

lemma Good.relayLocalRead (hc : s.closing = false) (hb : s.bound = true) :
    Good K ⟨(relayLocalRead d ans (s.noteRead .b d)).1,
      (relayLocalRead d ans (s.noteRead .b d)).2 ++ t⟩ := by
  have hr : Read .b d s { s.noteRead .b d with
      downBytes := (s.noteRead .b d).downBytes + d.length } := ⟨rfl, rfl, rfl, rfl, rfl⟩
  have hc' : ¬ (s.noteRead .b d).closing = true := by simp [Stream.noteRead, hc]
  unfold AgentRelay.relayLocalRead
  rw [if_neg hc']
  exact h.relayWrite hr hc hb h.ios fun hK => { h.tight hK with }

section

variable (hb : l = .b → s.bound = true)
include hb

lemma Good.ended : Good K ⟨s.upd (fun x => { x with eof := true }) l, t⟩ := by
  have he : s.upd (fun x => { x with eof := true }) l
      = s.upd (fun x => { x with io := (s.side l).io, eof := true }) l := by cases l <;> rfl
  have ht : K → Tight (s.upd (fun x => { x with eof := true }) l) := fun hK =>
    (h.tight hK).upd fun x => by simp
  refine ⟨?_, h.ios.upd fun _ => rfl, ht⟩
  rw [he]
  exact h.inv.ended hb (.inl rfl)

lemma Good.relayEof : Good K ⟨(relayEof l s).1, (relayEof l s).2 ++ t⟩ := by
  cases l with
  | a =>
    simp only [AgentRelay.relayEof, relayBrokerEof]
    split_ifs with hc hi
    · exact h
    · exact h.ended hb
    · exact (h.ended hb).flushPend .b (fun _ => h.inv.isBound hi) .brokerEof
  | b =>
    simp only [AgentRelay.relayEof, relayLocalEof]
    split_ifs with hc
    · exact h
    · exact (h.ended hb).flushPend .a (by simp) (.ended .b)

lemma Good.relayLow : Good K ⟨(relayLow l s).1, (relayLow l s).2 ++ t⟩ := by
  unfold AgentRelay.relayLow
  split_ifs
  · exact h
  · exact h.flushPend l hb (.low l)

end

end

lemma Good.localConnected {ok : Bool} (h : Good K ⟨s, []⟩) (hu : s.bound = false) :
    Good K ⟨(localConnected ok s).1, (localConnected ok s).2 ++ []⟩ := by
  unfold AgentRelay.localConnected
  split_ifs with hc
  · exact h
  · exact h.close
  have hc' : s.closing = false := by simpa using hc
  obtain ⟨-, -, -, h4⟩ := h.inv.unbound hu
  refine .flushPend (t := []) ⟨?_, ?_, fun hK => ?_⟩ .b (fun _ => rfl) .connected
  · refine h.inv.bindB hu hc' hc' rfl rfl (h4 .a).1 rfl (by simp) fun m => ?_
    cases m <;> exact ⟨rfl, rfl, rfl, rfl⟩
  · exact fun _ => ⟨(h.ios hc').1, by simp⟩
  · exact ⟨by simp, by simp, (h.tight hK).cuts, (h.tight hK).full⟩

lemma Good.tailStep {k : Tail} (h : Good K ⟨s, t⟩)
    (hk : K → k = .connectedEof → s.a.eof = true → s.b.io ≠ none → s.queue .b = []) :
    Good K ⟨(tail k s).1, (tail k s).2 ++ t⟩ := by
  cases k with
  | maybeClose => exact h.maybeClose
  | brokerEof => exact h.flushPend .a (by simp) (.ended .a)
  | ended l =>
    simp only [tail]
    split_ifs with hp
    · exact h.maybeClose
    · refine .shutdownSend (h.upd (fun x => by simp) fun x => by simp) (fun _ hl hio => ?_) _
      obtain rfl : l = .a := by
        cases l
        · rfl
        · cases hl
      exact h.queue_eq hio (not_not.1 hp)
  | low =>
    simp only [tail]
    split_ifs with hp
    · exact h.maybeClose
    · refine .shutdownSend (h.upd (fun x => by simp) fun x => by simp) (fun _ hl hio => ?_) _
      subst hl
      exact h.queue_eq hio (not_not.1 hp)
    · exact h.push _
  | lowResume =>
    simp only [tail]
    split_ifs
    · exact .resumeRead (h.upd (fun x => by simp) fun x => by simp) _ _
    · exact h.push _
  | connected =>
    simp only [tail]
    split_ifs
    · have h' : Good K ⟨s.upd (fun x => { x with paused := true }) .a, t⟩ :=
        h.upd (fun x => by simp) fun x => by simp
      exact h'.push _
    · exact .resumeRead (h.upd (fun x => by simp) fun x => by simp) _ _
    · exact h.push _
  | connectedEof =>
    simp only [tail]
    split_ifs with he
    · exact h.shutdownSend (fun hK _ => hk hK rfl he) _
    · exact h
  | connectedClose =>
    simp only [tail]
    split_ifs
    · exact h.close
    · exact h

end Events

section Frame

structure Same (s s' : Stream) : Prop where
  closing : s.closing = true → s'.closing = true
  bound : s'.bound = s.bound
  preq : s'.preq = s.preq
  rd : ∀ l, (s'.side l).rd = (s.side l).rd

lemma rd_upd (hf : ∀ x, (f x).rd = x.rd) : ((s.upd f l).side m).rd = (s.side m).rd := by
  rcases Leg.eq_or_other l m with rfl | rfl <;> simp [hf]

lemma rd_close : ((tmStreamClose s).side m).rd = (s.side m).rd := by
  unfold tmStreamClose
  split_ifs
  · rfl
  · cases m <;> rfl

lemma same_acts (h : Acts (fun _ => False) (fun _ => True) False s s₁) : Same s s₁ := by
  have hrest : s₁.preq = s.preq ∧ ∀ m, (s₁.side m).rd = (s.side m).rd := by
    induction h with
    | refl => exact ⟨rfl, fun _ => rfl⟩
    | @tail u v _ ha ih =>
      have hact : v.preq = u.preq ∧ ∀ m, (v.side m).rd = (u.side m).rd := by
        cases ha with
        | leg l f hf => exact ⟨by simp, fun m => rd_upd fun x => (hf x).2.2⟩
        | note _ _ hF | early _ hF => exact hF.elim
        | count => exact ⟨rfl, fun m => by cases m <;> rfl⟩
        | halfClose | dropLeg => exact ⟨by simp, fun m => rd_upd fun _ => rfl⟩
        | close => exact ⟨by simp, fun m => rd_close⟩
      exact ⟨hact.1.trans ih.1, fun m => (hact.2 m).trans (ih.2 m)⟩
  exact ⟨h.closing, h.bound, hrest.1, hrest.2⟩

variable {F : Prop}

lemma acts_tail (k : Tail) : Acts (fun _ => False) (fun _ => True) F s (tail k s).1 := by
  cases k with
  | brokerEof => exact acts_flushPend (τ := Tail)
  | ended =>
    simp only [tail]
    split_ifs <;> dsimp only
    · exact acts_maybeClose
    · exact (acts_shutdownSend (τ := Tail) fun _ => trivial).of_leg fun _ => by simp
  | low =>
    simp only [tail]
    split_ifs <;> dsimp only
    · exact acts_maybeClose
    · exact (acts_shutdownSend (τ := Tail) fun _ => trivial).of_leg fun _ => by simp
    · exact .refl
  | lowResume =>
    simp only [tail]
    split_ifs <;> dsimp only
    · exact (acts_resumeRead (τ := Tail)).of_leg fun _ => by simp
    · exact .refl
  | connected =>
    simp only [tail]
    split_ifs <;> dsimp only
    · exact .leg fun _ => by simp
    · exact (acts_resumeRead (τ := Tail)).of_leg fun _ => by simp
    · exact .refl
  | connectedEof =>
    simp only [tail]
    split_ifs <;> dsimp only
    · exact acts_shutdownSend (τ := Tail) fun _ => trivial
    · exact .refl
  | connectedClose =>
    simp only [tail]
    split_ifs
    · exact .close
    · exact .refl
  | maybeClose => exact acts_maybeClose

lemma same_run {c c' : Config Tail} (hs : c.run tail ans = some c') : Same c.s c'.s := by
  obtain ⟨s, t⟩ := c
  cases t with
  | nil => simp [Config.run] at hs
  | cons op =>
    obtain ⟨r, he, rfl⟩ := map_eq_some_iff.1 hs
    exact same_acts (acts_exec (fun k _ => acts_tail k) he)

lemma same_relayLow : Same s (relayLow l s).1 := by
  refine same_acts ?_
  unfold relayLow
  split_ifs
  · exact .refl
  · exact acts_flushPend (τ := Tail)

lemma same_relayEof : Same s (relayEof l s).1 := by
  refine same_acts ?_
  cases l with
  | a =>
    simp only [relayEof, relayBrokerEof]
    split_ifs <;> dsimp only
    · exact .refl
    · exact .leg fun _ => by simp
    · exact (acts_flushPend (τ := Tail)).of_leg fun _ => by simp
  | b =>
    simp only [relayEof, relayLocalEof]
    split_ifs
    · exact .refl
    · exact (acts_flushPend (τ := Tail)).of_leg fun _ => by simp

end Frame

section Runs

variable {K : Prop} {c c' : Config Tail} {i : Label} {tr : List (Config Tail × Label)}

def ConnectedOk (c : Config Tail) (i : Label) : Prop :=
  ∀ ans t, i = .run ans → c.todo = .tail .connectedEof :: t → c.s.a.eof = true →
    c.s.b.io ≠ none → c.s.queue .b = []

lemma run_good {ans : Ans} (h : Good K c)
    (hok : K → ∀ t, c.todo = .tail .connectedEof :: t → c.s.a.eof = true → c.s.b.io ≠ none →
      c.s.queue .b = []) (hs : c.run tail ans = some c') : Good K c' := by
  obtain ⟨s, t⟩ := c
  cases t with
  | nil => simp [Config.run] at hs
  | cons op t =>
    simp only [Config.run, map_eq_some_iff] at hs
    obtain ⟨r, he, rfl⟩ := hs
    cases op with
    | inIo =>
      cases he
      exact ⟨h.inv.pop fun _ => rfl, h.ios, h.tight⟩
    | flushLoop =>
      exact ⟨h.inv.flushLoop he, h.ios.acts (acts_exec (by simp) he),
        fun hK => (h.tight hK).flushLoop h.inv he⟩
    | flushShift =>
      exact ⟨h.inv.flushShift he, h.ios.acts (acts_exec (by simp) he),
        fun hK => (h.tight hK).flushShift he⟩
    | tail =>
      cases he
      have h' : Good K ⟨s, t⟩ := ⟨h.inv.pop fun _ => rfl, h.ios, h.tight⟩
      exact h'.tailStep fun hK hk => hok hK t (by rw [hk])

lemma step_good (h : Good K c) (hok : K → ConnectedOk c i) (hs : step c i = some c') :
    Good K c' := by
  obtain ⟨s, t⟩ := c
  cases i with
  | read l =>
    obtain ⟨-, hi, rfl⟩ := of_guards hs
    obtain ⟨hc, hb⟩ := h.inv.of_io hi
    cases l
    · exact h.relayBrokerRead hc
    · exact h.relayLocalRead hc (hb rfl)
  | eof =>
    obtain ⟨-, hi, rfl⟩ := of_guards hs
    exact h.relayEof (h.inv.of_io hi).2
  | error | close =>
    obtain ⟨-, rfl⟩ := of_guard hs
    exact h.close
  | low =>
    obtain ⟨-, hi, rfl⟩ := of_guards hs
    exact h.relayLow (h.inv.of_io hi).2
  | connect =>
    simp only [step, and_eq_true, decide_eq_true_eq, not_eq_true', ite_none_right_eq_some] at hs
    obtain ⟨⟨rfl, hu⟩, hs⟩ := hs
    cases hs
    exact h.localConnected hu
  | connectTimer =>
    obtain ⟨-, rfl⟩ := of_guard hs
    unfold localConnectTimeout
    split_ifs
    · exact h
    · exact h.close
  | run ans => exact run_good h (fun hK t => hok hK ans t rfl) hs
  | drain =>
    cases hs
    exact h.upd (fun x => by simp) fun x => by simp

lemma good_init (h : Init c) : Good K c := by
  obtain ⟨s, t⟩ := c
  obtain ⟨rfl, lo, rfl⟩ := h
  refine ⟨⟨fun m => ?_, by simp [bindOk], fun m => ?_, fun m => ?_,
    fun _ => ⟨rfl, rfl, rfl, fun m => ?_⟩, by simp [bindOk]⟩, by simp [Ios, bindOk], fun _ => ?_⟩
  · cases m <;> simp [bindOk, Stream.side, pipe, Pipe.Ok, Leg.other, Stream.queue]
  · cases m <;> simp [bindOk, Stream.side]
  · cases m <;> simp [bindOk, Stream.side]
  · cases m <;> simp [bindOk, Stream.side]
  · constructor <;> simp [bindOk]

lemma trace_good (h : Trace step Init tr c) (hok : ∀ p ∈ tr, ConnectedOk p.1 p.2) : Good True c :=
  h.inv_of_ok (fun _ => good_init) (fun _ _ _ hc ho => step_good hc fun _ => ho) hok

lemma cut_of_not_connectedOk (hok : ¬ ConnectedOk c i) (hs : step c i = some c') :
    ∃ k ∈ c'.s.b.cuts, k.queue ≠ [] := by
  simp only [ConnectedOk, not_forall] at hok
  obtain ⟨ans, t, rfl, ht, he, hio, hq⟩ := hok
  obtain ⟨s, t'⟩ := c
  obtain rfl : t' = .tail .connectedEof :: t := ht
  have he' : s.a.eof = true := he
  have hio' : (s.side .b).io ≠ none := hio
  simp only [step, Config.run, exec, tail, he', if_true, tmIoShutdownSend, hio', if_false,
    map_some, some.injEq] at hs
  subst hs
  exact ⟨_, mem_cons_self, hq⟩

/-- In every run in which the last part of `local_connected` never finds the broker leg ended and
bytes of it still queued, the local leg is half-closed only with every byte received accepted. A
step that breaks the rule half-closes it with bytes still queued. -/
theorem agent_no_truncated_tail (h : Trace step Init tr c) : ((∀ p ∈ tr, ConnectedOk p.1 p.2) →
      (∀ k ∈ c.s.b.cuts, k.queue = [] ∧ (c.s.b.lost = false → k.acc = k.rd)) ∧
      (c.s.closing = false → c.s.b.lost = false → c.s.b.shut = true → c.s.b.acc = c.s.a.rd)) ∧
    ∀ i c', ¬ ConnectedOk c i → step c i = some c' → ∃ k ∈ c'.s.b.cuts, k.queue ≠ [] := by
  refine ⟨fun hok => ?_, fun i c' => cut_of_not_connectedOk⟩
  obtain ⟨hi, -, ht⟩ := trace_good h hok
  replace ht := ht trivial
  refine ⟨fun k hk => ⟨ht.cuts k hk, fun hl => ht.full hl k hk⟩, fun hc hl hs => ?_⟩
  have hq := ht.sealed hc hl hs
  have hok := hi.pipes .b
  have hsl : (pipe .b c).slice = 0 := by
    have := hok.2.1
    simpa [pipe, hq] using this
  have := hok.acc_append_queue (by simp [pipe, hc, Stream.side, hl]) hsl
  simpa [pipe, hq, Stream.side, Leg.other] using this

theorem agent_no_truncated_tail_small : ∃ tr c, Trace step Init tr c ∧
    (c.s.b.cuts ≠ [] ∧ c.s.b.shut = true) ∧ c.s.b.acc = c.s.a.rd := by
  obtain ⟨tr, c, h, hok, hc, hl, hs, hcuts⟩ := exists_trace step Init (s := ⟨bindOk [], []⟩)
    ⟨rfl, [], rfl⟩ [.read .a [1, 2, 3] .ok, .eof .a, .connect true, .run .ok, .run .ok, .run .ok,
      .run .ok, .run .ok, .run .ok]
    (fun r => (∀ p ∈ r.1, p.1.todo.head? = some (.tail .connectedEof) → p.1.s.queue .b = []) ∧
      r.2.s.closing = false ∧ r.2.s.b.lost = false ∧ r.2.s.b.shut = true ∧ r.2.s.b.cuts ≠ [])
    (by decide)
  refine ⟨tr, c, h, ⟨hcuts, hs⟩,
    ((agent_no_truncated_tail h).1 fun p hp ans t _ ht _ _ => ?_).2 hc hl hs⟩
  exact hok p hp (by simp [ht])

def halfway (d p q : Bytes) (flushing paused : Bool) : Stream :=
  { a := { io := some (.ssl 0), eof := true, paused := paused, rd := d }
    b := { io := some .tcp, pend := p, flushing := flushing, drained := q.isEmpty, acc := q }
    bound := true
    upBytes := d.length }

lemma exists_cut_of_busy {d : Bytes} (hearly : d.length < tmIoHighWater)
    (hlen : flushMax < d.length) : ∃ tr c,
    replay step ⟨bindOk [], []⟩ [.read .a d .ok, .eof .a, .connect true, .run .ok, .run .ok,
      .run .ok, .run .busy, .run .ok, .run .ok] [] = some (tr, c) ∧
    Trace step Init tr c ∧ ∃ k ∈ c.s.b.cuts, k.queue ≠ [] := by
  have hne : d ≠ [] := ne_nil_of_length_pos (by omega)
  have hdrop : d.drop flushMax ≠ [] := by
    apply ne_nil_of_length_pos
    rw [length_drop]
    omega
  have hread : step ⟨bindOk [], []⟩ (.read .a d .ok)
      = some ⟨{ bindOk d with upBytes := d.length }, []⟩ := by
    have hm : ¬ earlyMax < d.length := by
      have : tmIoHighWater ≤ earlyMax := Nat.le_add_right _ _
      omega
    have hh : ¬ tmIoHighWater ≤ d.length := by omega
    simp [step, Config.open, Config.push, relayRead, relayBrokerRead, queueEarly, Stream.noteRead,
      Stream.upd, Stream.side, bindOk, hm, hh]
  have heof : step ⟨{ bindOk d with upBytes := d.length }, []⟩ (.eof .a) = some
      ⟨({ bindOk d with upBytes := d.length } : Stream).upd (fun x => { x with eof := true }) .a,
        []⟩ := rfl
  have hconnect : step ⟨({ bindOk d with upBytes := d.length } : Stream).upd
        (fun x => { x with eof := true }) .a, []⟩ (.connect true)
      = some ⟨halfway d d [] true false, [.flushLoop .b, .tail .connected]⟩ := rfl
  have hslice : step ⟨halfway d d [] true false, [.flushLoop .b, .tail .connected]⟩ (.run .ok)
      = some ⟨halfway d d (d.take flushMax) true false,
          [.inIo, .flushShift .b flushMax, .tail .connected]⟩ := by
    have hmin : min d.length flushMax = flushMax := by omega
    have ht : (d.take flushMax).isEmpty = false := by
      simp [hne, flushMax]
    simp [step, Config.run, exec, halfway, Stream.side, Stream.upd, tmIoWrite, hne, hmin, ht]
  have hret : step ⟨halfway d d (d.take flushMax) true false,
        [.inIo, .flushShift .b flushMax, .tail .connected]⟩ (.run .ok)
      = some ⟨halfway d d (d.take flushMax) true false,
          [.flushShift .b flushMax, .tail .connected]⟩ := rfl
  have hshift : step ⟨halfway d d (d.take flushMax) true false,
        [.flushShift .b flushMax, .tail .connected]⟩ (.run .ok)
      = some ⟨halfway d (d.drop flushMax) (d.take flushMax) true false,
          [.flushLoop .b, .tail .connected]⟩ := rfl
  have hbusy : step ⟨halfway d (d.drop flushMax) (d.take flushMax) true false,
        [.flushLoop .b, .tail .connected]⟩ (.run .busy)
      = some ⟨halfway d (d.drop flushMax) (d.take flushMax) false false, [.tail .connected]⟩ := by
    simp only [step, Config.run, exec, halfway, Stream.side, hdrop, if_false, tmIoWrite, Stream.upd]
    rfl
  have hpause : step ⟨halfway d (d.drop flushMax) (d.take flushMax) false false, [.tail .connected]⟩
        (.run .ok)
      = some ⟨halfway d (d.drop flushMax) (d.take flushMax) false true, [.tail .connectedEof]⟩ := by
    simp only [step, Config.run, exec, halfway, tail, hdrop, ne_eq, not_false_eq_true, if_true,
      Stream.upd, map_some]
    rfl
  have hcut : step ⟨halfway d (d.drop flushMax) (d.take flushMax) false true, [.tail .connectedEof]⟩
        (.run .ok)
      = some ⟨(tmIoShutdownSend .b (halfway d (d.drop flushMax) (d.take flushMax) false true)
          : _ × List (Op Tail)).1, [.inIo, .tail .connectedClose]⟩ := rfl
  refine exists_replay step Init ⟨rfl, [], rfl⟩ _ (fun r => ∃ k ∈ r.2.s.b.cuts, k.queue ≠ []) ?_
  rw [replay_cons hread, replay_cons heof, replay_cons hconnect, replay_cons hslice,
    replay_cons hret, replay_cons hshift, replay_cons hbusy, replay_cons hpause, replay_cons hcut]
  refine decide_eq_true ⟨_, mem_cons_self, ?_⟩
  simpa [Stream.queue, halfway, Stream.side] using hdrop

/-- With 65537 bytes the last one is still queued when the half-close is requested. -/
theorem agent_truncated_tail : ∃ tr c,
    replay step ⟨bindOk [], []⟩ [.read .a (replicate 65537 0) .ok, .eof .a, .connect true,
      .run .ok, .run .ok, .run .ok, .run .busy, .run .ok, .run .ok] [] = some (tr, c) ∧
    Trace step Init tr c ∧ ∃ k ∈ c.s.b.cuts, k.queue ≠ [] := by
  apply exists_cut_of_busy
  · rw [length_replicate]
    decide
  · rw [length_replicate]
    decide

end Runs

end TunnelMate.AgentRelay
