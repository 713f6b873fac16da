import TunnelMate.Duplex
import TunnelMate.Lib.Pipe

/-!
# A relay's queues lose, double and reorder nothing

Each direction of a stream is a `Pipe`: into leg `l` go the bytes read from the other leg, and
they wait in `pend` (into leg B also in `preq`, before that leg is there).
-/

namespace TunnelMate.Duplex

open Bool hiding not_not not_or
open List Leg Duplex.Stream Op

variable {τ : Type} {s : Stream} {t : List (Op τ)} {l m : Leg} {f : Side → Side}

@[simp] lemma Leg.other_other : l.other.other = l := by cases l <;> rfl

@[simp] lemma Leg.other_ne : l.other ≠ l := by cases l <;> simp [other]

lemma Leg.eq_or_other (l m : Leg) : m = l ∨ m = l.other := by
  cases l <;> cases m <;> simp [other]

namespace Stream

@[simp] lemma side_upd : (s.upd f l).side l = f (s.side l) := by cases l <;> rfl

@[simp] lemma side_upd_other : (s.upd f l).side l.other = s.side l.other := by cases l <;> rfl

@[simp] lemma side_upd_other' : (s.upd f l.other).side l = s.side l := by cases l <;> rfl

@[simp] lemma closing_upd : (s.upd f l).closing = s.closing := by cases l <;> rfl

@[simp] lemma bound_upd : (s.upd f l).bound = s.bound := by cases l <;> rfl

@[simp] lemma preq_upd : (s.upd f l).preq = s.preq := by cases l <;> rfl

end Stream

def Op.isFrame (l : Leg) : Op τ → Bool
  | .flushLoop m => m = l
  | .flushShift m _ => m = l
  | _ => false

def transit (l : Leg) : List (Op τ) → ℕ
  | [] => 0
  | .flushShift m n :: t => if m = l then n else transit l t
  | _ :: t => transit l t

def pipe (l : Leg) (c : Config τ) : Pipe UInt8 where
  rd := (c.s.side l.other).rd
  acc := (c.s.side l).acc
  queue := c.s.queue l
  slice := transit l c.todo
  live := !c.s.closing && !(c.s.side l).lost

structure Inv (c : Config τ) : Prop where
  pipes : ∀ l, (pipe l c).Ok
  closed : c.s.closing = true → ∀ l, (c.s.side l).io = none
  refused : ∀ l, (c.s.side l).lost = true → (c.s.side l).shut = true
  stack : ∀ l, c.todo.countP (isFrame l) = (c.s.side l).flushing.toNat
  /-- Before the agent leg is there nothing goes to either leg. -/
  unbound : c.s.bound = false → c.s.b.io = none ∧ c.s.b.eof = false ∧ c.s.b.flushing = false
    ∧ ∀ l, (c.s.side l).pend = [] ∧ (c.s.side l).lost = false
  /-- Afterwards nothing waits in `preq`, and a missing agent leg has ended. -/
  bound : c.s.bound = true → c.s.preq = [] ∧
    (c.s.closing = false → c.s.b.io = none → c.s.b.eof = true)

section Stack

@[simp] lemma transit_nil : transit l ([] : List (Op τ)) = 0 := rfl

lemma transit_of_not_frame : ∀ t : List (Op τ), t.countP (isFrame l) = 0 → transit l t = 0
  | [], _ => rfl
  | op :: t, h => by
    simp only [countP_cons] at h
    have ih := transit_of_not_frame t (by omega)
    cases op <;> simp_all [transit, isFrame]

lemma transit_append : ∀ ops : List (Op τ), ops.countP (isFrame l) = 0 →
    transit l (ops ++ t) = transit l t
  | [], _ => rfl
  | op :: ops, h => by
    simp only [countP_cons] at h
    have ih := transit_append ops (by omega)
    cases op <;> simp_all [transit, isFrame]

end Stack

variable {s' : Stream} {t' : List (Op τ)} {op : Op τ}

section Primitives

structure Agree (s s' : Stream) : Prop where
  closing : s'.closing = s.closing
  bound : s'.bound = s.bound
  preq : s'.preq = s.preq
  eof : s'.b.eof = s.b.eof ∨ s.bound = true ∧ s'.b.eof = true
  io : ∀ l, (s'.side l).io = (s.side l).io
  pend : ∀ l, (s'.side l).pend = (s.side l).pend
  rd : ∀ l, (s'.side l).rd = (s.side l).rd
  acc : ∀ l, (s'.side l).acc = (s.side l).acc
  lost : ∀ l, (s'.side l).lost = (s.side l).lost
  shut : ∀ l, (s.side l).shut = true → (s'.side l).shut = true

lemma Agree.refl (s : Stream) : Agree s s :=
  ⟨rfl, rfl, rfl, .inl rfl, fun _ => rfl, fun _ => rfl, fun _ => rfl, fun _ => rfl, fun _ => rfl,
    fun _ => id⟩

lemma Inv.congr (h : Inv ⟨s, t⟩) (ha : Agree s s') (ht : ∀ l, transit l t' = transit l t)
    (hst : ∀ l, t'.countP (isFrame l) = (s'.side l).flushing.toNat)
    (hfl : s.bound = false → s'.b.flushing = false) : Inv ⟨s', t'⟩ := by
  have hp : ∀ l, pipe l ⟨s', t'⟩ = pipe l ⟨s, t⟩ := fun l => by
    simp only [pipe, queue, ha.rd, ha.acc, ha.pend, ha.preq, ha.closing, ha.lost, ht]
  have hib : s'.b.io = s.b.io := ha.io .b
  refine ⟨fun l => hp l ▸ h.pipes l, fun hc l => ?_, fun l hl => ?_, hst, fun hb => ?_,
    fun hb => ?_⟩
  · exact (ha.io l).trans (h.closed (ha.closing ▸ hc) l)
  · exact ha.shut l (h.refused l ((ha.lost l).symm.trans hl))
  · have hb' : s.bound = false := ha.bound ▸ hb
    obtain ⟨h1, h2, -, h3⟩ := h.unbound hb'
    refine ⟨hib.trans h1, ?_, hfl hb',
      fun l => ⟨(ha.pend l).trans (h3 l).1, (ha.lost l).trans (h3 l).2⟩⟩
    rcases ha.eof with he | he
    · exact he.trans h2
    · simp [hb'] at he
  · obtain ⟨h1, h2⟩ := h.bound (ha.bound ▸ hb)
    refine ⟨ha.preq.trans h1, fun hc hi => ?_⟩
    rcases ha.eof with he | he
    · exact he.trans (h2 (ha.closing ▸ hc) (hib ▸ hi))
    · exact he.2

def Quiet (f : Side → Side) : Prop :=
  ∀ x, (f x).io = x.io ∧ (f x).eof = x.eof ∧ (f x).pend = x.pend ∧ (f x).rd = x.rd
    ∧ (f x).acc = x.acc ∧ (f x).lost = x.lost ∧ (x.shut = true → (f x).shut = true)

lemma agree_upd (hf : Quiet f) : Agree s (s.upd f l) := by
  refine ⟨by simp, by simp, by simp, .inl ?_, ?_, ?_, ?_, ?_, ?_, fun m => ?_⟩
  · cases l <;> simp [upd, (hf _).2.1]
  case refine_7 =>
    rcases eq_or_other l m with rfl | rfl
    · simpa using (hf _).2.2.2.2.2.2
    · simp
  all_goals
    intro m
    rcases eq_or_other l m with rfl | rfl
    · simp [hf _]
    · simp

lemma Inv.upd (h : Inv ⟨s, t⟩) (hf : Quiet f) (hfl : ∀ x, (f x).flushing = x.flushing) :
    Inv ⟨s.upd f l, t⟩ := by
  refine h.congr (agree_upd hf) (fun _ => rfl) (fun m => ?_) fun hb => ?_
  · rcases eq_or_other l m with rfl | rfl
    · simpa [hfl] using h.stack _
    · simpa using h.stack _
  · have := (h.unbound hb).2.2.1
    cases l <;> simpa [upd, hfl] using this

lemma Inv.push (h : Inv ⟨s, t⟩) (op : Op τ) (hop : ∀ l, op.isFrame l = false) : Inv ⟨s, op :: t⟩ :=
  h.congr (.refl s) (fun l => transit_append [op] (by simp [hop l]))
    (fun l => by simpa [countP_cons, hop l] using h.stack l) fun hb => (h.unbound hb).2.2.1

lemma Inv.pop (h : Inv ⟨s, op :: t⟩) (hop : ∀ l, op.isFrame l = false) : Inv ⟨s, t⟩ :=
  h.congr (.refl s) (fun l => (transit_append [op] (by simp [hop l])).symm)
    (fun l => by simpa [countP_cons, hop l] using h.stack l) fun hb => (h.unbound hb).2.2.1

@[simp] lemma bound_close : (tmStreamClose s).bound = s.bound := by
  unfold tmStreamClose
  split_ifs <;> rfl

@[simp] lemma preq_close : (tmStreamClose s).preq = s.preq := by
  unfold tmStreamClose
  split_ifs <;> rfl

@[simp] lemma closing_close : (tmStreamClose s).closing = true := by
  unfold tmStreamClose
  split_ifs with h
  · exact h
  · rfl

lemma side_close (hc : s.closing = false) (l : Leg) :
    (tmStreamClose s).side l = { s.side l with io := none } := by
  simp only [tmStreamClose, hc, false_eq_true, if_false]
  cases l <;> rfl

section

variable (h : Inv ⟨s, t⟩)
include h

lemma Inv.closeAfter (hc : s'.closing = false)
    (hb : s'.bound = s.bound) (hp : s'.preq = s.preq) (he : s'.b.eof = s.b.eof)
    (hside : ∀ m, (s'.side m).pend = (s.side m).pend ∧ (s'.side m).acc = (s.side m).acc
      ∧ (s'.side m).flushing = (s.side m).flushing)
    (hrd : ∀ m, ∃ d, (s'.side m).rd = (s.side m).rd ++ d)
    (href : ∀ m, (s'.side m).lost = true → (s'.side m).shut = true)
    (hun : s.bound = false → ∀ m, (s'.side m).lost = false) : Inv ⟨tmStreamClose s', t⟩ := by
  have hsd := side_close hc
  have hb' : (tmStreamClose s').b = { s'.b with io := none } := hsd .b
  refine ⟨fun m => ?_, fun _ m => by rw [hsd], fun m => by simpa [hsd] using href m,
    fun m => by simpa [hsd, hside] using h.stack m, fun hu => ?_, fun hu => ⟨?_, by simp⟩⟩
  · obtain ⟨d, hd⟩ := hrd m.other
    have hst := Pipe.Step.fail (p := pipe m ⟨s, t⟩) d (s.queue m) (h.pipes m).2.1
    have : pipe m ⟨tmStreamClose s', t⟩ =
        { pipe m ⟨s, t⟩ with rd := (s.side m.other).rd ++ d, live := false } := by
      simp [pipe, queue, hsd, hside, hd, hp]
    rw [this]
    exact hst.ok (h.pipes m)
  · have hu' : s.bound = false := by simpa [hb] using hu
    obtain ⟨-, h2, h3, h4⟩ := h.unbound hu'
    have hfl : s'.b.flushing = s.b.flushing := (hside .b).2.2
    refine ⟨by rw [hb'], by simpa [hb', he] using h2, by simpa [hb', hfl] using h3, fun m => ?_⟩
    simpa [hsd, hside, hun hu' m] using (h4 m).1
  · simpa [hp] using (h.bound (by simpa [hb] using hu)).1

lemma Inv.close : Inv ⟨tmStreamClose s, t⟩ := by
  by_cases hc : s.closing = true
  · simpa [tmStreamClose, hc] using h
  · exact h.closeAfter (by simpa using hc) rfl rfl rfl (fun _ => ⟨rfl, rfl, rfl⟩)
      (fun _ => ⟨[], by simp⟩) h.refused fun hb m => ((h.unbound hb).2.2.2 m).2

lemma Inv.maybeClose : Inv ⟨streamMaybeClose s, t⟩ := by
  unfold streamMaybeClose
  split_ifs
  all_goals first | exact h | exact h.close

lemma Inv.flushPend (l : Leg) (hb : l = .b → s.bound = true) :
    Inv ⟨(flushPend l s : _ × List (Op τ)).1, (flushPend l s).2 ++ t⟩ := by
  unfold Duplex.flushPend
  split_ifs with hf
  · exact h
  have hf' : (s.side l).flushing = false := by simpa using hf
  simp only [singleton_append]
  refine h.congr (agree_upd fun x => by simp) (fun m => rfl) (fun m => ?_) fun hu => ?_
  · rcases eq_or_other l m with rfl | rfl
    · simpa [countP_cons, isFrame, hf'] using h.stack m
    · simpa [countP_cons, isFrame, other_ne.symm] using h.stack l.other
  · cases l
    · exact (h.unbound hu).2.2.1
    · simp [hu] at hb

omit h in
lemma Inv.flushDone (h : Inv ⟨s, .flushLoop l :: t⟩) :
    Inv ⟨s.upd (fun x => { x with flushing := false }) l, t⟩ := by
  have hs := h.stack l
  simp only [countP_cons, isFrame, decide_true, if_true] at hs
  have h0 : t.countP (isFrame l) = 0 := by
    have := toNat_le (s.side l).flushing
    omega
  refine h.congr (agree_upd fun x => by simp) (fun m => rfl) (fun m => ?_) fun hu => ?_
  · rcases eq_or_other l m with rfl | rfl
    · simpa using h0
    · have := h.stack l.other
      simpa [countP_cons, isFrame, other_ne.symm] using this
  · have : s.b.flushing = false := (h.unbound hu).2.2.1
    cases l <;> simp [Stream.upd, this]

lemma Inv.shutdownSend (l : Leg) :
    Inv ⟨(tmIoShutdownSend l s : _ × List (Op τ)).1, (tmIoShutdownSend l s).2 ++ t⟩ := by
  unfold tmIoShutdownSend
  split_ifs
  · exact h
  · dsimp only
    refine .push ?_ .inIo fun _ => rfl
    exact h.upd (fun x => by simp) fun _ => rfl

lemma Inv.resumeRead (l : Leg) :
    Inv ⟨(tmIoResumeRead l s : _ × List (Op τ)).1, (tmIoResumeRead l s).2 ++ t⟩ := by
  unfold tmIoResumeRead
  split_ifs
  · exact h
  · exact h.push _ fun _ => rfl

end

end Primitives

section Reads

variable {s₁ : Stream} {d : Bytes} {ans : Ans}

structure Read (l : Leg) (d : Bytes) (s s₁ : Stream) : Prop where
  closing : s₁.closing = s.closing
  bound : s₁.bound = s.bound
  preq : s₁.preq = s.preq
  other : s₁.side l.other = s.side l.other
  side : s₁.side l = { s.side l with rd := (s.side l).rd ++ d }

lemma Read.note (l : Leg) (d : Bytes) (s : Stream) : Read l d s (s.noteRead l d) :=
  ⟨by simp [noteRead], by simp [noteRead], by simp [noteRead],
    by simp [noteRead], by simp [noteRead]⟩

lemma Read.io (h : Read l d s s₁) (m : Leg) : (s₁.side m).io = (s.side m).io := by
  rcases eq_or_other l m with rfl | rfl
  · rw [h.side]
  · rw [h.other]

lemma Inv.read (h : Inv ⟨s, t⟩) (hst : Pipe.Step (pipe l.other ⟨s, t⟩) (pipe l.other ⟨s', t'⟩))
    (hpipe : pipe l ⟨s', t'⟩ = pipe l ⟨s, t⟩)
    (hc : s'.closing = s.closing) (hb : s'.bound = s.bound) (he : s'.b.eof = s.b.eof)
    (hio : ∀ m, (s'.side m).io = (s.side m).io)
    (href : ∀ m, (s'.side m).lost = true → (s'.side m).shut = true)
    (hstk : ∀ m, t'.countP (isFrame m) = (s'.side m).flushing.toNat)
    (hun : s.bound = false → s'.b.flushing = false
      ∧ ∀ m, (s'.side m).pend = [] ∧ (s'.side m).lost = false)
    (hbd : s.bound = true → s'.preq = []) : Inv ⟨s', t'⟩ := by
  have hib : s'.b.io = s.b.io := hio .b
  refine ⟨fun m => ?_, fun h' m => ?_, href, hstk, fun h' => ?_, fun h' => ⟨hbd (hb ▸ h'), ?_⟩⟩
  · rcases eq_or_other l m with rfl | rfl
    · rw [hpipe]
      exact h.pipes m
    · exact hst.ok (h.pipes _)
  · exact (hio m).trans (h.closed (hc ▸ h') m)
  · obtain ⟨h1, h2, -⟩ := h.unbound (hb ▸ h')
    exact ⟨hib.trans h1, he.trans h2, hun (hb ▸ h')⟩
  · intro hc' hi
    exact he.trans ((h.bound (hb ▸ h')).2 (hc ▸ hc') (hib ▸ hi))

lemma Read.eof (h : Read l d s s₁) : s₁.b.eof = s.b.eof := by
  cases l
  · exact congrArg Side.eof h.other
  · exact (congrArg Side.eof h.side :)

lemma Inv.closeRead (h : Inv ⟨s, t⟩) (hr : Read l d s s₁) (hc : s.closing = false) :
    Inv ⟨tmStreamClose s₁, t⟩ := by
  refine h.closeAfter (hr.closing.trans hc) hr.bound hr.preq hr.eof (fun m => ?_) (fun m => ?_)
    (fun m => ?_) fun hb m => ?_
  all_goals rcases eq_or_other l m with rfl | rfl
  · simp [hr.side]
  · simp [hr.other]
  · exact ⟨d, by simp [hr.side]⟩
  · exact ⟨[], by simp [hr.other]⟩
  · simpa [hr.side] using h.refused m
  · simpa [hr.other] using h.refused l.other
  · simpa [hr.side] using ((h.unbound hb).2.2.2 m).2
  · simpa [hr.other] using ((h.unbound hb).2.2.2 l.other).2

lemma Inv.chunk {p : Bool} {x : Side} (h : Inv ⟨s, t⟩)
    (hr : Read l d s s₁) (hb : s.bound = true) (hc : s'.closing = s₁.closing)
    (hbd : s'.bound = s₁.bound) (hp : s'.preq = s₁.preq)
    (hside : s'.side l = { s₁.side l with paused := p }) (hoth : s'.side l.other = x)
    (hst : Pipe.Step (pipe l.other ⟨s, t⟩) ⟨(s.side l).rd ++ d, x.acc, x.pend, transit l.other t',
      !s.closing && !x.lost⟩)
    (hx : x.io = (s.side l.other).io ∧ x.eof = (s.side l.other).eof
      ∧ x.flushing = (s.side l.other).flushing ∧ x.rd = (s.side l.other).rd
      ∧ (x.lost = true → x.shut = true))
    (ht : transit l t' = transit l t)
    (hn : ∀ m, t'.countP (isFrame m) = t.countP (isFrame m)) : Inv ⟨s', t'⟩ := by
  have hpq : s.preq = [] := (h.bound hb).1
  have hpq' : s'.preq = [] := by rw [hp, hr.preq, hpq]
  have hside' : s'.side l = { s.side l with rd := (s.side l).rd ++ d, paused := p } := by
    rw [hside, hr.side]
  obtain ⟨hx1, hx2, hx3, hx4, hx5⟩ := hx
  have hc' : s'.closing = s.closing := hc.trans hr.closing
  refine h.read (l := l) ?_ ?_ hc' (hbd.trans hr.bound) ?_ (fun m => ?_) (fun m => ?_) (fun m => ?_)
    (fun hu => by simp [hb] at hu) fun _ => hpq'
  · simpa only [pipe, queue, hside', hoth, hpq', ite_self, append_nil, other_other, hc'] using hst
  · simp only [pipe, queue, hside', hoth, hpq', hpq, hx4, ht, hc']
  · cases l
    · exact (congrArg Side.eof hoth).trans hx2
    · exact (congrArg Side.eof hside' :)
  all_goals rcases eq_or_other l m with rfl | rfl
  · rw [hside']
  · rw [hoth, hx1]
  · simpa only [hside'] using h.refused m
  · simpa only [hoth] using hx5
  · rw [hn, hside']
    exact h.stack m
  · rw [hn, hoth, hx3]
    exact h.stack l.other

lemma Inv.queueBehind (h : Inv ⟨s, t⟩) (hr : Read l d s s₁) (hb : s.bound = true) :
    Inv ⟨queueBehind l d s₁, t⟩ := by
  have hpq : s.preq = [] := (h.bound hb).1
  refine h.chunk hr hb (p := true) (x := { s.side l.other with pend := (s.side l.other).pend ++ d })
    (by simp [Duplex.queueBehind]) (by simp [Duplex.queueBehind]) (by simp [Duplex.queueBehind])
    (by simp [Duplex.queueBehind]) (by simp [Duplex.queueBehind, hr.other]) ?_
    ⟨rfl, rfl, rfl, rfl, h.refused l.other⟩ rfl fun _ => rfl
  simpa [pipe, queue, hpq] using Pipe.Step.enqueue (p := pipe l.other ⟨s, t⟩) d

lemma tmIoWrite_cases (l : Leg) (d : Bytes) (ans : Ans) (s : Stream) :
    ((s.side l).io ≠ none ∧ (s.side l).shut = false ∧ tmIoWrite l d ans s =
        (.ok, s.upd (fun x => { x with acc := x.acc ++ d, drained := false }) l))
      ∨ ((s.side l).io ≠ none ∧ (s.side l).shut = false ∧ tmIoWrite l d ans s = (.busy, s))
      ∨ tmIoWrite l d ans s = (.err, s.upd (fun x => { x with shut := true, lost := true }) l) := by
  unfold tmIoWrite
  split_ifs with h
  · exact .inr (.inr rfl)
  · simp only [not_or, not_eq_true] at h
    cases ans
    exacts [.inl ⟨h.1, h.2, rfl⟩, .inr (.inl ⟨h.1, h.2, rfl⟩), .inr (.inr rfl)]

section

variable (h : Inv ⟨s, t⟩)
include h

lemma Inv.live (hs : (s.side l).shut = false) : (s.side l).lost = false := by
  cases hl : (s.side l).lost
  · rfl
  · exact absurd (h.refused l hl) (by simp [hs])

lemma Inv.relayWrite (hr : Read l d s s₁) (hc : s.closing = false) (hb : s.bound = true) :
    Inv ⟨(relayWrite l d ans s₁ : _ × List (Op τ)).1, (relayWrite l d ans s₁).2 ++ t⟩ := by
  have hpq : s.preq = [] := (h.bound hb).1
  unfold Duplex.relayWrite
  split_ifs with hp
  · exact h.queueBehind hr hb
  simp only [not_not, hr.other] at hp
  obtain ⟨-, hs, hw⟩ | ⟨-, -, hw⟩ | hw := tmIoWrite_cases l.other d ans s₁
  · rw [hw, singleton_append]
    rw [hr.other] at hs
    have hlive := h.live hs
    have h' : Inv
        ⟨s₁.upd (fun x => { x with acc := x.acc ++ d, drained := false }) l.other, t⟩ := by
      refine h.chunk hr hb (p := (s₁.side l).paused)
        (x := { s.side l.other with acc := (s.side l.other).acc ++ d, drained := false })
        (by simp) (by simp) (by simp) (by simp) (by simp [hr.other]) ?_
        ⟨rfl, rfl, rfl, rfl, h.refused l.other⟩ rfl fun _ => rfl
      have hst := Pipe.Step.pass (p := pipe l.other ⟨s, t⟩) d (by simp [pipe, hc, hlive])
        (by simp [pipe, queue, hp, hpq])
      simpa [pipe, queue, hpq] using hst
    exact h'.push _ fun _ => rfl
  · rw [hw]
    exact h.queueBehind hr hb
  · rw [hw]
    refine h.closeAfter (by simp [hr.closing, hc]) (by simp [hr.bound]) (by simp [hr.preq]) ?_
      (fun m => ?_) (fun m => ?_) (fun m => ?_) fun hu => by simp [hb] at hu
    · rw [← hr.eof]
      cases l <;> rfl
    all_goals rcases eq_or_other l m with rfl | rfl
    · simp [hr.side]
    · simp [hr.other]
    · exact ⟨d, by simp [hr.side]⟩
    · exact ⟨[], by simp [hr.other]⟩
    · simpa [hr.side] using h.refused m
    · simp

lemma Inv.queuePre {p : Bool} (hr : Read .a d s s₁) (hb : s.bound = false) :
    Inv ⟨{ s₁ with preq := s₁.preq ++ d, a := { s₁.a with paused := p } }, t⟩ := by
  obtain ⟨-, -, hfl, hu⟩ := h.unbound hb
  have ha : s₁.a = { s.a with rd := s.a.rd ++ d } := hr.side
  have hb' : s₁.b = s.b := hr.other
  have hu' : s.a.pend = [] ∧ s.b.pend = [] ∧ s.a.lost = false ∧ s.b.lost = false :=
    ⟨(hu .a).1, (hu .b).1, (hu .a).2, (hu .b).2⟩
  refine h.read (l := .a) ?_ ?_ hr.closing hr.bound (by rw [hb']) (fun m => ?_) (fun m => ?_)
    (fun m => ?_) (fun _ => ⟨by simpa [hb'] using hfl, fun m => ?_⟩) fun hu => by simp [hb] at hu
  · have hst := Pipe.Step.enqueue (p := pipe .b ⟨s, t⟩) d
    simpa [pipe, queue, side, other, ha, hb', hr.preq, hr.closing] using hst
  · simp [pipe, queue, side, other, ha, hb', hr.closing]
  all_goals cases m
  · simp [side, ha]
  · simp [side, hb']
  · simpa [side, ha] using h.refused .a
  · simpa [side, hb'] using h.refused .b
  · simpa [side, ha] using h.stack .a
  · simpa [side, hb'] using h.stack .b
  · simp [side, ha, hu']
  · simp [side, hb', hu']

lemma Inv.queueEarly (hr : Read .a d s s₁) (hc : s.closing = false)
    (hb : s.bound = false) : Inv ⟨queueEarly d s₁, t⟩ := by
  unfold Duplex.queueEarly
  dsimp only
  split_ifs
  · exact h.closeRead hr hc
  · exact h.queuePre hr hb
  · exact h.queuePre (p := s₁.a.paused) hr hb

lemma Inv.isBound (hi : s.b.io ≠ none) : s.bound = true := by
  by_contra hb
  exact hi (h.unbound (by simpa using hb)).1

end

end Reads

section Legs

lemma Inv.ended {o : Option Io} (h : Inv ⟨s, t⟩) (hb : l = .b → s.bound = true)
    (ho : o = (s.side l).io ∨ o = none) :
    Inv ⟨s.upd (fun x => { x with io := o, eof := true }) l, t⟩ := by
  refine ⟨fun m => ?_, fun hc m => ?_, fun m => ?_, fun m => ?_, fun hu => ?_, fun hu => ⟨?_, ?_⟩⟩
  · have : pipe m ⟨s.upd (fun x => { x with io := o, eof := true }) l, t⟩ = pipe m ⟨s, t⟩ := by
      cases l <;> cases m <;> rfl
    rw [this]
    exact h.pipes m
  · have hio : ∀ m, (s.side m).io = none := h.closed (by simpa using hc)
    rcases eq_or_other l m with rfl | rfl
    · rcases ho with rfl | rfl <;> simp [hio]
    · simp [hio]
  · have := h.refused m
    cases l <;> cases m <;> exact this
  · have := h.stack m
    cases l <;> cases m <;> exact this
  · cases l
    · exact ⟨(h.unbound hu).1, (h.unbound hu).2.1, (h.unbound hu).2.2.1, fun m => by
        have := (h.unbound hu).2.2.2 m
        cases m <;> exact this⟩
    · simp [hb rfl] at hu
  · have := (h.bound (by simpa using hu)).1
    simpa using this
  · cases l
    · exact (h.bound hu).2
    · exact fun _ _ => rfl

lemma Inv.bindB (h : Inv (⟨s, []⟩ : Config τ)) (hu : s.bound = false)
    (hc : s.closing = false) (hc' : s'.closing = false) (hb : s'.bound = true) (hp : s'.preq = [])
    (hpa : s'.a.pend = []) (hpb : s'.b.pend = s.preq) (hio : s'.b.io ≠ none)
    (hside : ∀ m, (s'.side m).rd = (s.side m).rd ∧ (s'.side m).acc = (s.side m).acc
      ∧ (s'.side m).lost = (s.side m).lost ∧ (s'.side m).flushing = (s.side m).flushing) :
    Inv (⟨s', []⟩ : Config τ) := by
  obtain ⟨-, -, -, h4⟩ := h.unbound hu
  have ha4 : s.a.pend = [] := (h4 .a).1
  have hb4 : s.b.pend = [] := (h4 .b).1
  have hlost : ∀ m, (s'.side m).lost = false := fun m => (hside m).2.2.1.trans (h4 m).2
  refine ⟨fun m => ?_, fun h' => by simp [hc'] at h', fun m h' => by simp [hlost] at h',
    fun m => ?_,
    fun h' => by simp [hb] at h', fun _ => ⟨hp, fun _ h' => absurd h' hio⟩⟩
  · have : pipe m (⟨s', []⟩ : Config τ) = pipe m (⟨s, []⟩ : Config τ) := by
      cases m <;> simp [pipe, queue, hside, hc, hc', hp] <;> simp [side, hpa, hpb, ha4, hb4]
    rw [this]
    exact h.pipes m
  · rw [(hside m).2.2.2]
    exact h.stack m

end Legs

section Exec

variable {ans : Ans} {r : Stream × List (Op τ)} {n : ℕ} {tail : τ → Stream → Stream × List (Op τ)}

lemma Inv.stack_tail (h : Inv ⟨s, op :: t⟩) (hop : op.isFrame l = true) :
    t.countP (isFrame l) = 0 ∧ (s.side l).flushing = true := by
  have hs := h.stack l
  simp only [countP_cons, hop, if_true] at hs
  have := toNat_le (s.side l).flushing
  refine ⟨by omega, ?_⟩
  cases hf : (s.side l).flushing
  · simp [hf] at hs
  · rfl

lemma Inv.queue_eq (h : Inv ⟨s, t⟩) (hf : (s.side l).flushing = true) :
    s.queue l = (s.side l).pend := by
  cases l
  · simp [queue]
  · have hb : s.bound = true := by
      by_contra hb
      have : s.b.flushing = false := (h.unbound (by simpa using hb)).2.2.1
      simp [side, this] at hf
    have : s.preq = [] := (h.bound hb).1
    simp [queue, this]

lemma Inv.flushStep {x : Side} (h : Inv ⟨s, op :: t⟩)
    (hop : op.isFrame l = true) (hs : s' = s.upd (fun _ => x) l)
    (hst : Pipe.Step ⟨(s.side l.other).rd, (s.side l).acc, (s.side l).pend, transit l (op :: t),
        !s.closing && !(s.side l).lost⟩
      ⟨(s.side l.other).rd, x.acc, x.pend, transit l t', !s.closing && !x.lost⟩)
    (hx : x.io = (s.side l).io ∧ x.eof = (s.side l).eof ∧ x.rd = (s.side l).rd
      ∧ (x.lost = true → x.shut = true)) (hun : s.bound = false → x.pend = [] ∧ x.lost = false)
    (ht : transit l.other t' = transit l.other t) (hn : t'.countP (isFrame l) = x.flushing.toNat)
    (hno : t'.countP (isFrame l.other) = t.countP (isFrame l.other)) : Inv ⟨s', t'⟩ := by
  obtain ⟨h0, hf⟩ := h.stack_tail hop
  obtain ⟨hx1, hx2, hx3, hx4⟩ := hx
  have hop' : op.isFrame l.other = false := by
    cases op <;> simp_all [isFrame, other_ne.symm]
  have hto : transit l.other (op :: t) = transit l.other t := transit_append [op] (by simp [hop'])
  have hq : s.queue l = (s.side l).pend := h.queue_eq hf
  have hbnd : s.bound = false → l = .a := fun hu => by
    cases l
    · rfl
    · have : s.b.flushing = false := (h.unbound hu).2.2.1
      simp [side, this] at hf
  subst hs
  have hq' : (s.upd (fun _ => x) l).queue l = x.pend := by
    have : s.queue l = (s.side l).pend ++ (if l = .b then s.preq else []) := rfl
    rw [hq] at this
    simpa [queue] using this
  refine .read (l := l.other) h ?_ ?_ (by simp) (by simp) ?_ (fun m => ?_) (fun m => ?_)
    (fun m => ?_) (fun hu => ⟨?_, fun m => ?_⟩) fun hb => ?_
  · simpa [pipe, hq, hq'] using hst
  · simp [pipe, queue, ht, hto, hx3]
  · cases l
    · rfl
    · exact hx2
  · rcases eq_or_other l m with rfl | rfl <;> simp [hx1]
  · rcases eq_or_other l m with rfl | rfl
    · simpa using hx4
    · simpa using h.refused l.other
  · rcases eq_or_other l m with rfl | rfl
    · simpa using hn
    · have := h.stack l.other
      simpa [hno, countP_cons, hop'] using this
  · obtain rfl := hbnd hu
    exact (h.unbound hu).2.2.1
  · rcases eq_or_other l m with rfl | rfl
    · simpa using hun hu
    · simpa using (h.unbound hu).2.2.2 l.other
  · simpa using (h.bound hb).1

lemma Inv.flushLoop (h : Inv ⟨s, .flushLoop l :: t⟩)
    (he : exec tail ans s (.flushLoop l) = some r) : Inv ⟨r.1, r.2 ++ t⟩ := by
  have hop : (.flushLoop l : Op τ).isFrame l = true := by simp [isFrame]
  obtain ⟨h0, hf⟩ := h.stack_tail hop
  have ht0 : transit l (.flushLoop l :: t) = 0 := transit_of_not_frame t h0
  simp only [Duplex.exec] at he
  split_ifs at he with hp hi
  · cases he
    exact h.flushDone
  have hun : s.bound ≠ false := fun hu => hp ((h.unbound hu).2.2.2 l).1
  have hc : s.closing = false := by
    by_contra hc
    exact hi (h.closed (by simpa using hc) l)
  have hle : min (s.side l).pend.length flushMax ≤ (s.side l).pend.length := Nat.min_le_left _ _
  generalize min (s.side l).pend.length flushMax = n at he hle
  obtain ⟨-, hs, hw⟩ | ⟨-, -, hw⟩ | hw := tmIoWrite_cases l ((s.side l).pend.take n) ans s
  · rw [hw] at he
    cases he
    have hlive := h.live hs
    refine .push (t := .flushShift l n :: t) ?_ .inIo fun _ => rfl
    have hn : transit l (.flushShift l n :: t) = n := by simp [transit]
    refine h.flushStep hop (x := { s.side l with
        acc := (s.side l).acc ++ (s.side l).pend.take n, drained := false }) (by cases l <;> rfl) ?_
      ⟨rfl, rfl, rfl, h.refused l⟩ (fun hu => absurd hu hun) ?_ ?_ ?_
    · rw [ht0, hn]
      exact .send (p := ⟨(s.side l.other).rd, (s.side l).acc, (s.side l).pend, 0,
        !s.closing && !(s.side l).lost⟩) n (by simp [hc, hlive]) rfl hle
    · simp [transit, other_ne.symm]
    · simp [isFrame, h0, hf]
    · simp [isFrame, other_ne.symm]
  · rw [hw] at he
    cases he
    exact h.flushDone
  · rw [hw] at he
    cases he
    refine h.flushStep hop (x := { s.side l with
        shut := true, lost := true, pend := [], flushing := false }) (by cases l <;> rfl) ?_
      ⟨rfl, rfl, rfl, fun _ => rfl⟩ (fun hu => absurd hu hun) rfl h0 rfl
    rw [ht0, nil_append, transit_of_not_frame t h0]
    simpa using Pipe.Step.fail (p := ⟨(s.side l.other).rd, (s.side l).acc, (s.side l).pend, 0,
      !s.closing && !(s.side l).lost⟩) [] [] (Nat.zero_le _)

lemma Inv.flushShift (h : Inv ⟨s, .flushShift l n :: t⟩)
    (he : exec tail ans s (.flushShift l n) = some r) : Inv ⟨r.1, r.2 ++ t⟩ := by
  have hop : (.flushShift l n : Op τ).isFrame l = true := by simp [isFrame]
  obtain ⟨h0, hf⟩ := h.stack_tail hop
  simp only [Duplex.exec] at he
  split_ifs at he with hc
  cases he
  refine h.flushStep hop (x := { s.side l with pend := (s.side l).pend.drop n })
    (by cases l <;> rfl) ?_ ⟨rfl, rfl, rfl, h.refused l⟩ (fun hu => ?_) rfl ?_ ?_
  · rw [show transit l (.flushShift l n :: t) = n by simp [transit],
      show transit l ([.flushLoop l] ++ t) = 0 from transit_of_not_frame t h0]
    exact .shift (p := ⟨(s.side l.other).rd, (s.side l).acc, (s.side l).pend, n,
      !s.closing && !(s.side l).lost⟩)
  · have := (h.unbound hu).2.2.2 l
    simpa [this.1] using this.2
  · simp [isFrame, h0, hf]
  · simp [isFrame, other_ne.symm]

lemma Inv.exec (h : Inv ⟨s, op :: t⟩)
    (htail : ∀ k, Inv ⟨s, t⟩ → Inv ⟨(tail k s).1, (tail k s).2 ++ t⟩)
    (he : exec tail ans s op = some r) : Inv ⟨r.1, r.2 ++ t⟩ := by
  cases op with
  | flushLoop => exact h.flushLoop he
  | flushShift l n => exact h.flushShift he
  | inIo =>
    cases he
    exact h.pop fun _ => rfl
  | tail k =>
    cases he
    exact htail k (h.pop fun _ => rfl)

end Exec

lemma Inv.of_io {c : Config τ} (h : Inv c) (hi : (c.s.side l).io.isSome = true) :
    c.s.closing = false ∧ (l = .b → c.s.bound = true) := by
  have hi' : (c.s.side l).io ≠ none := by simpa [Option.isSome_iff_ne_none] using hi
  refine ⟨?_, fun hl => ?_⟩
  · by_contra hc
    exact hi' (h.closed (by simpa using hc) l)
  · subst hl
    exact h.isBound hi'

end TunnelMate.Duplex
