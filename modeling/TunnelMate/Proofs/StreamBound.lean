import TunnelMate.Proofs.StreamWedge

/-!
# Bounded queues

A leg is paused as soon as the other one cannot take a chunk of it, and it is resumed only when
what was queued for the other leg is out.
-/

namespace TunnelMate.StreamIo

open Option
open List hiding tail

open Duplex Relay
open TmIo (Cb)

variable {c d : Config} {i : Label} {l m : Leg} {s s' s'' : Stream}

/-! ## Queues that only get shorter -/

structure Drains (s s' : Stream) : Prop where
  preq : s'.preq = s.preq
  rd : ∀ l, (s'.side l).rd = (s.side l).rd
  pend : ∀ l, (s'.side l).pend <:+ (s.side l).pend
  shut : ∀ l, (s.side l).shut = true → (s'.side l).shut = true

variable {ans : Ans} {q : Stream × List (Op Tail)} {todo : List Level} {data : Bytes}
variable {f : Side → Side} {o : Op Tail} {k : Tail}

namespace Drains

lemma refl (s : Stream) : Drains s s := ⟨rfl, fun _ => rfl, fun _ => suffix_rfl, fun _ => id⟩

lemma trans (h : Drains s s') (h' : Drains s' s'') : Drains s s'' where
  preq := h'.preq.trans h.preq
  rd l := (h'.rd l).trans (h.rd l)
  pend l := (h'.pend l).trans (h.pend l)
  shut l hs := h'.shut l (h.shut l hs)

lemma upd (hf : (f (s.side l)).rd = (s.side l).rd ∧ (f (s.side l)).pend <:+ (s.side l).pend ∧
      ((s.side l).shut = true → (f (s.side l)).shut = true)) : Drains s (s.upd f l) := by
  refine ⟨by simp, fun m => ?_, fun m => ?_, fun m => ?_⟩ <;>
    rcases Leg.eq_or_other l m with rfl | rfl <;> simp [hf]
  exact hf.2.2

lemma close : Drains s (tmStreamClose s) := by
  cases hc : s.closing with
  | true => simpa [tmStreamClose, hc] using refl s
  | false => exact ⟨preq_close, fun l => by rw [side_close hc], fun l => by simp [side_close hc],
      fun l => by simp [side_close hc]⟩

lemma maybeClose : Drains s (streamMaybeClose s) := by
  rcases maybeClose_cases s with ⟨he, -⟩ | he <;> rw [he]
  · exact refl s
  · exact close

lemma ended : Drains s (legEnded l s).1 := by
  obtain ⟨-, he⟩ | ⟨-, -, he⟩ | ⟨-, -, he⟩ := legEnded_cases l s <;> rw [he] <;> dsimp only
  · exact maybeClose
  · exact refl s
  · exact upd (by simp)

lemma tail (k : Tail) : Drains s (tail k s).1 := by
  cases k with
  | maybeClose => exact maybeClose
  | ended l =>
    obtain ⟨-, he⟩ | ⟨-, -, he⟩ | ⟨-, -, cut, he⟩ := ended_cases l s <;> rw [he] <;> dsimp only
    · exact maybeClose
    · exact upd (by simp)
    · exact (upd (by simp)).trans (upd (by simp))
  | low l =>
    obtain ⟨-, he⟩ | ⟨-, b, he⟩ | ⟨-, -, cut, he⟩ := low_cases l s <;> rw [he] <;> dsimp only
    · exact maybeClose
    · exact upd (by simp)
    · exact (upd (by simp)).trans (upd (by simp))
  | lowResume l =>
    obtain ⟨-, he⟩ | ⟨-, he⟩ := lowResume_cases l s <;> rw [he] <;> dsimp only
    · exact refl s
    · exact upd (by simp)
  | start =>
    obtain ⟨-, he⟩ | ⟨-, -, he⟩ | ⟨-, -, he⟩ := start_cases s <;> rw [he] <;> dsimp only <;>
      exact upd (by simp)

lemma exec (hq : Duplex.exec Relay.tail ans s o = some q) : Drains s q.1 := by
  cases o with
  | inIo =>
    cases hq
    exact refl s
  | tail k =>
    cases hq
    exact tail k
  | flushShift l n =>
    simp only [exec, ite_none_left_eq_some, some.injEq] at hq
    obtain ⟨-, rfl⟩ := hq
    dsimp only
    exact upd (by simpa using drop_suffix n (s.side l).pend)
  | flushLoop l =>
    simp only [exec] at hq
    split_ifs at hq
    · cases hq
      dsimp only
      exact upd (by simp)
    generalize min (s.side l).pend.length flushMax = n at hq
    obtain ⟨-, -, hw⟩ | ⟨-, -, hw⟩ | hw := tmIoWrite_cases l ((s.side l).pend.take n) ans s <;>
      rw [hw] at hq <;> cases hq <;> dsimp only
    · exact upd (by simp)
    · exact upd (by simp)
    · exact (upd (by simp)).trans (upd (by simp))

lemma nil (h : Drains s s') (hp : (s.side l).pend = []) : (s'.side l).pend = [] :=
  suffix_nil.1 (hp ▸ h.pend l)

end Drains

/-! ## Who resumes a leg -/

lemma paused_close : ((tmStreamClose s).side l).paused = (s.side l).paused := by
  cases hc : s.closing with
  | true => simp [tmStreamClose, hc]
  | false => rw [side_close hc]

lemma paused_maybeClose : ((streamMaybeClose s).side l).paused = (s.side l).paused := by
  rcases maybeClose_cases s with ⟨he, -⟩ | he <;> rw [he]
  exact paused_close

lemma paused_ended : ((legEnded m s).1.side l).paused = (s.side l).paused := by
  obtain ⟨-, he⟩ | ⟨-, -, he⟩ | ⟨-, -, he⟩ := legEnded_cases m s <;> rw [he]
  · exact paused_maybeClose
  · rcases Leg.eq_or_other m l with rfl | rfl <;> simp

lemma tail_paused (hp : (s.side l).paused = true) :
    ((tail k s).1.side l).paused = true ∨ k = .lowResume l.other ∨
      k = .start ∧ l = .a ∧ s.b.pend = [] := by
  cases k with
  | maybeClose => exact .inl (paused_maybeClose.trans hp)
  | ended m =>
    left
    obtain ⟨-, he⟩ | ⟨-, -, he⟩ | ⟨-, -, cut, he⟩ := ended_cases m s <;> rw [he]
    · exact paused_maybeClose.trans hp
    all_goals rcases Leg.eq_or_other m l with rfl | rfl <;> simpa using hp
  | low m =>
    left
    obtain ⟨-, he⟩ | ⟨-, b, he⟩ | ⟨-, -, cut, he⟩ := low_cases m s <;> rw [he]
    · exact paused_maybeClose.trans hp
    all_goals rcases Leg.eq_or_other m l with rfl | rfl <;> simpa using hp
  | lowResume m =>
    rcases Leg.eq_or_other m l with rfl | rfl
    · left
      obtain ⟨-, he⟩ | ⟨-, he⟩ := lowResume_cases l s <;> rw [he]
      · exact hp
      · simpa using hp
    · exact .inr (.inl (by simp))
  | start =>
    obtain ⟨-, he⟩ | ⟨hq, -, he⟩ | ⟨hq, -, he⟩ := start_cases s
    · left
      rw [he]
      cases l
      · rfl
      · exact hp
    all_goals
      cases l
      · exact .inr (.inr ⟨rfl, rfl, hq⟩)
      · left
        rw [he]
        exact hp

lemma exec_paused (hq : exec tail ans s o = some q) (hp : (s.side l).paused = true) :
    (q.1.side l).paused = true ∨ o = .tail (.lowResume l.other) ∨
      o = .tail .start ∧ l = .a ∧ s.b.pend = [] := by
  cases o with
  | inIo =>
    cases hq
    exact .inl hp
  | tail =>
    cases hq
    simpa using tail_paused hp
  | flushShift m =>
    simp only [exec, ite_none_left_eq_some, some.injEq] at hq
    obtain ⟨-, rfl⟩ := hq
    left
    rcases Leg.eq_or_other m l with rfl | rfl <;> simpa using hp
  | flushLoop m =>
    left
    simp only [exec] at hq
    split_ifs at hq
    · cases hq
      rcases Leg.eq_or_other m l with rfl | rfl <;> simpa using hp
    generalize min (s.side m).pend.length flushMax = n at hq
    obtain ⟨-, -, hw⟩ | ⟨-, -, hw⟩ | hw := tmIoWrite_cases m ((s.side m).pend.take n) ans s <;>
      rw [hw] at hq <;> cases hq <;>
      rcases Leg.eq_or_other m l with rfl | rfl <;> simpa using hp

lemma mem_tail_lowResume (h : .tail (.lowResume m) ∈ (tail k s).2) :
    (s.side m).pend = [] ∧ ((tail k s).2 = [.tail (.lowResume m)] ∨
      ((tail k s).1.side m).shut = true) := by
  cases k with
  | maybeClose => simp [tail] at h
  | ended l =>
    obtain ⟨-, he⟩ | ⟨-, -, he⟩ | ⟨-, -, cut, he⟩ := ended_cases l s <;> simp [he] at h
  | low l =>
    obtain ⟨-, he⟩ | ⟨hp, b, he⟩ | ⟨hp, -, cut, he⟩ := low_cases l s <;> simp [he] at h <;> subst h
    · exact ⟨hp, .inl (by simp [he])⟩
    · exact ⟨hp, .inr (by simp [he])⟩
  | lowResume l =>
    obtain ⟨-, he⟩ | ⟨-, he⟩ := lowResume_cases l s <;> simp [he] at h
  | start =>
    obtain ⟨-, he⟩ | ⟨-, -, he⟩ | ⟨-, -, he⟩ := start_cases s <;> simp [he] at h

lemma mem_exec_lowResume (hq : exec tail ans s o = some q) (h : .tail (.lowResume m) ∈ q.2) :
    (s.side m).pend = [] ∧ (q.2 = [.tail (.lowResume m)] ∨ (q.1.side m).shut = true) := by
  cases o with
  | tail =>
    cases hq
    exact mem_tail_lowResume h
  | _ =>
    have hl := leaves_exec hq
    generalize q.2 = w at h hl
    cases hl <;> simp at h

/-! ## What a step does to the queues -/

inductive Turn (c d : Config) : Prop
  | read {l : Leg} {data : Bytes} {todo : List Level} {ans : Ans} (src : Source c l data todo)
      (alive : c.Alive l)
      (refused : c.Alive l.other → (c.s.side l.other).pend = [] →
        (c.s.side l.other).shut = true → ans = .err)
      (stream : d.s = (relayRead l data ans (c.s.noteRead l data)).1)
      (stack : ops d.todo = (relayRead l data ans (c.s.noteRead l data)).2 ++ ops todo)
  | attach (unbound : c.s.bound = false) (preq : d.s.preq = [])
      (rd : ∀ l, (d.s.side l).rd = (c.s.side l).rd) (pendA : d.s.a.pend = [])
      (pendB : d.s.b.pend = c.s.preq) (start : .tail .start ∈ ops d.todo)
      (low : ∀ m, .tail (.lowResume m) ∉ ops d.todo)
  | call {w : List (Op Tail)} (drains : Drains c.s d.s) (alive : ∀ l, d.Alive l → c.Alive l)
      (paused : ∀ l, (d.s.side l).paused = (c.s.side l).paused) (waits : Waiting c.todo)
      (stack : ops d.todo = w ++ ops c.todo) (low : ∀ m, .tail (.lowResume m) ∉ w)
  | run {o : Op Tail} {t : List (Op Tail)} {a : Ans} {q : Stream × List (Op Tail)}
      (top : ops c.todo = o :: t) (run : exec tail a c.s o = some q) (stream : d.s = q.1)
      (stack : ops d.todo = q.2 ++ t)
  | same (stream : d.s = c.s) (stack : ops d.todo = ops c.todo)

lemma waiting_cb {k : Cb} (h : Wf c) (top : c.todo = .cb l k :: todo) :
    Waiting c.todo ∧ ops c.todo = ops todo := by
  simpa [Waiting, top] using (h.below_cb top).1

lemma turn_ended (hw : Waiting c.todo)
    (ho : ops c.todo = ops todo) (hio : ∀ x, (f x).io = x.io ∨ (f x).io = none)
    (hf : ∀ x, (f x).rd = x.rd ∧ (f x).pend = x.pend ∧ (f x).shut = x.shut ∧
      (f x).paused = x.paused) : Turn c (c.relay (legEnded l (c.s.upd f l)) todo) := by
  refine .call (w := (legEnded l (c.s.upd f l)).2) ?_ (fun m ha => ?_) (fun m => ?_) hw
    (by simp [ho]) fun m hm => ?_
  · exact (Drains.upd (by simp [hf])).trans .ended
  · exact alive_of_shrinks ((Shrinks.upd hio).trans shrinks_ended) ha
  · refine paused_ended.trans ?_
    rcases Leg.eq_or_other l m with rfl | rfl <;> simp [hf]
  · obtain ⟨-, he⟩ | ⟨-, -, he⟩ | ⟨-, -, he⟩ := legEnded_cases l (c.s.upd f l) <;> simp [he] at hm

lemma Effect.turn (h : Wf c) (he : Effect c i d) : Turn c d := by
  cases he with
  | io alive ok top =>
    obtain ⟨ht, rfl⟩ | ⟨f, ht⟩ := top <;> exact .same rfl (by simp [ht])
  | @drop x todo top dead notOp =>
    refine .same rfl ?_
    cases x with
    | op o => exact absurd rfl (notOp o)
    | io | cb => simp [top]
  | eof top alive =>
    obtain ⟨hw, ho⟩ := waiting_cb h top
    rw [relayEof_eq (h.open alive)]
    exact turn_ended hw ho (fun _ => .inl rfl) fun _ => ⟨rfl, rfl, rfl, rfl⟩
  | error top alive =>
    obtain ⟨hw, ho⟩ := waiting_cb h top
    rw [relayError_eq (h.open alive)]
    exact turn_ended hw ho (fun _ => .inr rfl) fun _ => ⟨rfl, rfl, rfl, rfl⟩
  | @low l todo top alive =>
    obtain ⟨hw, ho⟩ := waiting_cb h top
    obtain ⟨-, he⟩ | ⟨-, he⟩ := relayLow_cases (h.open alive) alive <;> rw [he]
    · exact .call (w := [.tail (.low l)]) (.refl _) (fun _ => id) (fun _ => rfl) hw (by simp [ho])
        (by simp)
    · refine .call (w := [.flushLoop l, .tail (.low l)]) ?_ (fun m ha => ?_)
        (fun m => ?_) hw (by simp [ho]) (by simp)
      · dsimp only [Config.relay]
        exact .upd (by simp)
      · rcases Leg.eq_or_other l m with rfl | rfl <;> simpa [Config.Alive, Config.relay] using ha
      · rcases Leg.eq_or_other l m with rfl | rfl <;> simp [Config.relay]
  | queue src alive ne keeps =>
    have hc := h.open alive
    exact .read src alive (fun h1 h2 => absurd ⟨hc, h1, h2⟩ keeps) rfl (by simp)
  | write src alive ne hands wrote =>
    exact .read src alive (fun _ _ hs => wrote.err.1 (h.refuses _ hands.2.1 hs)) rfl (by simp)
  | @flush l todo w q top alive queued wrote run | @op o todo q top run =>
    exact .run (t := ops todo) (by simp [top]) run rfl (by simp)
  | @shutdown k l r todo top | @resume k l r todo top =>
    exact .run (o := .tail k) (t := ops todo) (a := .ok) (by simp [top]) rfl rfl (by simp)
  | @attach conn x top closing bound =>
    obtain ⟨-, -, hf, hp⟩ := h.reach.inv.unbound bound
    obtain ⟨s', w, he, -, hq, hw, hside⟩ :=
      attach_spec (.ssl conn) closing bound hf fun l => (hp l).1
    obtain ⟨_, _, _, _, ha, -⟩ := hside .a
    obtain ⟨_, _, _, _, hb, -⟩ := hside .b
    rw [he]
    refine .attach bound hq (fun l => ?_) (congrArg Side.pend ha) (congrArg Side.pend hb) (by simp)
      (by rcases hw with rfl | rfl <;> simp)
    obtain ⟨x, b, d, f, hl, -⟩ := hside l
    simp [hl]
  | keep => exact .same rfl rfl
  | close top =>
    exact .call (w := []) .close (fun l => alive_of_shrinks .close) (fun _ => paused_close)
      (by simp [Waiting, top]) (by simp) (by simp)

/-! ## The invariants -/

/-- Where a low-water callback is about to resume a leg, the queue it looked at is still empty:
while it waits for a half-close to return, nothing can be queued any more. -/
def Resumes (c : Config) : Prop :=
  ∀ m, .tail (.lowResume m) ∈ ops c.todo → (c.s.side m).pend = [] ∧
    (.tail (.lowResume m) ∈ (ops c.todo).tail → (c.s.side m).shut = true)

def Held (c : Config) : Prop :=
  ∀ l, c.Alive l → (c.s.side l.other).pend ≠ [] →
    (c.s.side l).paused = true ∨ l = .a ∧ .tail .start ∈ ops c.todo

def Fed (s : Stream) : Prop := ∀ l, (s.queue l).length ≤ (s.side l.other).rd.length

lemma Waiting.mem_tail {t : List Level} (hw : Waiting t) (hm : .tail k ∈ ops t) :
    .tail k ∈ (ops t).tail := by
  rcases hw with he | ⟨v, he⟩
  · simp [he] at hm
  · simpa [he] using hm

lemma Wf.pend_unbound (h : Wf c) (hc : c.s.closing = false) (hi : c.s.b.io = none)
    (he : c.s.b.eof = false) (l : Leg) : (c.s.side l).pend = [] := by
  refine ((h.reach.inv.unbound (Bool.eq_false_iff.2 fun hb => ?_)).2.2.2 l).1
  exact Bool.false_ne_true (he.symm.trans ((h.reach.inv.bound hb).2 hc hi))

lemma Turn.resumes (h : Wf c) (hr : Resumes c) (ht : Turn c d) (hcl : d.s.closing = false) :
    Resumes d := by
  intro m hm
  cases ht with
  | attach unbound preq rd pendA pendB start low => exact absurd hm (low m)
  | same stream stack =>
    rw [stack] at hm ⊢
    rw [stream]
    exact hr m hm
  | call drains alive paused waits stack low =>
    rw [stack, mem_append] at hm
    have hm' := hm.resolve_left (low m)
    obtain ⟨hp, hs⟩ := hr m hm'
    exact ⟨drains.nil hp, fun _ => drains.shut m (hs (waits.mem_tail hm'))⟩
  | @run o t ans q top run stream stack =>
    have hdr := Drains.exec run
    rw [← stream] at hdr
    have hold : .tail (.lowResume m) ∈ t → (d.s.side m).pend = [] ∧ (d.s.side m).shut = true :=
      fun ht => by
        obtain ⟨hp, hs⟩ := hr m (by simp [top, ht])
        exact ⟨hdr.nil hp, hdr.shut m (hs (by simpa [top] using ht))⟩
    rw [stack] at hm ⊢
    rcases mem_append.1 hm with hq | ht
    · obtain ⟨hp, hor⟩ := mem_exec_lowResume run hq
      refine ⟨hdr.nil hp, fun htl => ?_⟩
      rcases hor with hq | hs
      · exact (hold (by simpa [hq] using htl)).2
      · rw [stream]
        exact hs
    · exact ⟨(hold ht).1, fun _ => (hold ht).2⟩
  | @read l data todo ans src alive refused stream stack =>
    have hc := h.open alive
    obtain ⟨hw, -, -, -⟩ := src.below h
    rw [stack, mem_append] at hm
    have hm' := hm.resolve_left fun hq => by simpa using relayRead_ops _ hq
    obtain ⟨hp, hs⟩ := hr m (by rwa [src.ops_eq])
    have hs : (c.s.side m).shut = true := hs (by rw [src.ops_eq]; exact hw.mem_tail hm')
    suffices hd : (d.s.side m).pend = (c.s.side m).pend ∧ (d.s.side m).shut = (c.s.side m).shut by
      exact ⟨hd.1.trans hp, fun _ => hd.2.trans hs⟩
    rw [stream] at hcl ⊢
    obtain ⟨hx, -⟩ | ⟨rfl, -, -, p, he⟩ | ⟨hi, ⟨hor, s₁, hr₁, he⟩ | ⟨-, -, s₁, hr₁, he⟩⟩ :=
      relayRead_cases (l := l) (d := data) hc refused
    · simp [hx] at hcl
    · rw [he]
      cases m <;> exact ⟨rfl, rfl⟩
    · rw [he]
      rcases Leg.eq_or_other l m with rfl | rfl
      · simp [queueBehind, hr₁.side]
      · -- a leg that was half-closed takes no more, and closes the stream
        rcases hor with hne | ⟨-, rfl⟩
        · exact absurd hp hne
        · exact absurd (refused hi hp hs) (by simp)
    · rw [he]
      rcases Leg.eq_or_other l m with rfl | rfl <;> simp [hr₁.side, hr₁.other]

lemma Turn.held (h : Wf c) (hr : Resumes c) (hh : Held c) (ht : Turn c d)
    (hcl : d.s.closing = false) : Held d := by
  intro l ha hq
  cases ht with
  | attach unbound preq rd pendA pendB start =>
    cases l with
    | a => exact .inr ⟨rfl, start⟩
    | b => exact absurd pendA hq
  | same stream stack =>
    rw [stream] at hq ⊢
    rw [Config.Alive, stream] at ha
    rw [stack]
    exact hh l ha hq
  | call drains alive paused waits stack =>
    rw [paused, stack]
    refine (hh l (alive l ha) fun hp => hq (drains.nil hp)).imp id fun hs => ?_
    exact ⟨hs.1, mem_append_right _ hs.2⟩
  | @run o t ans q top run stream stack =>
    have hdr := Drains.exec run
    rw [← stream] at hdr
    have hq' : (c.s.side l.other).pend ≠ [] := fun hp => hq (hdr.nil hp)
    have ha' : c.Alive l := by
      rw [Config.Alive, stream] at ha
      exact alive_of_shrinks (shrinks_exec run) ha
    rcases hh l ha' hq' with hp | ⟨rfl, hs⟩
    · rw [stream]
      rcases exec_paused run hp with hp' | rfl | ⟨rfl, rfl, hb⟩
      · exact .inl hp'
      · exact absurd (hr l.other (by simp [top])).1 hq'
      · exact absurd hb hq'
    · rw [top, mem_cons] at hs
      rcases hs with rfl | hs
      · obtain rfl := some.inj run
        obtain ⟨-, he⟩ | ⟨hb, -⟩ | ⟨hb, -⟩ := start_cases c.s
        · rw [stream, he]
          exact .inl rfl
        · exact absurd hb hq'
        · exact absurd hb hq'
      · exact .inr ⟨rfl, by simp [stack, hs]⟩
  | @read l₀ data todo ans src alive refused stream stack =>
    have hc := h.open alive
    have hst : .tail .start ∈ ops c.todo → .tail .start ∈ ops d.todo := fun hs => by
      rw [stack, ← src.ops_eq]
      exact mem_append_right _ hs
    rw [stream] at hcl hq ⊢
    rw [Config.Alive, stream] at ha
    have ha' : c.Alive l := alive_of_shrinks (shrinks_read data ans) ha
    obtain ⟨hx, -⟩ | ⟨rfl, hi, hbe, p, he⟩ | ⟨hi, ⟨hor, s₁, hr₁, he⟩ | ⟨hp, -, s₁, hr₁, he⟩⟩ :=
      relayRead_cases (l := l₀) (d := data) hc refused
    · simp [hx] at hcl
    · rw [he] at hq
      refine absurd ?_ hq
      cases l
      · exact h.pend_unbound hc hi hbe .b
      · exact h.pend_unbound hc hi hbe .a
    · rw [he] at hq ⊢
      rcases Leg.eq_or_other l₀ l with rfl | rfl
      · exact .inl (by simp [queueBehind])
      · simp only [queueBehind, Leg.other_other, Stream.side_upd, Stream.side_upd_other',
          Stream.side_upd_other, hr₁.side, hr₁.other] at hq ⊢
        exact (hh _ ha' (by simpa using hq)).imp id fun hs => ⟨hs.1, hst hs.2⟩
    · rw [he] at hq ⊢
      rcases Leg.eq_or_other l₀ l with rfl | rfl
      · simp [hr₁.other, hp] at hq
      · simp only [Leg.other_other, Stream.side_upd, Stream.side_upd_other', hr₁.side,
          hr₁.other] at hq ⊢
        exact (hh _ ha' (by simpa using hq)).imp id fun hs => ⟨hs.1, hst hs.2⟩

lemma Drains.queue_le (h : Drains s s') (l : Leg) : (s'.queue l).length ≤ (s.queue l).length := by
  have := (h.pend l).length_le
  simp only [Stream.queue, length_append, h.preq]
  omega

lemma Turn.fed (h : Wf c) (hf : Fed c.s) (ht : Turn c d) (hcl : d.s.closing = false) : Fed d.s := by
  intro l
  have hl := hf l
  cases ht with
  | attach unbound preq rd pendA pendB =>
    rw [rd]
    cases l with
    | a => simp [Stream.queue, Stream.side, pendA]
    | b =>
      have hp : c.s.b.pend = [] := ((h.reach.inv.unbound unbound).2.2.2 .b).1
      simpa [Stream.queue, Stream.side, preq, pendB, hp] using hl
  | same stream => rwa [stream]
  | call drains => exact (drains.queue_le l).trans (hl.trans_eq (by rw [drains.rd]))
  | run top run stream =>
    have hdr := Drains.exec run
    rw [stream, hdr.rd]
    exact (hdr.queue_le l).trans hl
  | @read l₀ data todo ans src alive refused stream =>
    have hc := h.open alive
    rw [stream] at hcl ⊢
    obtain ⟨hx, -⟩ | ⟨rfl, hi, hbe, p, he⟩ | ⟨hi, ⟨hor, s₁, hr₁, he⟩ | ⟨hp, -, s₁, hr₁, he⟩⟩ :=
      relayRead_cases (l := l₀) (d := data) hc refused
    · simp [hx] at hcl
    · rw [he]
      cases l with
      | a => simpa [Stream.queue, Stream.side, Leg.other] using hl
      | b =>
        simp only [Stream.queue, Stream.side, Leg.other, if_true, length_append] at hl ⊢
        omega
    · rw [he]
      rcases Leg.eq_or_other l₀ l with rfl | rfl
      · simpa [Stream.queue, queueBehind, hr₁.side, hr₁.other, hr₁.preq] using hl
      · simp only [Stream.queue, queueBehind, Leg.other_other, Stream.side_upd,
          Stream.side_upd_other', Stream.side_upd_other, Stream.preq_upd, hr₁.side, hr₁.other,
          hr₁.preq, length_append] at hl ⊢
        omega
    · rw [he]
      rcases Leg.eq_or_other l₀ l with rfl | rfl
      · simpa [Stream.queue, hr₁.side, hr₁.other, hr₁.preq] using hl
      · simp only [Stream.queue, Leg.other_other, Stream.side_upd, Stream.side_upd_other',
          Stream.preq_upd, hr₁.side, hr₁.other, hr₁.preq, length_append] at hl ⊢
        omega

/-! ## The bounds -/

def room : Leg → ℕ
  | .a => 65536
  | .b => earlyMax

def Bounded (s : Stream) : Prop :=
  s.preq.length ≤ earlyMax ∧ ∀ l, (s.side l).pend.length ≤ room l

lemma Drains.bounded (h : Drains s s') (hb : Bounded s) : Bounded s' :=
  ⟨h.preq ▸ hb.1, fun l => (h.pend l).length_le.trans (hb.2 l)⟩

lemma preq_relayWrite : (relayWrite l data ans s : _ × List (Op Tail)).1.preq = s.preq := by
  unfold relayWrite
  split_ifs
  · simp [queueBehind]
  · obtain ⟨-, -, hw⟩ | ⟨-, -, hw⟩ | hw := tmIoWrite_cases l.other data ans s <;> rw [hw] <;>
      simp [queueBehind]

lemma preq_read (hc : s.closing = false) :
    (relayRead l data ans (s.noteRead l data)).1.preq = s.preq ∨
      (relayRead l data ans (s.noteRead l data)).1.preq.length ≤ earlyMax := by
  have hr := Read.counted l data s
  rw [relayRead_eq hc]
  split_ifs
  · exact .inl (preq_close.trans hr.preq)
  · unfold queueEarly
    split_ifs with hlen
    · exact .inl (preq_close.trans hr.preq)
    · right
      dsimp only
      split_ifs <;> simpa using hlen
  · exact .inl (preq_relayWrite.trans hr.preq)

lemma pend_read_closing (hc : s.closing = false)
    (hcl : (relayRead l data ans (s.noteRead l data)).1.closing = true) (m : Leg) :
    ((relayRead l data ans (s.noteRead l data)).1.side m).pend = (s.side m).pend := by
  have hr := Read.counted l data s
  have hc' := hr.closing.trans hc
  have hs : ((counted l data s).side m).pend = (s.side m).pend := by
    rcases Leg.eq_or_other l m with rfl | rfl
    · rw [hr.side]
    · rw [hr.other]
  rw [relayRead_eq hc] at hcl ⊢
  rw [← hs]
  split_ifs at hcl ⊢
  · rw [side_close hc']
  · unfold queueEarly at hcl ⊢
    split_ifs at hcl ⊢
    · rw [side_close hc']
    · dsimp only at hcl
      split_ifs at hcl <;> simp [hc'] at hcl
  · unfold relayWrite at hcl ⊢
    split_ifs at hcl ⊢
    · simp [queueBehind, hc'] at hcl
    · obtain ⟨-, -, he⟩ | ⟨-, -, he⟩ | he := tmIoWrite_cases l.other data ans (counted l data s) <;>
        rw [he] at hcl ⊢
      · simp [hc'] at hcl
      · simp [queueBehind, hc'] at hcl
      · rw [side_close (by simp [hc'])]
        rcases Leg.eq_or_other l m with rfl | rfl <;> simp

lemma Source.pend_nil (hh : Held c) (hf : Fed c.s) (hb : Begins c) (hc : c.s.closing = false)
    (src : Source c l data todo) (alive : c.Alive l)
    (hi : c.Alive l.other) : (c.s.side l.other).pend = [] := by
  have hsrc := src
  rcases src with ⟨-, ⟨-, hp, -⟩ | ⟨-, -, -, hrd⟩⟩
  · by_contra hq
    rcases hh l alive hq with hp' | ⟨rfl, hs⟩
    · simp [hp] at hp'
    · obtain ⟨haa, v, hv⟩ := hb hc hi hs
      exact begins_read (m := .a) (a := .ok) (s := c.s) hsrc
        (fun _ => ⟨haa, hi, v, hv⟩) (.inr (hsrc.ops_eq ▸ hs))
  · have := hf l.other
    simp only [Leg.other_other, hrd, length_nil, Nat.le_zero, length_eq_zero_iff] at this
    simp only [Stream.queue, append_eq_nil_iff] at this
    exact this.1

lemma Turn.bounded (h : Wf c) (hb : Bounded c.s)
    (hi : c.s.closing = false → Held c ∧ Fed c.s ∧ Begins c) (ht : Turn c d) : Bounded d.s := by
  cases ht with
  | attach unbound preq rd pendA pendB =>
    refine ⟨by simp [preq], fun l => ?_⟩
    cases l with
    | a => simp [Stream.side, pendA]
    | b => simpa [Stream.side, pendB, room] using hb.1
  | same stream => rwa [stream]
  | call drains => exact drains.bounded hb
  | run top run stream =>
    rw [stream]
    exact (Drains.exec run).bounded hb
  | @read l data todo ans src alive refused stream =>
    have hc := h.open alive
    obtain ⟨hh, hf, hbe⟩ := hi hc
    rw [stream]
    refine ⟨?_, fun m => ?_⟩
    · rcases preq_read (l := l) hc with he | hle
      · rw [he]
        exact hb.1
      · exact hle
    · obtain ⟨hx, -⟩ | ⟨rfl, -, -, p, he⟩ | ⟨ha, ⟨-, s₁, hr₁, he⟩ | ⟨-, -, s₁, hr₁, he⟩⟩ :=
        relayRead_cases (l := l) (d := data) hc refused
      · rw [pend_read_closing hc hx]
        exact hb.2 m
      · rw [he]
        cases m
        · exact hb.2 .a
        · exact hb.2 .b
      · rw [he]
        rcases Leg.eq_or_other l m with rfl | rfl
        · simpa [queueBehind, hr₁.side] using hb.2 m
        · -- the chunk is all that waits
          have hq := src.pend_nil hh hf hbe hc alive ha
          have hroom : 65536 ≤ room l.other := by
            cases l
            · exact Nat.le_add_left _ _
            · exact le_rfl
          simpa [queueBehind, hr₁.other, hq] using src.1.trans hroom
      · rw [he]
        rcases Leg.eq_or_other l m with rfl | rfl
        · simpa [hr₁.side] using hb.2 m
        · simpa [hr₁.other] using hb.2 l.other

lemma queues_init (h : Init c) : c.s.preq = [] ∧ ∀ l, (c.s.side l).pend = [] := by
  rcases h with rfl | ⟨conn, x, -, rfl⟩ <;> exact ⟨rfl, fun l => by cases l <;> rfl⟩

lemma bounded_of_trace {tr : List (Config × Label)} (hr : Trace step Init tr c) :
    Bounded c.s ∧ (c.s.closing = false → Resumes c ∧ Held c ∧ Fed c.s) := by
  induction hr with
  | @start c hi =>
    obtain ⟨hq, hp⟩ := queues_init hi
    refine ⟨⟨by simp [hq], by simp [hp]⟩, fun _ => ⟨fun m hm => ?_, fun l _ hne => ?_, fun l => ?_⟩⟩
    · simp [ops_init hi] at hm
    · exact absurd (hp l.other) hne
    · simp [Stream.queue, hp, hq]
  | next hr hs ih =>
    have hw := wf_of_trace hr
    obtain ⟨d', rfl, he⟩ := step_effect hw hs
    have ht := he.turn hw
    have hinv := fun hcl => ih.2 (he.open hw hcl)
    have hb := ht.bounded hw ih.1 fun hc => ⟨(ih.2 hc).2.1, (ih.2 hc).2.2, begins_of_trace hr⟩
    refine ⟨⟨hb.1, fun l => by simpa using hb.2 l⟩, fun hcl => ⟨fun m hm => ?_, fun l ha hq => ?_,
      fun l => ?_⟩⟩
    · simpa using ht.resumes hw (hinv hcl).1 hcl m hm
    · simpa using ht.held hw (hinv hcl).1 (hinv hcl).2.1 hcl l (alive_sync.1 ha) (by simpa using hq)
    · simpa [Stream.queue] using ht.fed hw (hinv hcl).2.2 hcl l

/-- In every run of a broker stream, with chunks of at most 65536 bytes, what waits for the agent
leg is at most the high-water mark and a chunk, and for the consumer leg a chunk. -/
theorem relay_memory_bounded {tr : List (Config × Label)} (hr : Trace step Init tr c) :
    c.s.preq.length ≤ tmIoHighWater + 65536 ∧ c.s.b.pend.length ≤ tmIoHighWater + 65536 ∧
      c.s.a.pend.length ≤ 65536 :=
  have hb := (bounded_of_trace hr).1
  ⟨hb.1, hb.2 .b, hb.2 .a⟩

theorem relay_memory_bounded_slow_client : ∃ tr c, Trace step Init tr c ∧ c.s.a.pend ≠ [] ∧
    c.s.preq.length ≤ tmIoHighWater + 65536 ∧ c.s.b.pend.length ≤ tmIoHighWater + 65536 ∧
      c.s.a.pend.length ≤ 65536 := by
  obtain ⟨data, hd⟩ := exists_record
  obtain ⟨acc, rd, n, tr, hr, -⟩ := unfailed_backedUp hd
  refine ⟨tr, _, hr, fun he => ?_, relay_memory_bounded hr⟩
  obtain rfl : data = [] := he
  simp at hd

end TunnelMate.StreamIo
