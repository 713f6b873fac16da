import TunnelMate.Proofs.StreamIo
import TunnelMate.Proofs.RelayFin

/-!
# Backpressure

The relay pauses a leg when the other leg cannot take what it sends, and resumes it from the
low-water callback of that other leg.
-/

namespace TunnelMate.StreamIo

open List Option StreamIo.Config

open Duplex Relay
open TmIo (Cb Obj Move Wrote HalfClosed Resumed Told)

/-! ## The relay's call stack -/

inductive Calls : List (Op Tail) → Prop
  | inIo : Calls [.inIo]
  | ended (l : Leg) : Calls [.tail (.ended l)]
  | endedFlush (l : Leg) : Calls [.flushLoop l.other, .tail (.ended l)]
  | low (l : Leg) : Calls [.tail (.low l)]
  | lowFlush (l : Leg) : Calls [.flushLoop l, .tail (.low l)]

inductive Leaves : Op Tail → List (Op Tail) → Prop
  | none {o : Op Tail} : Leaves o []
  | write (l : Leg) (n : ℕ) : Leaves (.flushLoop l) [.inIo, .flushShift l n]
  | shift (l : Leg) (n : ℕ) : Leaves (.flushShift l n) [.flushLoop l]
  | inIo {k : Tail} : Leaves (.tail k) [.inIo]
  | tail {k k' : Tail} (h : k' = .maybeClose ∨ ∃ l, k' = .lowResume l) : Leaves (.tail k) [.tail k']
  | inIoTail {k k' : Tail} (h : k' = .maybeClose ∨ ∃ l, k' = .lowResume l) :
      Leaves (.tail k) [.inIo, .tail k']

inductive Stack : List (Op Tail) → List (Op Tail) → Prop
  | same {t : List (Op Tail)} : Stack t t
  | call {t w : List (Op Tail)} (waits : t = [] ∨ ∃ v, t = .inIo :: v) (calls : Calls w) :
      Stack t (w ++ t)
  | run {o : Op Tail} {t w : List (Op Tail)} (leaves : Leaves o w) : Stack (o :: t) (w ++ t)
  | attach : Stack [] [.tail .start]
  | attachFlush : Stack [] [.flushLoop .b, .tail .start]

def Starts : List (Op Tail) → Prop
  | [] => True
  | o :: t => (o = .tail .start → t = []) ∧
      (t.head? = some (.tail .start) → o.isFrame .b = true) ∧ Starts t

section Stack

variable {t u w : List (Op Tail)} {o : Op Tail} {l : Leg}

lemma covered_push (h : Covered l t) (ho : o.isFrame l.other = false) : Covered l (o :: t) :=
  ⟨fun hf => by simp [ho] at hf, h⟩

lemma covered_stack (h : Covered l t) (hs : Stack t u) : Covered l u := by
  cases hs with
  | same => exact h
  | attach => exact covered_push h rfl
  | attachFlush =>
    refine ⟨fun hf => ⟨_, mem_cons_self, ?_⟩, covered_push h rfl⟩
    cases l <;> simp_all [Op.isFrame, looksAt, Leg.other]
  | call waits calls =>
    cases calls with
    | inIo | ended | low => exact covered_push h rfl
    | endedFlush m | lowFlush m =>
      refine ⟨fun hf => ⟨_, mem_cons_self, ?_⟩, covered_push h rfl⟩
      cases l <;> cases m <;> simp_all [Op.isFrame, looksAt, Leg.other]
  | run leaves =>
    cases leaves with
    | none => exact h.2
    | write m n => exact covered_push (o := .inIo) (t := .flushShift m n :: _) ⟨h.1, h.2⟩ rfl
    | shift => exact ⟨h.1, h.2⟩
    | inIo | tail => exact covered_push h.2 rfl
    | inIoTail => exact covered_push (covered_push h.2 rfl) rfl

lemma Starts.push (h : Starts t) (ho : o ≠ .tail .start) (ht : t.head? ≠ some (.tail .start)) :
    Starts (o :: t) :=
  ⟨fun he => absurd he ho, fun he => absurd he ht, h⟩

lemma Starts.stack (h : Starts t) (hs : Stack t u) : Starts u := by
  cases hs with
  | same => exact h
  | attach => exact ⟨fun _ => rfl, by simp, trivial⟩
  | attachFlush => exact ⟨by simp, fun _ => rfl, fun _ => rfl, by simp, trivial⟩
  | call waits calls =>
    have ht : t.head? ≠ some (.tail .start) := by
      rcases waits with rfl | ⟨v, rfl⟩ <;> simp
    cases calls with
    | inIo | ended | low => exact h.push (by simp) ht
    | endedFlush | lowFlush => exact (h.push (by simp) ht).push (by simp) (by simp)
  | @run o t w leaves =>
    cases leaves with
    | none => exact h.2.2
    | write m n =>
      have hs : Starts (.flushShift m n :: t) := ⟨by simp, fun he => h.2.1 he, h.2.2⟩
      exact hs.push (by simp) (by simp)
    | shift => exact ⟨by simp, fun he => h.2.1 he, h.2.2⟩
    | inIo => exact h.2.2.push (by simp) fun he => by simpa [Op.isFrame] using h.2.1 he
    | tail hk =>
      refine h.2.2.push ?_ fun he => by simpa [Op.isFrame] using h.2.1 he
      rcases hk with rfl | ⟨l, rfl⟩ <;> simp
    | inIoTail hk =>
      refine (h.2.2.push ?_ fun he => by simpa [Op.isFrame] using h.2.1 he).push (by simp) ?_ <;>
        rcases hk with rfl | ⟨l, rfl⟩ <;> simp

end Stack

variable {c d : Config} {i : Label} {l m : Leg}
variable {q : Stream × List (Op Tail)} {todo : List Level} {data : Bytes} {ans : Ans} {s : Stream}
variable {o : Op Tail} {tr : List (Config × Label)} {t w : List (Op Tail)}

@[simp] lemma ops_relay : ops (c.relay q todo).todo = q.2 ++ ops todo := by simp [relay]

@[simp] lemma ops_enter {r : TmIo.Res} :
    ops (c.enter l r todo).todo = ops todo := by simp [enter]

lemma Source.ops_eq (src : Source c l data todo) : ops c.todo = ops todo := by
  rcases src with ⟨-, ⟨ht, -⟩ | ⟨ht, -⟩⟩ <;> simp [ht]

lemma relayRead_ops {d : Bytes} : ∀ o ∈ (relayRead l d ans s).2, o = .inIo := by
  cases l
  · exact relayARead_ops
  · exact relayBRead_ops

lemma stack_ended (hw : Waiting todo) : Stack (ops todo) ((legEnded l s).2 ++ ops todo) := by
  obtain ⟨-, he⟩ | ⟨-, -, he⟩ | ⟨-, -, he⟩ := legEnded_cases l s <;> rw [he]
  · exact .same
  · exact .call hw (.ended l)
  · exact .call hw (.endedFlush l)

lemma stack_read (hc : c.s.closing = false)
    (hs : (c.s.side l.other).io ≠ none → (c.s.side l.other).pend = [] →
      (c.s.side l.other).shut = true → ans = .err) (hw : Waiting todo) :
    Stack (ops todo) ((relayRead l data ans (c.s.noteRead l data)).2 ++ ops todo) := by
  obtain ⟨-, -, he⟩ | ⟨rfl, -, -, p, he⟩ | ⟨-, ⟨-, s₁, -, he⟩ | ⟨-, -, s₁, -, he⟩⟩ :=
    relayRead_cases (l := l) (d := data) hc hs <;> rw [he]
  · exact .same
  · exact .same
  · exact .same
  · exact .call hw .inIo

variable {k : Tail}

lemma leaves_tail : Leaves (.tail k) (tail k s).2 := by
  cases k with
  | maybeClose => exact .none
  | ended l =>
    obtain ⟨-, he⟩ | ⟨-, -, he⟩ | ⟨-, -, cut, he⟩ := ended_cases l s <;> rw [he]
    · exact .none
    · exact .tail (.inl rfl)
    · exact .inIoTail (.inl rfl)
  | low l =>
    obtain ⟨-, he⟩ | ⟨-, b, he⟩ | ⟨-, -, cut, he⟩ := low_cases l s <;> rw [he]
    · exact .none
    · exact .tail (.inr ⟨l, rfl⟩)
    · exact .inIoTail (.inr ⟨l, rfl⟩)
  | lowResume l =>
    obtain ⟨-, he⟩ | ⟨-, he⟩ := lowResume_cases l s <;> rw [he]
    · exact .tail (.inl rfl)
    · exact .inIoTail (.inl rfl)
  | start =>
    obtain ⟨-, he⟩ | ⟨-, -, he⟩ | ⟨-, -, he⟩ := start_cases s <;> rw [he]
    · exact .none
    · exact .none
    · exact .inIo

lemma leaves_exec (hq : exec tail ans s o = some q) : Leaves o q.2 := by
  cases o with
  | inIo =>
    cases hq
    exact .none
  | tail =>
    cases hq
    exact leaves_tail
  | flushShift l n =>
    simp only [exec, ite_none_left_eq_some, some.injEq] at hq
    obtain ⟨-, rfl⟩ := hq
    exact .shift l n
  | flushLoop l =>
    simp only [exec] at hq
    split_ifs at hq
    · cases hq
      exact .none
    generalize min (s.side l).pend.length flushMax = n at hq
    obtain ⟨-, -, hw⟩ | ⟨-, -, hw⟩ | hw := tmIoWrite_cases l ((s.side l).pend.take n) ans s <;>
      rw [hw] at hq <;> cases hq
    · exact .write l n
    · exact .none
    · exact .none

lemma Effect.stack (h : Wf c) (he : Effect c i d) : Stack (ops c.todo) (ops d.todo) := by
  cases he with
  | io alive ok top =>
    obtain ⟨ht, rfl⟩ | ⟨f, ht⟩ := top <;> simpa [ht] using .same
  | @drop x todo top dead notOp =>
    cases x with
    | op o => exact absurd rfl (notOp o)
    | io | cb => simpa [top] using .same
  | eof top alive =>
    simp only [top, ops_cb, relay, ops_append, ops_map_op, relayEof_eq (h.open alive)]
    exact stack_ended (h.below_cb top).1
  | error top alive =>
    simp only [top, ops_cb, relay, ops_append, ops_map_op, relayError_eq (h.open alive)]
    exact stack_ended (h.below_cb top).1
  | @low l todo top alive =>
    have hw := (h.below_cb top).1
    simp only [top, ops_cb, relay, ops_append, ops_map_op]
    obtain ⟨-, he⟩ | ⟨-, he⟩ := relayLow_cases (h.open alive) alive <;> rw [he]
    · exact .call hw (.low l)
    · exact .call hw (.lowFlush l)
  | queue src alive ne keeps =>
    have hc := h.open alive
    simp only [src.ops_eq, relay, ops_append, ops_map_op]
    exact stack_read hc (fun h1 h2 => absurd ⟨hc, h1, h2⟩ keeps) (src.below h).1
  | write src alive ne hands wrote =>
    simp only [src.ops_eq, ops_enter, ops_append, ops_map_op]
    exact stack_read hands.1 (fun _ _ hs => wrote.err.1 (h.refuses _ hands.2.1 hs)) (src.below h).1
  | flush top alive queued wrote run =>
    simpa [top] using .run (leaves_exec run)
  | op top run => simpa [top, relay] using .run (leaves_exec run)
  | shutdown top | resume top =>
    simpa [top] using .run leaves_tail
  | @attach conn x top closing bound =>
    have hf : c.s.b.flushing = false := (h.reach.inv.unbound bound).2.2.1
    simp only [top, ops_nil, ops_append, ops_map_op, ops_readRest, append_nil]
    obtain ⟨-, he⟩ | ⟨-, he⟩ := attach_cases (.ssl conn) closing bound hf <;> rw [he]
    · exact .attach
    · exact .attachFlush
  | keep | close => exact .same

lemma ops_init (h : Init c) : ops c.todo = [] := by
  rcases h with rfl | ⟨conn, x, -, rfl⟩
  · rfl
  · exact ops_readRest

lemma shape_of_trace (hr : Trace step Init tr c) :
    (∀ l, Covered l (ops c.todo)) ∧ Starts (ops c.todo) := by
  induction hr with
  | start hi =>
    rw [ops_init hi]
    exact ⟨fun _ => trivial, trivial⟩
  | next hr hs ih =>
    obtain ⟨d', rfl, he⟩ := step_effect (wf_of_trace hr) hs
    have hst := he.stack (wf_of_trace hr)
    exact ⟨fun l => covered_stack (ih.1 l) hst, ih.2.stack hst⟩

/-! ## What a step does to a leg -/

def resumes (l : Leg) : Op Tail → Bool
  | .tail (.low m) => m = l.other
  | .tail (.lowResume m) => m = l.other
  | .tail .start => l = .a
  | _ => false

def Hears (c : Config) (l : Leg) : Prop :=
  (c.io l).Owing ∨ c.todo.head? = some (.cb l .low) ∨ c.todo.head? = some (.cb l .error)

inductive Pauses (c d : Config) (m : Leg) : Prop
  /-- The other leg cannot take a chunk of the leg, or is not there yet. -/
  | read (alive : c.Alive m) (stays : d.Alive m)
      (going : (c.s.side m).eof = false ∨ ops c.todo = [])
      (backed : d.s.bound = true → d.Alive m.other ∧ (d.s.side m.other).pend ≠ [])
  /-- The agent leg cannot take what was waiting for it. -/
  | start (leg : m = .a) (top : (ops c.todo).head? = some (.tail .start))
      (queued : c.s.b.pend ≠ []) (same : d.s.b = c.s.b) (stays : c.Alive .a → d.Alive .a)

/-- A resume that was to come is still to come, unless the leg does not wait for it. -/
def KeepsResume (c d : Config) (m : Leg) : Prop :=
  ∀ o ∈ ops c.todo, resumes m o = true → (∃ p ∈ ops d.todo, resumes m p = true) ∨
    (d.Alive m → (d.s.side m).paused = false) ∨ (d.s.side m.other).pend ≠ []

structure Change (c d : Config) (m : Leg) : Prop where
  attached : d.s.bound = true → c.s.bound = true ∨ (∀ l, d.Alive l) ∧ .tail .start ∈ ops d.todo
  bound : c.s.bound = true → d.s.bound = true
  eof : (c.s.side m).eof = true → (d.s.side m).eof = true
  alive : c.Alive m → d.Alive m ∨ c.todo.head? = some (.cb m .error)
  born : d.Alive m → c.Alive m ∨ c.s.bound = false ∧ c.todo = []
  paused : (d.s.side m).paused = true → (c.s.side m).paused = true ∨ Pauses c d m
  pend : (c.s.side m).pend ≠ [] → (d.s.side m).pend ≠ [] ∨
    ∃ o t, ops c.todo = o :: t ∧ o.isFrame m = true ∧ ∀ p ∈ t, p ∈ ops d.todo
  low : d.Alive m → (d.s.side m).pend ≠ [] → (d.s.side m).flushing = false → Hears d m ∨
    c.Alive m ∧ (c.s.side m).pend ≠ [] ∧ (c.s.side m).flushing = false ∧ (Hears c m → Hears d m)
  resumed : KeepsResume c d m
  ended : .tail (.ended m) ∈ ops d.todo → .tail (.ended m) ∈ ops c.todo ∨
    (d.s.side m).eof = true ∧ (d.Alive m → (d.s.side m).paused = false)

lemma change_of (hb : d.s.bound = c.s.bound) (hio : (d.s.side m).io = (c.s.side m).io)
    (he : (d.s.side m).eof = (c.s.side m).eof)
    (hp : (d.s.side m).paused = true → (c.s.side m).paused = true ∨ Pauses c d m)
    (hq : (c.s.side m).pend ≠ [] → (d.s.side m).pend ≠ [] ∨
      ∃ o t, ops c.todo = o :: t ∧ o.isFrame m = true ∧ ∀ p ∈ t, p ∈ ops d.todo)
    (hl : c.Alive m → (d.s.side m).pend ≠ [] → (d.s.side m).flushing = false → Hears d m ∨
      (c.s.side m).pend ≠ [] ∧ (c.s.side m).flushing = false ∧ (Hears c m → Hears d m))
    (hr : KeepsResume c d m)
    (hend : .tail (.ended m) ∈ ops d.todo → .tail (.ended m) ∈ ops c.todo) : Change c d m := by
  have ha : d.Alive m ↔ c.Alive m := by rw [Config.Alive, hio, Config.Alive]
  exact { attached := fun h => .inl (hb ▸ h), bound := fun h => hb.trans h
          eof := fun h => he.trans h
          alive := fun h => .inl (ha.2 h), born := fun h => .inl (ha.1 h), paused := hp, pend := hq
          low := fun h h1 h2 => (hl (ha.1 h) h1 h2).imp id fun h3 => ⟨ha.1 h, h3⟩
          resumed := hr, ended := fun h => .inl (hend h) }

structure Like (x y : Side) : Prop where
  io : y.io = x.io
  eof : y.eof = x.eof
  pend : y.pend = x.pend
  flushing : y.flushing = x.flushing

lemma Like.change (h : Like (c.s.side m) (d.s.side m)) (hb : d.s.bound = c.s.bound)
    (hp : (d.s.side m).paused = true → (c.s.side m).paused = true ∨ Pauses c d m)
    (hl : c.Alive m → Hears c m → Hears d m) (hr : KeepsResume c d m)
    (he : .tail (.ended m) ∈ ops d.todo → .tail (.ended m) ∈ ops c.todo) : Change c d m :=
  change_of hb h.io h.eof hp (fun hq => .inl (h.pend ▸ hq))
    (fun ha hq hf => .inr ⟨h.pend ▸ hq, h.flushing ▸ hf, hl ha⟩) hr he

lemma change_same (hs : d.s.side m = c.s.side m) (hb : d.s.bound = c.s.bound)
    (hl : c.Alive m → Hears c m → Hears d m) (hr : KeepsResume c d m)
    (he : .tail (.ended m) ∈ ops d.todo → .tail (.ended m) ∈ ops c.todo) : Change c d m :=
  Like.change (hs ▸ ⟨rfl, rfl, rfl, rfl⟩) hb (fun hp => .inl (hs ▸ hp)) hl hr he

section Changes

variable {todo : List Level} {q : Stream × List (Op Tail)} {r : TmIo.Res} {o : Op Tail}

lemma hears_enter_self (h : r.io.Owing ∨ Told r.cb) : Hears (c.enter l r todo) l := by
  rcases h with ho | hk | hk
  · exact .inl (by simpa [enter] using ho)
  · exact .inr (.inl (by simp [enter, hk]))
  · exact .inr (.inr (by simp [enter, hk]))

lemma hears_enter (hio : d.io = c.io) (hm : (c.io l).Owing → r.io.Owing ∨ Told r.cb)
    (ho : (c.io m).Owing) : Hears (d.enter l r todo) m := by
  rcases Leg.eq_or_other l m with rfl | rfl
  · exact hears_enter_self (hm ho)
  · exact .inl (by simpa [enter, hio] using ho)

lemma owing_of_hears (h : Hears c m)
    (hh : ∀ k, c.todo.head? = some (.cb m k) → k ≠ .low ∧ k ≠ .error) : (c.io m).Owing := by
  rcases h with h | h | h
  · exact h
  · exact absurd rfl (hh _ h).1
  · exact absurd rfl (hh _ h).2

lemma change_call {k : Cb} (top : c.todo = .cb l k :: todo) (hb : q.1.bound = c.s.bound)
    (hio : (q.1.side m).io = if m = l ∧ k = .error then none else (c.s.side m).io)
    (he : (c.s.side m).eof = true → (q.1.side m).eof = true)
    (hp : (q.1.side m).paused = (c.s.side m).paused) (hq : (q.1.side m).pend = (c.s.side m).pend)
    (hf : (q.1.side m).flushing = false → (c.s.side m).flushing = false ∧ (m = l → k ≠ .low))
    (hn : .tail (.ended m) ∈ q.2 → (q.1.side m).eof = true ∧
      ((q.1.side m).io ≠ none → (c.s.side m).paused = false)) : Change c (c.relay q todo) m := by
  have hborn : (q.1.side m).io ≠ none → c.Alive m ∧ ¬ (m = l ∧ k = .error) := fun ha => by
    rw [hio] at ha
    split at ha
    · exact absurd rfl ha
    · exact ⟨ha, ‹_›⟩
  refine { attached := fun h => .inl (hb ▸ h), bound := fun h => hb.trans h, eof := he
           alive := fun ha => ?_, born := fun ha => .inl (hborn ha).1
           paused := fun h => .inl (hp.symm.trans h), pend := fun h => .inl (hq ▸ h)
           low := fun ha hpd hfd => ?_, resumed := fun o ho hr => .inl ⟨o, ?_, hr⟩
           ended := fun h => ?_ }
  · by_cases hk : m = l ∧ k = .error
    · obtain ⟨rfl, rfl⟩ := hk
      exact .inr (by simp [top])
    · refine .inl ?_
      rw [Config.Alive, relay, hio, if_neg hk]
      exact ha
  · refine .inr ⟨(hborn ha).1, hq ▸ hpd, (hf hfd).1, fun hh => ?_⟩
    have ho : (c.io m).Owing := owing_of_hears hh fun k' hk => by
      rw [top, head?_cons, some.injEq, Level.cb.injEq] at hk
      obtain ⟨rfl, rfl⟩ := hk
      exact ⟨(hf hfd).2 rfl, fun hk => (hborn ha).2 ⟨rfl, hk⟩⟩
    exact .inl ho
  · simp only [top, ops_cb] at ho
    simp [relay, ho]
  · simp only [relay, ops_append, ops_map_op, mem_append] at h
    rcases h with h | h
    · exact .inr ⟨(hn h).1, fun ha => hp.trans ((hn h).2 ha)⟩
    · exact .inl (by simpa [top] using h)

lemma resumed_op (ht : ops c.todo = o :: t) (hd : ops d.todo = w ++ t)
    (ho : resumes m o = true → (∃ p ∈ w, resumes m p = true) ∨
      (d.Alive m → (d.s.side m).paused = false) ∨ (d.s.side m.other).pend ≠ []) :
    KeepsResume c d m := by
  intro o' ho' hr
  rw [ht, mem_cons] at ho'
  rcases ho' with rfl | ho'
  · refine (ho hr).imp (fun ⟨p, hp, hr⟩ => ⟨p, ?_, hr⟩) id
    simp [hd, hp]
  · exact .inl ⟨o', by simp [hd, ho'], hr⟩

lemma ended_op (ht : ops c.todo = o :: t) (hd : ops d.todo = w ++ t)
    (hl : Leaves o w) (h : .tail (.ended m) ∈ ops d.todo) : .tail (.ended m) ∈ ops c.todo := by
  rw [hd, mem_append] at h
  rcases h with h | h
  · cases hl <;> simp at h
    all_goals rename_i hk; rcases hk with rfl | ⟨l, rfl⟩ <;> simp at h
  · simp [ht, h]

lemma change_io
    (top : c.todo = [] ∧ todo = [] ∨ ∃ f, c.todo = .io l f :: todo) (move : Move (c.io l) r) :
    Change c (c.enter l r todo) m := by
  have hops : ops (c.enter l r todo).todo = ops c.todo := by
    obtain ⟨ht, rfl⟩ | ⟨f, ht⟩ := top <;> simp [ht]
  refine change_same (m := m) rfl rfl (fun _ hh => ?_) (fun o ho hr => .inl ⟨o, hops ▸ ho, hr⟩)
    fun h => hops ▸ h
  refine hears_enter rfl move.owing (owing_of_hears hh fun k hk => ?_)
  obtain ⟨ht, -⟩ | ⟨f, ht⟩ := top <;> simp [ht] at hk

lemma change_ended {k : Cb} {f : Side → Side} (hk : k = .eof ∨ k = .error)
    (top : c.todo = .cb l k :: todo) (hc : (legEnded l (c.s.upd f l)).1.closing = false)
    (hf : ∀ x, f x = { x with io := if k = .error then none else x.io, eof := true })
    (hp : k = .eof → (c.s.side l).paused = false) :
    Change c (c.relay (legEnded l (c.s.upd f l)) todo) m := by
  have hnl : k ≠ .low := by rcases hk with rfl | rfl <;> simp
  obtain ⟨-, he⟩ | ⟨-, -, he⟩ | ⟨-, -, he⟩ := legEnded_cases l (c.s.upd f l)
  · rw [he] at hc ⊢
    rcases maybeClose_cases (c.s.upd f l) with ⟨he', -⟩ | he' <;> rw [he'] at hc ⊢
    · rcases Leg.eq_or_other l m with rfl | rfl <;> apply change_call top <;> simp [hf, hnl]
    · simp at hc
  · rw [he]
    rcases Leg.eq_or_other l m with rfl | rfl <;> apply change_call top <;> simp [hf, hnl]
    · tauto
  · rw [he]
    rcases Leg.eq_or_other l m with rfl | rfl <;> apply change_call top <;> simp [hf, hnl]
    · tauto

lemma change_low (h : Wf c) (top : c.todo = .cb l .low :: todo) (alive : c.Alive l) :
    Change c (c.relay (relayLow l c.s) todo) m := by
  obtain ⟨hf, he⟩ | ⟨hf, he⟩ := relayLow_cases (h.open alive) alive <;> rw [he] <;>
    rcases Leg.eq_or_other l m with rfl | rfl <;> apply change_call top <;> simp [hf]

lemma Source.owing (src : Source c l data todo) (h : Hears c m) :
    (c.io m).Owing := owing_of_hears h fun k hk => by
  rcases src with ⟨-, ⟨ht, -⟩ | ⟨rfl, -, hb, -⟩⟩
  · rw [ht, head?_cons, some.injEq, Level.cb.injEq] at hk
    simp [← hk.2]
  · exact absurd (mem_of_head? hk) hb.no_cb

lemma change_read (h : Wf c) (src : Source c l data todo) (alive : c.Alive l) (ne : data ≠ [])
    (hs : (c.s.side l.other).io ≠ none → (c.s.side l.other).pend = [] →
      (c.s.side l.other).shut = true → ans = .err)
    (hd : d.s = (relayRead l data ans (c.s.noteRead l data)).1)
    (hops : ops d.todo = (relayRead l data ans (c.s.noteRead l data)).2 ++ ops todo)
    (hcl : d.s.closing = false) (hear : ∀ m, (c.io m).Owing → Hears d m)
    (hbusy : ans = .busy → Hears d l.other) : Change c d m := by
  have hc := h.open alive
  have hres : KeepsResume c d m := fun o ho hr => by
    rw [src.ops_eq] at ho
    exact .inl ⟨o, by simp [hops, ho], hr⟩
  have hend : .tail (.ended m) ∈ ops d.todo → .tail (.ended m) ∈ ops c.todo := fun he => by
    rw [hops, mem_append] at he
    rw [src.ops_eq]
    exact he.resolve_left fun hw => by simpa using relayRead_ops _ hw
  have hgoing : (c.s.side l).eof = false ∨ ops c.todo = [] := by
    rw [src.ops_eq]
    rcases src with ⟨-, ⟨-, -, he⟩ | ⟨-, he, -⟩⟩
    · exact he
    · exact .inr he
  have hown : ∀ m, Hears c m → Hears d m := fun m hh => hear m (src.owing hh)
  obtain ⟨hcl', -⟩ | ⟨rfl, hi, he, p, hq⟩ | ⟨ha, ⟨hor, s₁, hr₁, hq⟩ | ⟨hp, hans, s₁, hr₁, hq⟩⟩ :=
    relayRead_cases (l := l) (d := data) hc hs
  · rw [hd] at hcl
    exact absurd hcl' (by simp [hcl])
  · -- the chunk waits for the agent leg, so the stream is not bound
    have hb : c.s.bound = false := Bool.eq_false_iff.2 fun hb =>
      Bool.false_ne_true (he.symm.trans ((h.reach.inv.bound hb).2 hc hi))
    rw [hq] at hd
    have hbd : d.s.bound = c.s.bound := by rw [hd]
    refine Like.change (m := m) ?_ hbd (fun hp => ?_) (fun _ => hown m) hres hend
    · rw [hd]
      cases m <;> exact ⟨rfl, rfl, rfl, rfl⟩
    · cases m with
      | a => exact .inr (.read alive (by rw [Config.Alive, hd]; exact alive) hgoing fun hb' => by
          simp [hbd, hb] at hb')
      | b =>
        rw [hd] at hp
        exact .inl hp
  · rw [hq] at hd
    have hbd : d.s.bound = c.s.bound := by simp [hd, queueBehind, hr₁.bound]
    have hself : d.s.side l = { s₁.side l with paused := true } := by simp [hd, queueBehind]
    have hother : d.s.side l.other =
        { c.s.side l.other with pend := (c.s.side l.other).pend ++ data } := by
      simp [hd, queueBehind, hr₁.other]
    have hao : d.Alive l.other := by simpa [Config.Alive, hother] using ha
    have hne : (d.s.side l.other).pend ≠ [] := by simp [hother, ne]
    have has : d.Alive l := by
      rw [Config.Alive, hself, hr₁.side]
      exact alive
    rcases Leg.eq_or_other l m with rfl | rfl
    · refine Like.change (m := m) ?_ hbd
        (fun _ => .inr (.read alive has hgoing fun _ => ⟨hao, hne⟩))
        (fun _ => hown m) hres hend
      rw [hself, hr₁.side]
      exact ⟨rfl, rfl, rfl, rfl⟩
    · refine change_of hbd (by simp [hother]) (by simp [hother])
        (fun hp => .inl (by simpa [hother] using hp)) (fun _ => .inl hne) (fun _ _ hf => ?_) hres
        hend
      rcases hor with hp | ⟨-, hans⟩
      · exact .inr ⟨hp, by simpa [hother] using hf, hown _⟩
      · exact .inl (hbusy hans)
  · rw [hq] at hd
    refine Like.change (m := m) ?_ (by simp [hd, hr₁.bound]) (fun hp => .inl ?_) (fun _ => hown m)
      hres hend
    · rw [hd]
      rcases Leg.eq_or_other l m with rfl | rfl
      · simpa [hr₁.side] using ⟨rfl, rfl, rfl, rfl⟩
      · simpa [hr₁.other] using ⟨rfl, rfl, rfl, rfl⟩
    · rw [hd] at hp
      rcases Leg.eq_or_other l m with rfl | rfl
      · simpa [hr₁.side] using hp
      · simpa [hr₁.other] using hp

lemma Wf.flushing_of_mem (h : Wf c) (ho : o ∈ ops c.todo) (hf : o.isFrame l = true) :
    (c.s.side l).flushing = true := by
  have hpos : 0 < (ops c.todo).countP (Op.isFrame l) := countP_pos_iff.2 ⟨o, ho, hf⟩
  by_contra hn
  have hst := h.reach.inv.stack l
  rw [Bool.not_eq_true] at hn
  simp only [relayed, hn, Bool.toNat_false] at hst
  exact hpos.ne' hst

lemma owing_of_op (top : c.todo = .op o :: todo) (h : Hears c m) : (c.io m).Owing :=
  owing_of_hears h fun k hk => by simp [top] at hk

variable {t : List (Op Tail)}

lemma change_flush (ht : ops c.todo = .flushLoop l :: t)
    (alive : c.Alive l) (queued : (c.s.side l).pend ≠ [])
    (hs : (c.s.side l).shut = true → ans = .err)
    (run : exec tail ans c.s (.flushLoop l) = some q) (hd : d.s = q.1)
    (hops : ops d.todo = q.2 ++ t)
    (hear : Hears c m → Hears d m) (hbusy : ans = .busy → Hears d l) : Change c d m := by
  have hres : KeepsResume c d m := resumed_op ht hops (by simp [resumes])
  have hend := ended_op (m := m) ht hops (leaves_exec run)
  have hframe : ∃ o u, ops c.todo = o :: u ∧ o.isFrame l = true ∧ ∀ p ∈ u, p ∈ ops d.todo :=
    ⟨_, _, ht, by simp [Op.isFrame], fun p hp => by simp [hops, hp]⟩
  obtain ⟨-, n, rfl⟩ | ⟨hans, rfl⟩ | ⟨-, rfl⟩ := flushLoop_cases queued alive hs run
  · rcases Leg.eq_or_other l m with rfl | rfl <;>
      exact Like.change (by simpa [hd] using ⟨rfl, rfl, rfl, rfl⟩) (by simp [hd])
        (fun hp => .inl (by simpa [hd] using hp)) (fun _ => hear) hres hend
  · rcases Leg.eq_or_other l m with rfl | rfl
    · exact change_of (by simp [hd]) (by simp [hd]) (by simp [hd])
        (fun hp => .inl (by simpa [hd] using hp)) (fun hq => .inl (by simpa [hd] using hq))
        (fun _ _ _ => .inl (hbusy hans)) hres hend
    · exact change_same (by simp [hd]) (by simp [hd]) (fun _ => hear) hres hend
  · rcases Leg.eq_or_other l m with rfl | rfl
    · exact change_of (by simp [hd]) (by simp [hd]) (by simp [hd])
        (fun hp => .inl (by simpa [hd] using hp)) (fun _ => .inr hframe) (by simp [hd]) hres hend
    · exact change_same (by simp [hd]) (by simp [hd]) (fun _ => hear) hres hend

lemma change_tail (ht : ops c.todo = .tail k :: t)
    (hd : d.s = (tail k c.s).1) (hops : ops d.todo = (tail k c.s).2 ++ t)
    (hcl : d.s.closing = false) (hear : Hears c m → Hears d m) : Change c d m := by
  have hend := ended_op (m := m) ht hops leaves_tail
  have hres := resumed_op (m := m) ht hops
  have hlike : ∀ hl : Like (c.s.side m) (d.s.side m), d.s.bound = c.s.bound →
      (d.s.side m).paused = (c.s.side m).paused → _ → Change c d m := fun hl hb hp hr =>
    hl.change hb (fun h => .inl (hp ▸ h)) (fun _ => hear) (hres hr) hend
  have hmc : d.s = streamMaybeClose c.s → d.s = c.s := fun hm => by
    rcases maybeClose_cases c.s with ⟨he, -⟩ | he
    · rw [hm, he]
    · rw [hm, he] at hcl
      simp at hcl
  have hsame : d.s = c.s → _ → Change c d m := fun hs hr =>
    change_same (by rw [hs]) (by rw [hs]) (fun _ => hear) (hres hr) hend
  cases k with
  | maybeClose => exact hsame (hmc hd) (by simp [resumes])
  | ended l =>
    obtain ⟨-, he⟩ | ⟨-, -, he⟩ | ⟨-, -, cut, he⟩ := ended_cases l c.s <;> rw [he] at hd
    · exact hsame (hmc hd) (by simp [resumes])
    all_goals
      rcases Leg.eq_or_other l m with rfl | rfl <;>
        exact hlike (by simpa [hd] using ⟨rfl, rfl, rfl, rfl⟩) (by simp [hd]) (by simp [hd])
          (by simp [resumes])
  | low l =>
    obtain ⟨hp, he⟩ | ⟨-, b, he⟩ | ⟨-, -, cut, he⟩ := low_cases l c.s <;> rw [he] at hd
    · refine hsame (hmc hd) fun hr => .inr (.inr ?_)
      obtain rfl : l = m.other := by simpa [resumes] using hr
      rwa [hmc hd]
    all_goals
      rcases Leg.eq_or_other l m with rfl | rfl <;>
        exact hlike (by simpa [hd] using ⟨rfl, rfl, rfl, rfl⟩) (by simp [hd]) (by simp [hd])
          fun hr => .inl ⟨.tail (.lowResume _), by simp [he], hr⟩
  | lowResume l =>
    obtain ⟨hp, he⟩ | ⟨-, he⟩ := lowResume_cases l c.s <;> rw [he] at hd
    · refine hsame hd fun hr => .inr (.inl fun ha => Bool.eq_false_iff.2 fun hpd => ?_)
      obtain rfl : l = m.other := by simpa [resumes] using hr
      rw [Config.Alive, hd] at ha
      rw [hd] at hpd
      exact ha (by simpa using hp (by simpa using hpd))
    · rcases Leg.eq_or_other l m with rfl | rfl
      · exact hlike (by simpa [hd] using ⟨rfl, rfl, rfl, rfl⟩) (by simp [hd]) (by simp [hd])
          fun hr => absurd (by simpa [resumes] using hr) Leg.other_ne.symm
      · refine Like.change (by simpa [hd] using ⟨rfl, rfl, rfl, rfl⟩) (by simp [hd]) (by simp [hd])
          (fun _ => hear) (hres fun _ => .inr (.inl fun _ => by simp [hd])) hend
  | start =>
    obtain ⟨hp, he⟩ | ⟨-, -, he⟩ | ⟨-, -, he⟩ := start_cases c.s <;> rw [he] at hd
    · cases m with
      | a =>
        refine Like.change (by rw [hd]; exact ⟨rfl, rfl, rfl, rfl⟩) (by rw [hd]; rfl)
          (fun _ => .inr (.start rfl (by simp [ht]) hp (by rw [hd]; rfl)
            fun ha => by rw [Config.Alive, hd]; exact ha)) (fun _ => hear)
          (hres fun _ => .inr (.inr ?_)) hend
        rw [hd]
        exact hp
      | b =>
        exact hlike (by rw [hd]; exact ⟨rfl, rfl, rfl, rfl⟩) (by rw [hd]; rfl) (by rw [hd]; rfl)
          (by simp [resumes])
    all_goals
      cases m with
      | a =>
        exact Like.change (by rw [hd]; exact ⟨rfl, rfl, rfl, rfl⟩) (by rw [hd]; rfl)
          (fun h => by rw [hd] at h; cases h) (fun _ => hear)
          (hres fun _ => .inr (.inl fun _ => by rw [hd]; rfl)) hend
      | b =>
        exact hlike (by rw [hd]; exact ⟨rfl, rfl, rfl, rfl⟩) (by rw [hd]; rfl) (by rw [hd]; rfl)
          (by simp [resumes])

lemma change_op (h : Wf c) (top : c.todo = .op o :: todo) (run : exec tail .ok c.s o = some q)
    (calm : ∀ l, o = .flushLoop l → (c.s.side l).pend = []) (hcl : q.1.closing = false) :
    Change c (c.relay q todo) m := by
  have ht : ops c.todo = o :: ops todo := by simp [top]
  have hops : ops (c.relay q todo).todo = q.2 ++ ops todo := by simp [relay]
  have hear : Hears c m → Hears (c.relay q todo) m := fun hh => .inl (owing_of_op (c := c) top hh)
  have hend := ended_op (m := m) ht hops (leaves_exec run)
  cases o with
  | tail =>
    obtain rfl := some.inj run
    exact change_tail ht rfl hops hcl hear
  | inIo =>
    obtain rfl := some.inj run
    exact change_same rfl rfl (fun _ => hear) (resumed_op ht hops (by simp [resumes])) hend
  | flushLoop l =>
    simp only [exec, calm l rfl, if_true, some.injEq] at run
    subst run
    have hp := calm l rfl
    rcases Leg.eq_or_other l m with rfl | rfl
    · exact change_of (by simp [relay]) (by simp [relay]) (by simp [relay])
        (fun h => .inl (by simpa [relay] using h)) (fun hq => absurd hp hq)
        (by simp [relay, hp]) (resumed_op ht hops (by simp [resumes])) hend
    · exact change_same (by simp [relay]) (by simp [relay]) (fun _ => hear)
        (resumed_op ht hops (by simp [resumes])) hend
  | flushShift l n =>
    simp only [exec, ite_none_left_eq_some, some.injEq] at run
    obtain ⟨-, rfl⟩ := run
    rcases Leg.eq_or_other l m with rfl | rfl
    · have hf := h.flushing_of_mem (l := m) (o := .flushShift m n) (by simp [ht])
        (by simp [Op.isFrame])
      exact change_of (by simp [relay]) (by simp [relay]) (by simp [relay])
        (fun h => .inl (by simpa [relay] using h))
        (fun _ => .inr ⟨_, _, ht, by simp [Op.isFrame], fun p hp => by simp [hops, hp]⟩)
        (by simp [relay, hf]) (resumed_op ht hops (by simp [resumes])) hend
    · exact change_same (by simp [relay]) (by simp [relay]) (fun _ => hear)
        (resumed_op ht hops (by simp [resumes])) hend

lemma change_attach (h : Wf c) (top : c.todo = []) (hc : c.s.closing = false)
    (hb : c.s.bound = false) {conn : Ref} {io : Leg → Obj} :
    Change c { s := (tmStreamRelayAttachAgent (.ssl conn) c.s).1, io := io
               todo := (tmStreamRelayAttachAgent (.ssl conn) c.s).2.map .op ++ readRest .b } m := by
  obtain ⟨-, -, hf, hp⟩ := h.reach.inv.unbound hb
  obtain ⟨s', w, he, -, -, hw, hside⟩ := attach_spec (.ssl conn) hc hb hf fun l => (hp l).1
  have alive : ∀ l, (s'.side l).io ≠ none := fun l => by
    obtain ⟨x, b, d, f, he, -⟩ := hside l
    simp [he]
  obtain ⟨x, b, d, f, hm, hflush⟩ := hside m
  rw [he]
  exact { attached := fun _ => .inr ⟨alive, by simp⟩, bound := by simp [hb], eof := by simp [hm]
          alive := fun _ => .inl (alive m), born := fun _ => .inr ⟨hb, top⟩
          paused := fun h => .inl (by simpa [hm] using h), pend := fun h => absurd (hp m).1 h
          low := fun _ hq hfl => by simp [hflush hq] at hfl, resumed := by simp [KeepsResume, top]
          ended := by rcases hw with rfl | rfl <;> simp }

lemma Effect.change (h : Wf c) (he : Effect c i d) (hcl : d.s.closing = false) : Change c d m := by
  cases he with
  | io alive ok top move => exact change_io top move
  | @drop x todo top dead notOp =>
    have hops : ops todo = ops c.todo := by
      cases x with
      | op o => exact absurd rfl (notOp o)
      | io | cb => simp [top]
    refine change_same rfl rfl
      (fun ha hh => .inl (owing_of_hears (c := c) hh fun k hk => ?_))
      (fun o ho hr => .inl ⟨o, hops ▸ ho, hr⟩) fun he => hops ▸ he
    rw [top, head?_cons, some.injEq] at hk
    exact absurd ha (dead m k hk)
  | @eof l todo top alive going =>
    rw [relayEof_eq (h.open alive)] at hcl ⊢
    exact change_ended (.inl rfl) top hcl (by simp) fun _ => going
  | @error l todo top alive =>
    rw [relayError_eq (h.open alive)] at hcl ⊢
    exact change_ended (.inr rfl) top hcl (by simp) (by simp)
  | low top alive => exact change_low h top alive
  | @queue l data todo src alive ne keeps =>
    have hc := h.open alive
    exact change_read h src alive ne (fun h1 h2 => absurd ⟨hc, h1, h2⟩ keeps) rfl
      (by simp [relay]) hcl (fun m ho => .inl ho) (by simp)
  | @write l data todo w src alive ne hands wrote =>
    exact change_read h src alive ne (fun _ _ hs => wrote.err.1 (h.refuses _ hands.2.1 hs)) rfl
      (by simp) hcl (fun m ho => hears_enter (c := c) rfl wrote.move.owing ho)
      fun hans => hears_enter_self (.inl (wrote.busy hans))
  | @flush l todo w q top alive queued wrote run =>
    exact change_flush (t := ops todo) (by simp [top]) alive queued
      (fun hs => wrote.err.1 (h.refuses _ alive hs)) run rfl (by simp)
      (fun hh => hears_enter (c := c) rfl wrote.move.owing (owing_of_op top hh))
      fun hans => hears_enter_self (.inl (wrote.busy hans))
  | op top run calm => exact change_op h top run calm hcl
  | @shutdown k l r todo top tail alive empty calls halved =>
    exact change_tail (t := ops todo) (by simp [top]) rfl (by simp) hcl
      fun hh => hears_enter (c := c) rfl halved.move.owing (owing_of_op top hh)
  | @resume k l r todo top tail alive calls resumed =>
    exact change_tail (t := ops todo) (by simp [top]) rfl (by simp) hcl
      fun hh => hears_enter (c := c) rfl (fun ho => .inl (resumed.owing ho)) (owing_of_op top hh)
  | @attach conn x top closing bound => exact change_attach h top closing bound
  | keep =>
    exact change_same rfl rfl (fun _ => id) (fun o ho hr => .inl ⟨o, ho, hr⟩) id
  | close => simp at hcl

end Changes

/-! ## The invariants -/

/-- What holds of an open stream: a queue that nobody flushes waits for a drain that will be heard,
a leg whose end is being passed on reads on, and the agent leg is there when its queue could not
be emptied at once. -/
structure Flow (c : Config) : Prop where
  low : ∀ m, c.Alive m → (c.s.side m).pend ≠ [] → (c.s.side m).flushing = false → Hears c m
  ended : ∀ l, .tail (.ended l) ∈ ops c.todo → (c.s.side l).eof = true ∧
    (c.Alive l → (c.s.side l).paused = false)
  unbound : c.s.bound = false → c.s.b.paused = false
  start : (ops c.todo).head? = some (.tail .start) → c.s.b.pend ≠ [] → c.Alive .b

lemma exec_closing
    (hq : exec tail ans s o = some q) (hc : q.1.closing = false) : s.closing = false := by
  have ha : Acts (fun _ => True) (fun _ => True) True s q.1 :=
    acts_exec (fun k _ => acts_tail (fun _ _ _ => trivial) k) hq
  by_contra hs
  rw [ha.closing (by simpa using hs)] at hc
  cases hc

lemma Effect.open (h : Wf c) (he : Effect c i d) (hcl : d.s.closing = false) :
    c.s.closing = false := by
  cases he with
  | io alive => exact h.open alive
  | drop | keep => exact hcl
  | eof top alive => exact h.open alive
  | error top alive => exact h.open alive
  | low top alive => exact h.open alive
  | queue src alive => exact h.open alive
  | write src alive | flush top alive | shutdown top tail alive | resume top tail alive =>
    exact h.open alive
  | op top run => exact exec_closing run hcl
  | attach top closing => exact closing
  | close => simp at hcl

lemma Waiting.not_start (h : Waiting todo) : (ops todo).head? ≠ some (.tail .start) := by
  rcases h with h | ⟨v, h⟩ <;> simp [h]

lemma not_start_ended (hw : Waiting todo) :
    ((legEnded l s).2 ++ ops todo).head? ≠ some (.tail .start) := by
  obtain ⟨-, he⟩ | ⟨-, -, he⟩ | ⟨-, -, he⟩ := legEnded_cases l s <;> rw [he]
  · exact hw.not_start
  · simp
  · simp

lemma not_start_read (hw : Waiting todo) :
    ((relayRead l data ans s).2 ++ ops todo).head? ≠ some (.tail .start) := fun hh => by
  cases hr : (relayRead l data ans s).2 with
  | nil => exact hw.not_start (by simpa [hr] using hh)
  | cons o =>
    have ho : o ∈ (relayRead l data ans s).2 := by simp [hr]
    simp [hr, relayRead_ops o ho] at hh

lemma Leaves.start_head (hl : Leaves o w)
    (hs : Starts (o :: t)) (hh : (w ++ t).head? = some (.tail .start)) :
    w = [] ∧ o.isFrame .b = true := by
  cases hl with
  | none => exact ⟨rfl, hs.2.1 hh⟩
  | tail hk => rcases hk with rfl | ⟨l, rfl⟩ <;> simp at hh
  | _ => simp at hh

lemma Effect.start_alive (h : Wf c) (hst : Starts (ops c.todo)) (he : Effect c i d)
    (hcl : d.s.closing = false) (hh : (ops d.todo).head? = some (.tail .start))
    (hq : d.s.b.pend ≠ []) : d.Alive .b := by
  cases he with
  | @io l r todo alive ok top =>
    rw [ops_enter] at hh
    obtain ⟨-, rfl⟩ | ⟨f, ht⟩ := top
    · simp at hh
    · exact absurd hh (h.below_io ht).1.not_start
  | @drop x todo top dead notOp =>
    cases x with
    | op o => exact absurd rfl (notOp o)
    | io => exact absurd hh (h.below_io top).1.not_start
    | cb => exact absurd hh (h.below_cb top).1.not_start
  | @eof l todo top alive =>
    rw [relayEof_eq (h.open alive), ops_relay] at hh
    exact absurd hh (not_start_ended (h.below_cb top).1)
  | @error l todo top alive =>
    rw [relayError_eq (h.open alive), ops_relay] at hh
    exact absurd hh (not_start_ended (h.below_cb top).1)
  | @low l todo top alive =>
    obtain ⟨-, he⟩ | ⟨-, he⟩ := relayLow_cases (h.open alive) alive <;> simp [he] at hh
  | @queue l data todo src =>
    rw [ops_relay] at hh
    exact absurd hh (not_start_read (src.below h).1)
  | @write l data todo w src =>
    rw [ops_enter, ops_append, ops_map_op] at hh
    exact absurd hh (not_start_read (src.below h).1)
  | @flush l todo w q top alive queued wrote run =>
    rw [ops_enter, ops_append, ops_map_op] at hh
    have ho := ((leaves_exec run).start_head (by simpa [top] using hst) hh).2
    obtain rfl : l = .b := by simpa [Op.isFrame] using ho
    have hs := fun hs => wrote.err.1 (h.refuses _ alive hs)
    obtain ⟨-, n, rfl⟩ | ⟨-, rfl⟩ | ⟨-, rfl⟩ := flushLoop_cases queued alive hs run <;> exact alive
  | @op o todo q top run calm =>
    rw [ops_relay] at hh
    obtain ⟨hw, ho⟩ := (leaves_exec run).start_head (by simpa [top] using hst) hh
    cases o with
    | inIo | tail => simp [Op.isFrame] at ho
    | flushShift =>
      simp only [exec, ite_none_left_eq_some, some.injEq] at run
      simp [← run.2] at hw
    | flushLoop l =>
      -- the loop ends because the queue is empty
      obtain rfl : l = .b := by simpa [Op.isFrame] using ho
      have hp := calm .b rfl
      simp only [exec, hp, if_true, some.injEq] at run
      subst run
      exact absurd hp hq
  | @shutdown k l r todo top | @resume k l r todo top =>
    rw [ops_enter, ops_append, ops_map_op] at hh
    have ho := (leaves_tail.start_head (by simpa [top] using hst) hh).2
    simp [Op.isFrame] at ho
  | @attach conn x top closing bound =>
    have hf : c.s.b.flushing = false := (h.reach.inv.unbound bound).2.2.1
    obtain ⟨-, he⟩ | ⟨-, he⟩ := attach_cases (.ssl conn) closing bound hf <;>
      simp [Config.Alive, he, attached, Stream.side, Stream.upd]
  | keep top => simp [top] at hh
  | close => simp at hcl

lemma Effect.flow (h : Wf c) (hst : Starts (ops c.todo)) (hf : Flow c) (he : Effect c i d)
    (hcl : d.s.closing = false) : Flow d := by
  have hch : ∀ m, Change c d m := fun m => he.change h hcl
  refine ⟨fun m ha hq hfl => ?_, fun l hl => ?_, fun hb => Bool.eq_false_iff.2 fun hp => ?_,
    he.start_alive h hst hcl⟩
  · rcases (hch m).low ha hq hfl with hh | ⟨ha', hq', hfl', hh⟩
    · exact hh
    · exact hh (hf.low m ha' hq' hfl')
  · rcases (hch l).ended hl with hl' | hl'
    · obtain ⟨heof, hgo⟩ := hf.ended l hl'
      refine ⟨(hch l).eof heof, fun ha => Bool.eq_false_iff.2 fun hp => ?_⟩
      have ha' : c.Alive l := ((hch l).born ha).resolve_right fun hn => by simp [hn.2] at hl'
      rcases (hch l).paused hp with hp' | hp'
      · simp [hgo ha'] at hp'
      · cases hp' with
        | read _ _ going =>
          rcases going with hg | hg
          · simp [heof] at hg
          · simp [hg] at hl'
        | start leg top =>
          -- nothing lies below that continuation
          cases ht : ops c.todo with
          | nil => simp [ht] at top
          | cons o =>
            rw [ht] at hst hl' top
            obtain rfl : o = .tail .start := by simpa using top
            simp [hst.1 rfl] at hl'
    · exact hl'
  · have hb' : c.s.bound = false := Bool.eq_false_iff.2 fun hb' => by
      simp [(hch .b).bound hb'] at hb
    rcases (hch .b).paused hp with hp' | hp'
    · exact Bool.false_ne_true ((hf.unbound hb').symm.trans hp')
    · cases hp' with
      | read alive => exact alive (h.reach.inv.unbound hb').1
      | start leg => cases leg

lemma Hears.sync (h : Hears c m) (ha : c.Alive m) : Hears c.sync m := by
  refine h.imp (fun ho => ?_) id
  rw [io_sync ha]
  split
  · exact Obj.pauseRead_spec.2.2.1 ho
  · exact ho

lemma Flow.sync (h : Flow c) : Flow c.sync where
  low m ha hq hf := (h.low m (alive_sync.1 ha) (by simpa using hq) (by simpa using hf)).sync
    (alive_sync.1 ha)
  ended l hl := by simpa using h.ended l hl
  unbound := h.unbound
  start hh hq := alive_sync.2 (h.start hh hq)

lemma unbound_init (h : Init c) : c.s.bound = false ∧ c.s.b.paused = false := by
  rcases h with rfl | ⟨conn, x, -, rfl⟩ <;> exact ⟨rfl, rfl⟩

lemma flow_of_trace (hr : Trace step Init tr c) (hcl : c.s.closing = false) : Flow c := by
  induction hr with
  | start hi =>
    have hops := ops_init hi
    refine ⟨fun m _ hq => absurd ?_ hq, by simp [hops], fun _ => ?_, by simp [hops]⟩
    · exact (((wf_init hi).reach.inv.unbound (unbound_init hi).1).2.2.2 m).1
    · exact (unbound_init hi).2
  | next hr hs ih =>
    have hw := wf_of_trace hr
    obtain ⟨d', rfl, he⟩ := step_effect hw hs
    exact (he.flow hw (shape_of_trace hr).2 (ih (he.open hw hcl)) hcl).sync

/-! ## Paused legs -/

def Backed (c : Config) (l : Leg) : Prop :=
  c.Alive l.other ∧ ((c.s.side l.other).pend ≠ [] ∨ ∃ o ∈ ops c.todo, resumes l o = true)

def SurvivorReads (c : Config) : Prop :=
  ∀ l, c.todo.head? = some (.cb l .error) → (c.s.side l.other).paused = false

lemma resumes_of_looksAt (h : looksAt l o = true) : resumes l o = true ∨ o = .tail (.ended l) := by
  cases o with
  | tail k => cases k <;> simp_all [looksAt, resumes]
  | _ => simp [looksAt] at h

lemma Effect.backed (h : Wf c) (hcov : ∀ l, Covered l (ops c.todo)) (hf : Flow c)
    (hb : c.s.bound = true → ∀ l, c.Alive l → (c.s.side l).paused = true → Backed c l)
    (hok : SurvivorReads c) (he : Effect c i d) (hcl : d.s.closing = false)
    (hbd : d.s.bound = true) (ha : d.Alive l) (hp : (d.s.side l).paused = true) : Backed d l := by
  have hch : ∀ m, Change c d m := fun m => he.change h hcl
  rcases (hch l).paused hp with hpc | hpc
  · by_cases hbc : c.s.bound = true
    · -- paused before
      have hac : c.Alive l := ((hch l).born ha).resolve_right fun hn => by simp [hbc] at hn
      obtain ⟨hao, hback⟩ := hb hbc l hac hpc
      have hao' : d.Alive l.other := ((hch l.other).alive hao).resolve_right fun hk => by
        simpa [hpc] using hok _ hk
      refine ⟨hao', ?_⟩
      rcases hback with hq | ⟨o, ho, hr⟩
      · rcases (hch l.other).pend hq with hq' | ⟨o, t, ht, hfr, hsub⟩
        · exact .inl hq'
        · -- the queue is being flushed, with a continuation below that looks at it
          have hcl := hcov l
          rw [ht] at hcl
          obtain ⟨p, hpt, hl⟩ := hcl.1 hfr
          rcases resumes_of_looksAt hl with hr | rfl
          · exact .inr ⟨p, hsub p hpt, hr⟩
          · have := (hf.ended l (by simp [ht, hpt])).2 hac
            simp [hpc] at this
      · rcases (hch l).resumed o ho hr with hr' | hgo | hq
        · exact .inr hr'
        · simp [hp] at hgo
          exact absurd ha hgo
        · exact .inl hq
    · -- the agent leg has just been attached, and only leg A can have been paused before
      obtain ⟨hab, hst⟩ := ((hch l).attached hbd).resolve_left hbc
      cases l with
      | a => exact ⟨hab .b, .inr ⟨_, hst, rfl⟩⟩
      | b => exact absurd hpc (by simpa [Stream.side] using hf.unbound (by simpa using hbc))
  · cases hpc with
    | read _ _ _ backed => exact ⟨(backed hbd).1, .inl (backed hbd).2⟩
    | start leg top queued same =>
      subst leg
      have hsame : d.s.side Leg.a.other = c.s.side .b := same
      have hab : c.Alive .b := hf.start top queued
      exact ⟨by rwa [Config.Alive, hsame], .inl (by rw [hsame]; exact queued)⟩

lemma backed_of_trace (hr : Trace step Init tr c)
    (hok : ∀ p ∈ tr, SurvivorReads p.1) (hcl : c.s.closing = false) (hb : c.s.bound = true)
    (ha : c.Alive l) (hp : (c.s.side l).paused = true) : Backed c l := by
  induction hr generalizing l with
  | start hi => simp [(unbound_init hi).1] at hb
  | next hr hs ih =>
    simp only [mem_cons, forall_eq_or_imp] at hok
    have hw := wf_of_trace hr
    obtain ⟨d', rfl, he⟩ := step_effect hw hs
    have hc := he.open hw hcl
    have hback := he.backed hw (shape_of_trace hr).1 (flow_of_trace hr hc)
      (fun hbc l => ih hok.2 hc hbc) hok.1 hcl hb (alive_sync.1 ha) (by simpa using hp)
    exact ⟨alive_sync.2 hback.1, by simpa using hback.2⟩

end TunnelMate.StreamIo
