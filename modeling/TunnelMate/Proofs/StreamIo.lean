import TunnelMate.StreamIo
import TunnelMate.Proofs.TmIo
import TunnelMate.Proofs.RelayIo

/-!
# A stream with its io objects runs the relay

With the io objects' frames left out, a run of the joint machine is a run of `Relay`
(`Wf.reach`), so what holds of every relay holds here.
-/

namespace TunnelMate.StreamIo

open Option StreamIo.Config
open List hiding tail

open Duplex Relay
open Tls (Answers SslRead)
open TmIo (Cb Obj Move Wrote HalfClosed Resumed Told)

/-! ## The call stack -/

def ops (todo : List Level) : List (Op Tail) :=
  todo.filterMap fun
    | .op o => some o
    | _ => none

section Stack

variable {t u : List Level} {l : Leg}

@[simp] lemma ops_nil : ops [] = [] := rfl

@[simp] lemma ops_op (o : Op Tail) : ops (.op o :: t) = o :: ops t := rfl

@[simp] lemma ops_io (f : TmIo.Frame) : ops (.io l f :: t) = ops t := rfl

@[simp] lemma ops_cb (k : Cb) : ops (.cb l k :: t) = ops t := rfl

@[simp] lemma ops_append : ops (t ++ u) = ops t ++ ops u := filterMap_append

@[simp] lemma ops_map_op (q : List (Op Tail)) : ops (q.map .op) = q := by
  induction q with
  | nil => rfl
  | cons o q ih => simp [ih]

@[simp] lemma ops_map_io (fs : List TmIo.Frame) : ops (fs.map (.io l)) = [] := by
  induction fs with
  | nil => rfl
  | cons f fs ih => simpa using ih

@[simp] lemma ops_map_cb (ks : List Cb) : ops (ks.map (.cb l)) = [] := by
  induction ks with
  | nil => rfl
  | cons k ks ih => simpa using ih

@[simp] lemma ops_readRest : ops (readRest l) = [] := rfl

def Waiting (t : List Level) : Prop := ops t = [] ∨ ∃ v, ops t = .inIo :: v

def Below : List Level → Prop
  | [] => True
  | .op _ :: t => Below t
  | .io _ f :: t => f.Plain ∧ Waiting t ∧ Below t
  | .cb _ _ :: _ => False

def Stacked : List Level → Prop
  | .cb _ _ :: t => Waiting t ∧ Below t
  | t => Below t

section

variable (h : Below t)
include h

lemma Below.stacked : Stacked t := by
  cases t with
  | nil => trivial
  | cons x => cases x <;> first | exact h | exact h.elim

lemma Below.no_cb {k : Cb} : Level.cb l k ∉ t := by
  induction t with
  | nil => simp
  | cons x t ih =>
    cases x with
    | op => simpa using ih h
    | io => simpa using ih h.2.2
    | cb => exact h.elim

lemma Below.ops (q : List (Op Tail)) : Below (q.map .op ++ t) := by
  induction q with
  | nil => exact h
  | cons o q ih => exact ih

lemma Below.frames (hw : Waiting t) {fs : List TmIo.Frame} (hf : ∀ f ∈ fs, f.Plain) :
    Below (fs.map (.io l) ++ t) := by
  induction fs with
  | nil => exact h
  | cons f fs ih =>
    have hw' : Waiting (fs.map (.io l) ++ t) := by simpa [Waiting] using hw
    exact ⟨hf f (by simp), hw', ih fun g hg => hf g (by simp [hg])⟩

lemma Below.enter {r : TmIo.Res} (hf : ∀ f ∈ r.frames, f.Plain)
    (hw : Waiting t ∨ r.cb = none ∧ r.frames = []) :
    Stacked (r.cb.toList.map (.cb l) ++ r.frames.map (.io l) ++ t) := by
  rcases hw with hw | ⟨hc, hfr⟩
  · have hb := h.frames (l := l) hw hf
    cases hc : r.cb with
    | none => simpa [hc] using hb.stacked
    | some => exact ⟨by simpa [Waiting] using hw, by simpa using hb⟩
  · simpa [hc, hfr] using h.stacked

end

lemma below_readRest : Below (readRest l) :=
  ⟨trivial, .inl rfl, trivial, .inl rfl, trivial⟩

lemma ops_eq_nil_of_idle (h : idle t = true) : ops t = [] := by
  induction t with
  | nil => rfl
  | cons x t ih =>
    simp only [idle, all_cons, Bool.and_eq_true] at h
    cases x with
    | io => simpa using ih h.2
    | op | cb => simp at h

lemma Stacked.below_of_idle (h : Stacked t) (hi : idle t = true) : Below t := by
  cases t with
  | nil => trivial
  | cons x =>
    cases x with
    | cb => simp [idle] at hi
    | op | io => exact h

end Stack

/-! ## Runs of the relay -/

def Reach (c : Duplex.Config Tail) : Prop := ∃ tr, Trace Relay.step Relay.Init tr c

lemma Reach.step {c d : Duplex.Config Tail} {i : Relay.Label} (h : Reach c)
    (hs : Relay.step c i = some d) : Reach d :=
  let ⟨_, hr⟩ := h
  ⟨_, hr.next hs⟩

lemma Reach.inv {c : Duplex.Config Tail} (h : Reach c) : Duplex.Inv c :=
  let ⟨_, hr⟩ := h
  trace_inv hr

def Config.relayed (c : Config) : Duplex.Config Tail := { s := c.s, todo := ops c.todo }

variable {c d : Config} {l m : Leg} {todo : List Level}

lemma open_of_waiting (h : Waiting todo) (s : Stream) :
    (⟨s, ops todo⟩ : Duplex.Config Tail).open = true := by
  rcases h with h | ⟨v, h⟩ <;> simp [Duplex.Config.open, h]

lemma Reach.sync (h : Reach c.relayed) : Reach c.sync.relayed := by
  have ha := h.step (i := .drain .a (c.sync.io .a).drained) rfl
  exact ha.step (i := .drain .b (c.sync.io .b).drained) rfl

/-! ## What holds at every moment -/

@[simp] lemma side_sync : c.sync.s.side l =
    { c.s.side l with drained := (c.sync.io l).drained } := by cases l <;> rfl

@[simp] lemma todo_sync : c.sync.todo = c.todo := rfl

@[simp] lemma closing_sync : c.sync.s.closing = c.s.closing := rfl

@[simp] lemma bound_sync : c.sync.s.bound = c.s.bound := rfl

@[simp] lemma preq_sync : c.sync.s.preq = c.s.preq := rfl

def Config.Alive (c : Config) (l : Leg) : Prop := (c.s.side l).io ≠ none

@[simp] lemma alive_sync : c.sync.Alive l ↔ c.Alive l := by simp [Config.Alive]

lemma io_sync (h : c.Alive l) :
    c.sync.io l = if (c.s.side l).paused then (c.io l).pauseRead else c.io l := by
  simp [sync, show ¬ (c.s.side l).io = none from h]

lemma drained_io_sync (h : c.Alive l) : (c.sync.io l).drained = (c.io l).drained := by
  rw [io_sync h]
  split
  · exact Obj.pauseRead_spec.2.2.2.2
  · rfl

structure Raw (c : Config) : Prop where
  reach : Reach c.relayed
  stack : Stacked c.todo
  ok : ∀ l, c.Alive l → (c.io l).Ok ∨ c.todo.head? = some (.cb l .error)
  paused : ∀ l, c.Alive l → (c.s.side l).paused = true → (c.io l).Paused ∨ (c.io l).Ok
  refuses : ∀ l, c.Alive l → (c.s.side l).shut = true → (c.io l).Refuses
  eof : ∀ l, c.todo.head? = some (.cb l .eof) → (c.s.side l).paused = false
  read : ∀ l d, c.todo.head? = some (.cb l (.read d)) → fits d = true ∧
    (c.s.side l).paused = false ∧ ((c.s.side l).eof = false ∨ ops c.todo = [])

structure Wf (c : Config) : Prop extends Raw c where
  silent : ∀ l, c.Alive l → (c.s.side l).paused = true → (c.io l).Paused
  drained : ∀ l, c.Alive l → (c.s.side l).drained = (c.io l).drained

lemma Raw.sync (h : Raw c) : Wf c.sync := by
  have hsilent : ∀ l, c.Alive l → (c.s.side l).paused = true → (c.sync.io l).Paused := by
    intro l ha hp
    rw [io_sync ha, if_pos hp]
    rcases h.paused l ha hp with hq | hok
    · exact Obj.pauseRead_spec.2.1 hq
    · exact (Obj.pauseRead_spec.1 hok).2
  refine { reach := h.reach.sync, stack := h.stack, ok := fun l ha => ?_
           refuses := fun l ha hs => ?_
           paused := fun l ha hp => .inl (hsilent l (alive_sync.1 ha) (by simpa using hp))
           silent := fun l ha hp => hsilent l (alive_sync.1 ha) (by simpa using hp)
           eof := fun l hh => by simpa using h.eof l hh
           read := fun l d hh => by simpa using h.read l d hh
           drained := fun l _ => by simp }
  · have ha' := alive_sync.1 ha
    rcases h.ok l ha' with hok | hh
    · left
      rw [io_sync ha']
      split
      · exact (Obj.pauseRead_spec.1 hok).1
      · exact hok
    · exact .inr hh
  · have ha' := alive_sync.1 ha
    have hr := h.refuses l ha' (by simpa using hs)
    rw [io_sync ha']
    split
    · exact Obj.pauseRead_spec.2.2.2.1 hr
    · exact hr

/-! ## What the relay does to a stream -/

section Relay

variable {s : Stream} {d : Bytes} {ans : Ans} {k : Tail}

structure Finished (s : Stream) : Prop where
  eof : ∀ l, (s.side l).eof = true
  out : ∀ l, (s.side l).io = none ∨ (s.side l).drained = true
  pend : ∀ l, (s.side l).pend = []
  preq : s.preq = []

lemma maybeClose_cases (s : Stream) : streamMaybeClose s = s ∧ (s.closing = false → ¬ Finished s) ∨
      streamMaybeClose s = tmStreamClose s := by
  unfold streamMaybeClose
  split_ifs with h1 h2 h3 h4
  · refine .inl ⟨rfl, fun hc hf => ?_⟩
    have ha : s.a.eof = true := hf.eof .a
    have hb : s.b.eof = true := hf.eof .b
    simp [hc, ha, hb] at h1
  · refine .inl ⟨rfl, fun hc hf => ?_⟩
    rcases hf.out .a with hn | hd
    · simp [show s.a.io = none from hn] at h2
    · simp [show s.a.drained = true from hd] at h2
  · refine .inl ⟨rfl, fun hc hf => ?_⟩
    rcases hf.out .b with hn | hd
    · simp [show s.b.io = none from hn] at h3
    · simp [show s.b.drained = true from hd] at h3
  · refine .inl ⟨rfl, fun hc hf => ?_⟩
    rcases h4 with h | h | h
    · exact h (hf.pend .a)
    · exact h (hf.pend .b)
    · exact h hf.preq
  · exact .inr rfl

lemma shut_close (s : Stream) (l : Leg) : ((tmStreamClose s).side l).shut = (s.side l).shut := by
  unfold tmStreamClose
  split
  · rfl
  · cases l <;> rfl

lemma not_alive_close (s : Stream) (hc : s.closing = false) (l : Leg) :
    ((tmStreamClose s).side l).io = none := by rw [side_close hc]

lemma flushPend_cases (l : Leg) (s : Stream) :
    (s.side l).flushing = true ∧ (flushPend l s : _ × List (Op Tail)) = (s, []) ∨
      (s.side l).flushing = false ∧ (flushPend l s : _ × List (Op Tail)) =
        (s.upd (fun x => { x with flushing := true }) l, [.flushLoop l]) := by
  unfold flushPend
  split
  · exact .inl ⟨‹_›, rfl⟩
  · rename_i hf
    exact .inr ⟨by simpa using hf, rfl⟩

lemma relayEof_eq (hc : s.closing = false) :
    relayEof l s = legEnded l (s.upd (fun x => { x with eof := true }) l) := by simp [relayEof, hc]

lemma relayError_eq (hc : s.closing = false) :
    relayError l s = legEnded l (s.upd (fun x => { x with io := none, eof := true }) l) := by
  simp [relayError, hc]

lemma legEnded_cases (l : Leg) (s : Stream) :
    (s.side l.other).io = none ∧ legEnded l s = (streamMaybeClose s, []) ∨
      (s.side l.other).io ≠ none ∧ (s.side l.other).flushing = true ∧
        legEnded l s = (s, [.tail (.ended l)]) ∨
      (s.side l.other).io ≠ none ∧ (s.side l.other).flushing = false ∧
        legEnded l s = (s.upd (fun x => { x with flushing := true }) l.other,
          [.flushLoop l.other, .tail (.ended l)]) := by
  unfold legEnded
  split
  · exact .inl ⟨‹_›, rfl⟩
  · rename_i hi
    obtain ⟨hf, he⟩ | ⟨hf, he⟩ := flushPend_cases l.other s
    · exact .inr (.inl ⟨hi, hf, by simp [he]⟩)
    · exact .inr (.inr ⟨hi, hf, by simp [he]⟩)

lemma relayLow_cases (hc : s.closing = false) (hi : (s.side l).io ≠ none) :
    (s.side l).flushing = true ∧ relayLow l s = (s, [.tail (.low l)]) ∨
      (s.side l).flushing = false ∧ relayLow l s =
        (s.upd (fun x => { x with flushing := true }) l, [.flushLoop l, .tail (.low l)]) := by
  simp only [relayLow, hc, Bool.false_eq_true, if_false, hi]
  obtain ⟨hf, he⟩ | ⟨hf, he⟩ := flushPend_cases l s
  · exact .inl ⟨hf, by simp [he]⟩
  · exact .inr ⟨hf, by simp [he]⟩

lemma tmIoWrite_of_ans (hi : (s.side l).io ≠ none) (hs : (s.side l).shut = true → ans = .err) :
    ans = .ok ∧ tmIoWrite l d ans s =
        (.ok, s.upd (fun x => { x with acc := x.acc ++ d, drained := false }) l) ∨
      ans = .busy ∧ tmIoWrite l d ans s = (.busy, s) ∨
      ans = .err ∧ tmIoWrite l d ans s =
        (.err, s.upd (fun x => { x with shut := true, lost := true }) l) := by
  cases ans with
  | ok =>
    have h : ¬ (s.side l).shut = true := fun h => by simpa using hs h
    exact .inl ⟨rfl, by simp [tmIoWrite, hi, h]⟩
  | busy =>
    have h : ¬ (s.side l).shut = true := fun h => by simpa using hs h
    exact .inr (.inl ⟨rfl, by simp [tmIoWrite, hi, h]⟩)
  | err => exact .inr (.inr ⟨rfl, by simp [tmIoWrite]⟩)

def Closes (q : Stream × List (Op Tail)) : Prop :=
  q.1.closing = true ∧ (∀ m, (q.1.side m).io = none) ∧ q.2 = []

lemma closes_close (hc : s.closing = false) : Closes (tmStreamClose s, []) :=
  ⟨closing_close, not_alive_close s hc, rfl⟩

def Passed (l : Leg) (d : Bytes) (ans : Ans) (s : Stream) (q : Stream × List (Op Tail)) : Prop :=
  ((s.side l.other).pend ≠ [] ∨ (s.side l.other).pend = [] ∧ ans = .busy) ∧
      (∃ s₁, Read l d s s₁ ∧ q = (queueBehind l d s₁, [])) ∨
    (s.side l.other).pend = [] ∧ ans = .ok ∧ ∃ s₁, Read l d s s₁ ∧
      q = (s₁.upd (fun x => { x with acc := x.acc ++ d, drained := false }) l.other, [.inIo])

lemma relayWrite_cases {s₁ : Stream} (hr : Read l d s s₁) (hc : s.closing = false)
    (hi : (s.side l.other).io ≠ none)
    (hs : (s.side l.other).pend = [] → (s.side l.other).shut = true → ans = .err) :
    Closes (relayWrite l d ans s₁) ∨ Passed l d ans s (relayWrite l d ans s₁) := by
  unfold relayWrite
  rw [hr.other]
  split
  · rename_i hp
    exact .inr (.inl ⟨.inl hp, s₁, hr, rfl⟩)
  · rename_i hp
    have hp := not_not.1 hp
    have hi' : (s₁.side l.other).io ≠ none := by rwa [hr.other]
    have hs' : (s₁.side l.other).shut = true → ans = .err := by
      rw [hr.other]
      exact hs hp
    obtain ⟨ha, hw⟩ | ⟨ha, hw⟩ | ⟨ha, hw⟩ := tmIoWrite_of_ans (d := d) hi' hs' <;> rw [hw]
    · exact .inr (.inr ⟨hp, ha, s₁, hr, rfl⟩)
    · exact .inr (.inl ⟨.inr ⟨hp, ha⟩, s₁, hr, rfl⟩)
    · exact .inl (closes_close (by simp [hr.closing, hc]))

def counted (l : Leg) (d : Bytes) (s : Stream) : Stream :=
  match l with
  | .a => { s.noteRead .a d with upBytes := s.upBytes + d.length }
  | .b => { s.noteRead .b d with downBytes := s.downBytes + d.length }

lemma Read.counted (l : Leg) (d : Bytes) (s : Stream) : Read l d s (counted l d s) := by
  have hr := Read.note l d s
  cases l <;> exact { hr with }

lemma relayRead_eq (hc : s.closing = false) : relayRead l d ans (s.noteRead l d) =
    if (s.side l.other).io = none then
      if l = .b ∨ s.b.eof = true then (tmStreamClose (counted l d s), [])
      else (queueEarly d (counted l d s), []) else relayWrite l d ans (counted l d s) := by
  have hc' : (s.noteRead l d).closing = false := (Read.note l d s).closing.trans hc
  cases l with
  | a =>
    change relayARead d ans (s.noteRead .a d) = _
    unfold relayARead
    rw [if_neg (by simp [hc'])]
    simp only [reduceCtorEq, false_or]
    rfl
  | b =>
    change relayBRead d ans (s.noteRead .b d) = _
    unfold relayBRead
    rw [if_neg (by simp [hc'])]
    rfl

lemma relayRead_cases (hc : s.closing = false)
    (hs : (s.side l.other).io ≠ none → (s.side l.other).pend = [] → (s.side l.other).shut = true →
      ans = .err) : Closes (relayRead l d ans (s.noteRead l d)) ∨
      (l = .a ∧ s.b.io = none ∧ s.b.eof = false ∧ ∃ p,
        relayRead l d ans (s.noteRead l d) = ({ s with
          upBytes := s.upBytes + d.length, preq := s.preq ++ d
          a := { s.a with rd := s.a.rd ++ d, paused := p } }, [])) ∨
      (s.side l.other).io ≠ none ∧ Passed l d ans s (relayRead l d ans (s.noteRead l d)) := by
  have hr := Read.counted l d s
  have hc' : (counted l d s).closing = false := hr.closing.trans hc
  rw [relayRead_eq hc]
  split
  · rename_i hi
    split
    · exact .inl (closes_close hc')
    · rename_i hne
      obtain ⟨hl, hne⟩ := not_or.1 hne
      obtain rfl : l = .a := by cases l <;> simp_all
      unfold queueEarly
      split
      · exact .inl (closes_close hc')
      · refine .inr (.inl ⟨rfl, hi, by simpa using hne, ?_⟩)
        dsimp only
        split
        · exact ⟨true, rfl⟩
        · exact ⟨s.a.paused, rfl⟩
  · rename_i hi
    exact (relayWrite_cases hr hc hi (hs hi)).imp id fun h => .inr ⟨hi, h⟩

lemma flushLoop_cases {q : Stream × List (Op Tail)} (hp : (s.side l).pend ≠ [])
    (hi : (s.side l).io ≠ none) (hs : (s.side l).shut = true → ans = .err)
    (hq : exec tail ans s (.flushLoop l) = some q) : ans = .ok ∧ (∃ n, q = (s.upd (fun x => { x with
        acc := x.acc ++ (s.side l).pend.take n, drained := false }) l, [.inIo, .flushShift l n])) ∨
      ans = .busy ∧ q = (s.upd (fun x => { x with flushing := false }) l, []) ∨
      ans = .err ∧ q = (s.upd (fun x => { x with
        shut := true, lost := true, pend := [], flushing := false }) l, []) := by
  simp only [exec, hp, hi, if_false] at hq
  obtain ⟨ha, hw⟩ | ⟨ha, hw⟩ | ⟨ha, hw⟩ := tmIoWrite_of_ans
    (d := (s.side l).pend.take (min (s.side l).pend.length flushMax)) hi hs <;> rw [hw] at hq <;>
    cases hq
  · exact .inl ⟨ha, _, rfl⟩
  · exact .inr (.inl ⟨ha, rfl⟩)
  · refine .inr (.inr ⟨ha, ?_⟩)
    cases l <;> rfl

lemma ended_cases (l : Leg) (s : Stream) :
    (s.side l.other).pend ≠ [] ∧ tail (.ended l) s = (streamMaybeClose s, []) ∨
      (s.side l.other).pend = [] ∧ (s.side l.other).io = none ∧
        tail (.ended l) s = (s.upd (fun x => { x with fin := true }) l, [.tail .maybeClose]) ∨
      (s.side l.other).pend = [] ∧ (s.side l.other).io ≠ none ∧ ∃ cut,
        tail (.ended l) s = ((s.upd (fun x => { x with fin := true }) l).upd
          (fun x => { x with shut := true, cuts := cut :: x.cuts }) l.other,
          [.inIo, .tail .maybeClose]) := by
  by_cases hp : (s.side l.other).pend = []
  · by_cases hi : (s.side l.other).io = none
    · exact .inr (.inl ⟨hp, hi, by simp [tail, hp, hi, tmIoShutdownSend]⟩)
    · exact .inr (.inr ⟨hp, hi, _, by simp only [tail, hp, hi, tmIoShutdownSend, ne_eq, not_true,
        if_false, Stream.side_upd_other, cons_append, nil_append]; rfl⟩)
  · exact .inl ⟨hp, by simp [tail, hp]⟩

lemma low_cases (l : Leg) (s : Stream) :
    (s.side l).pend ≠ [] ∧ tail (.low l) s = (streamMaybeClose s, []) ∨
      (s.side l).pend = [] ∧ (∃ b, tail (.low l) s =
        (s.upd (fun x => { x with fin := b || x.fin }) l.other, [.tail (.lowResume l)])) ∨
      (s.side l).pend = [] ∧ (s.side l).io ≠ none ∧ ∃ cut,
        tail (.low l) s = ((s.upd (fun x => { x with fin := true }) l.other).upd
          (fun x => { x with shut := true, cuts := cut :: x.cuts }) l,
          [.inIo, .tail (.lowResume l)]) := by
  have hself : s.upd (fun x => { x with fin := false || x.fin }) l.other = s := by
    cases l <;> simp [Stream.upd, Leg.other]
  by_cases hp : (s.side l).pend = []
  · by_cases hf : ((s.side l.other).eof && !(s.side l.other).fin) = true
    · by_cases hi : (s.side l).io = none
      · exact .inr (.inl ⟨hp, true, by simp [tail, hp, hf, hi, tmIoShutdownSend]⟩)
      · exact .inr (.inr ⟨hp, hi, _, by
          simp only [tail, hp, hf, hi, tmIoShutdownSend, ne_eq, not_true,
          if_false, if_true, Stream.side_upd_other', cons_append, nil_append]; rfl⟩)
    · refine .inr (.inl ⟨hp, false, ?_⟩)
      rw [hself]
      simp only [tail, hp, hf, ne_eq, not_true, if_false]
      rfl
  · exact .inl ⟨hp, by simp [tail, hp]⟩

lemma lowResume_cases (l : Leg) (s : Stream) :
    ((s.side l.other).paused = true → (s.side l.other).io = none) ∧
        tail (.lowResume l) s = (s, [.tail .maybeClose]) ∨
      (s.side l.other).io ≠ none ∧ tail (.lowResume l) s =
        (s.upd (fun x => { x with paused := false }) l.other, [.inIo, .tail .maybeClose]) := by
  by_cases hp : (s.side l.other).paused = true
  · by_cases hi : (s.side l.other).io = none
    · exact .inl ⟨fun _ => hi, by simp [tail, hp, hi]⟩
    · exact .inr ⟨hi, by simp [tail, hp, hi, tmIoResumeRead, isSome_iff_ne_none]⟩
  · exact .inl ⟨fun h => absurd h hp, by simp [tail, hp]⟩

lemma start_cases (s : Stream) :
    s.b.pend ≠ [] ∧ tail .start s = (s.upd (fun x => { x with paused := true }) .a, []) ∨
      s.b.pend = [] ∧ (s.a.paused = true → s.a.io = none) ∧
        tail .start s = (s.upd (fun x => { x with paused := false }) .a, []) ∨
      s.b.pend = [] ∧ s.a.io ≠ none ∧
        tail .start s = (s.upd (fun x => { x with paused := false }) .a, [.inIo]) := by
  by_cases hp : s.b.pend = []
  · by_cases ha : s.a.paused = true
    · by_cases hi : s.a.io = none
      · exact .inr (.inl ⟨hp, fun _ => hi,
          by simp [tail, hp, ha, hi, tmIoResumeRead, Stream.upd, Stream.side]⟩)
      · exact .inr (.inr ⟨hp, hi,
          by simp [tail, hp, ha, hi, tmIoResumeRead, Stream.upd, Stream.side]⟩)
    · have ha' : s.a.paused = false := by simpa using ha
      have hself : s.upd (fun x => { x with paused := false }) .a = s := by
        simp [Stream.upd, ← ha']
      exact .inr (.inl ⟨hp, fun h => absurd h ha, by rw [hself]; simp [tail, hp, ha]⟩)
  · exact .inl ⟨hp, by simp [tail, hp]⟩

lemma attach_cases (io : Io) (hc : s.closing = false) (hu : s.bound = false)
    (hf : s.b.flushing = false) :
    s.preq = [] ∧ tmStreamRelayAttachAgent io s = (attached io s, [.tail .start]) ∨
      s.preq ≠ [] ∧ tmStreamRelayAttachAgent io s =
        ((attached io s).upd (fun x => { x with flushing := true }) .b,
          [.flushLoop .b, .tail .start]) := by
  rw [attachAgent_eq io hc hu]
  split
  · exact .inl ⟨‹_›, rfl⟩
  · have hf' : ((attached io s).side .b).flushing = false := hf
    exact .inr ⟨‹_›, by simp [flushPend, hf']⟩

lemma attach_spec (io : Io) (hc : s.closing = false) (hu : s.bound = false)
    (hf : s.b.flushing = false) (hp : ∀ l, (s.side l).pend = []) : ∃ s' w,
      tmStreamRelayAttachAgent io s = (s', w ++ [.tail .start]) ∧ s'.bound = true ∧ s'.preq = [] ∧
      (w = [] ∨ w = [.flushLoop .b]) ∧ ∀ m, ∃ x b d f, s'.side m = { s.side m with
          io := some x, shut := b, drained := d, flushing := f
          pend := if m = .b then s.preq else [] } ∧
            ((s'.side m).pend ≠ [] → (s'.side m).flushing = true) := by
  have hside : ∀ m, ∃ x b d, (attached io s).side m = { s.side m with
      io := some x, shut := b, drained := d, pend := if m = .b then s.preq else [] } := fun m => by
    obtain ⟨x, b, d, he⟩ := side_attached io s m
    refine ⟨x, b, d, he.trans ?_⟩
    by_cases hq : s.preq = [] <;> cases m <;> simp [hq, hp]
  obtain ⟨hq, he⟩ | ⟨-, he⟩ := attach_cases io hc hu hf
  · refine ⟨_, _, he, rfl, rfl, .inl rfl, fun m => ?_⟩
    obtain ⟨x, b, d, he⟩ := hside m
    exact ⟨x, b, d, (s.side m).flushing, he, by simp [he, hq]⟩
  · refine ⟨_, [.flushLoop .b], he, rfl, rfl, .inr rfl, fun m => ?_⟩
    obtain ⟨x, b, d, he⟩ := hside m
    cases m with
    | a => exact ⟨x, b, d, s.a.flushing, he, fun hne => absurd (congrArg Side.pend he) hne⟩
    | b => exact ⟨x, b, d, true, by simp [he], by simp⟩

lemma halfClose_eq (hk : k = .ended l.other ∨ k = .low l)
    (hin : .inIo ∈ (tail k s).2) : (s.side l).pend = [] ∧ (s.side l).io ≠ none ∧ ∃ cut k',
      tail k s = ((s.upd (fun x => { x with fin := true }) l.other).upd
        (fun x => { x with shut := true, cuts := cut :: x.cuts }) l, [.inIo, .tail k']) := by
  rcases hk with rfl | rfl
  · obtain ⟨-, he⟩ | ⟨-, -, he⟩ | ⟨hp, hi, cut, he⟩ := ended_cases l.other s <;> rw [he] at hin
    · simp at hin
    · simp at hin
    · rw [Leg.other_other] at hp hi he
      exact ⟨hp, hi, cut, _, he⟩
  · obtain ⟨-, he⟩ | ⟨-, b, he⟩ | ⟨hp, hi, cut, he⟩ := low_cases l s <;> rw [he] at hin
    · simp at hin
    · simp at hin
    · exact ⟨hp, hi, cut, _, he⟩

lemma resume_eq (hk : k = .lowResume l.other ∨ k = .start ∧ l = .a)
    (hin : .inIo ∈ (tail k s).2) : (s.side l).io ≠ none ∧
      ∃ v, (v = [.tail .maybeClose] ∨ k = .start ∧ v = []) ∧
      tail k s = (s.upd (fun x => { x with paused := false }) l, .inIo :: v) := by
  rcases hk with rfl | ⟨rfl, rfl⟩
  · obtain ⟨-, he⟩ | ⟨hi, he⟩ := lowResume_cases l.other s <;> rw [he] at hin
    · simp at hin
    · rw [Leg.other_other] at hi he
      exact ⟨hi, _, .inl rfl, he⟩
  · obtain ⟨-, he⟩ | ⟨-, -, he⟩ | ⟨-, hi, he⟩ := start_cases s <;> rw [he] at hin
    · simp at hin
    · simp at hin
    · exact ⟨hi, _, .inr ⟨rfl, rfl⟩, he⟩

end Relay

/-! ## What a step can do -/

def Source (c : Config) (l : Leg) (d : Bytes) (todo : List Level) : Prop :=
  d.length ≤ 65536 ∧
    (c.todo = .cb l (.read d) :: todo ∧ (c.s.side l).paused = false ∧
        ((c.s.side l).eof = false ∨ ops todo = []) ∨
      c.todo = todo ∧ ops todo = [] ∧ Below todo ∧ (c.s.side l).rd = [])

def Hands (c : Config) (l : Leg) : Prop :=
  c.s.closing = false ∧ c.Alive l.other ∧ (c.s.side l.other).pend = []

inductive Effect (c : Config) (i : Label) : Config → Prop
  | io {l : Leg} {r : TmIo.Res} {todo : List Level} (alive : c.Alive l) (ok : (c.io l).Ok)
      (top : c.todo = [] ∧ todo = [] ∨ ∃ f, c.todo = .io l f :: todo) (move : Move (c.io l) r)
      (loud : (∀ ev e, i = .event l ev e → TmIo.drainsSilently ev (c.io l) = false) →
        Move.Loud (c.io l) r)
      (data : ∀ d, r.cb = some (.read d) →
        fits d = true ∧ ((c.s.side l).eof = false ∨ ops todo = [])) : Effect c i (c.enter l r todo)
  | drop {x : Level} {todo : List Level} (top : c.todo = x :: todo)
      (dead : ∀ l k, x = .cb l k → ¬ c.Alive l)
      (notOp : ∀ o, x ≠ .op o) : Effect c i { c with todo := todo }
  | eof {l : Leg} {todo : List Level} (top : c.todo = .cb l .eof :: todo) (alive : c.Alive l)
      (going : (c.s.side l).paused = false) : Effect c i (c.relay (relayEof l c.s) todo)
  | error {l : Leg} {todo : List Level} (top : c.todo = .cb l .error :: todo) (alive : c.Alive l) :
      Effect c i (c.relay (relayError l c.s) todo)
  | low {l : Leg} {todo : List Level} (top : c.todo = .cb l .low :: todo) (alive : c.Alive l) :
      Effect c i (c.relay (relayLow l c.s) todo)
  | queue {l : Leg} {d : Bytes} {todo : List Level} (src : Source c l d todo) (alive : c.Alive l)
      (ne : d ≠ [])
      (keeps : ¬ Hands c l) : Effect c i (c.relay (relayRead l d .ok (c.s.noteRead l d)) todo)
  | write {l : Leg} {d : Bytes} {todo : List Level} {w : Ans × TmIo.Res} (src : Source c l d todo)
      (alive : c.Alive l) (ne : d ≠ [])
      (hands : Hands c l) (wrote : Wrote (c.io l.other) w) :
      Effect c i ((c.relay (relayRead l d w.1 (c.s.noteRead l d)) todo).enter l.other w.2
        ((relayRead l d w.1 (c.s.noteRead l d)).2.map .op ++ todo))
  | flush {l : Leg} {todo : List Level} {w : Ans × TmIo.Res} {q : Stream × List (Op Tail)}
      (top : c.todo = .op (.flushLoop l) :: todo) (alive : c.Alive l)
      (queued : (c.s.side l).pend ≠ []) (wrote : Wrote (c.io l) w)
      (run : exec tail w.1 c.s (.flushLoop l) = some q) :
      Effect c i ((c.relay q todo).enter l w.2 (q.2.map .op ++ todo))
  | op {o : Op Tail} {todo : List Level} {q : Stream × List (Op Tail)}
      (top : c.todo = .op o :: todo) (run : exec tail .ok c.s o = some q)
      (calm : ∀ l, o = .flushLoop l → (c.s.side l).pend = [])
      (quiet : ∀ k, o = .tail k → .inIo ∉ q.2) : Effect c i (c.relay q todo)
  | shutdown {k : Tail} {l : Leg} {r : TmIo.Res} {todo : List Level}
      (top : c.todo = .op (.tail k) :: todo)
      (tail : k = .ended l.other ∨ k = .low l) (alive : c.Alive l) (empty : (c.s.side l).pend = [])
      (calls : .inIo ∈ (Relay.tail k c.s).2) (halved : HalfClosed (c.io l) r) :
      Effect c i ((c.relay (Relay.tail k c.s) todo).enter l r
        ((Relay.tail k c.s).2.map .op ++ todo))
  | resume {k : Tail} {l : Leg} {r : TmIo.Res} {todo : List Level}
      (top : c.todo = .op (.tail k) :: todo)
      (tail : k = .lowResume l.other ∨ k = .start ∧ l = .a) (alive : c.Alive l)
      (calls : .inIo ∈ (Relay.tail k c.s).2) (resumed : Resumed (c.io l) r) :
      Effect c i ((c.relay (Relay.tail k c.s) todo).enter l r
        ((Relay.tail k c.s).2.map .op ++ todo))
  | attach {conn : Ref} {x : Tls.Stream} (top : c.todo = []) (closing : c.s.closing = false)
      (bound : c.s.bound = false) (fresh : attachable x = true) :
      Effect c i
        { s := (tmStreamRelayAttachAgent (.ssl conn) c.s).1
          todo := (tmStreamRelayAttachAgent (.ssl conn) c.s).2.map .op ++ readRest .b
          io := fun l => if l = .a then
            if c.s.a.io = none then .tcp (TmIo.tcpStart {}) else c.io .a else .tls x }
  | keep (top : c.todo = []) : Effect c i c
  | close (top : c.todo = []) : Effect c i { c with s := tmStreamClose c.s }

lemma Wf.legs (h : Wf c) (hh : ∀ l, c.todo.head? ≠ some (.cb l .error)) (ha : c.Alive l) :
    (c.io l).Ok := (h.ok l ha).resolve_right (hh l)

lemma alive_iff : (c.s.side l).io.isSome = true ↔ c.Alive l := by
  simp [Config.Alive, isSome_iff_ne_none]

variable {e : Answers} {i : Label} {k : Tail} {o : Op Tail}

lemma effect_read {d : Bytes} (h : Wf c) (src : Source c l d todo)
    (ha : c.Alive l) (hd : d ≠ []) : Effect c i (read l d e c todo) := by
  have hhead : ∀ k, c.todo.head? ≠ some (.cb k .error) := fun k hk => by
    rcases src with ⟨-, ⟨ht, -⟩ | ⟨ht, -, hb, -⟩⟩
    · simp [ht] at hk
    · rw [ht] at hk
      exact hb.no_cb (mem_of_head? hk)
  unfold read
  dsimp only
  split
  · rename_i hc
    simp only [Bool.and_eq_true, Bool.not_eq_true', alive_iff, List.isEmpty_iff] at hc
    obtain ⟨⟨hcl, hao⟩, hp⟩ := hc
    have hw := (h.legs hhead hao).write (e := e) (length_pos_iff.2 hd) src.1
    exact .write src ha hd ⟨hcl, hao, hp⟩ hw
  · rename_i hc
    simp only [Bool.and_eq_true, Bool.not_eq_true', alive_iff, List.isEmpty_iff] at hc
    exact .queue src ha hd fun ⟨h1, h2, h3⟩ => hc ⟨⟨h1, h2⟩, h3⟩

variable {s : Stream}

lemma effect_tail (h : Wf c)
    (ht : c.todo = .op (.tail k) :: todo) (hr : runOp (.tail k) e c todo = some d) :
    Effect c i d := by
  have hhead : ∀ l, c.todo.head? ≠ some (.cb l .error) := by simp [ht]
  simp only [runOp] at hr
  split at hr
  · rename_i hin
    cases hr
    cases k with
    | ended l =>
      have hk : Tail.ended l = .ended l.other.other := by rw [Leg.other_other]
      obtain ⟨hp, ha, -⟩ := halfClose_eq (.inl hk) hin
      exact .shutdown ht (.inl hk) ha hp hin (h.legs hhead ha).shutdownSend
    | low =>
      obtain ⟨hp, ha, -⟩ := halfClose_eq (.inr rfl) hin
      exact .shutdown ht (.inr rfl) ha hp hin (h.legs hhead ha).shutdownSend
    | lowResume l =>
      have hk : Tail.lowResume l = .lowResume l.other.other := by rw [Leg.other_other]
      obtain ⟨ha, -⟩ := resume_eq (.inl hk) hin
      exact .resume ht (.inl hk) ha hin (h.legs hhead ha).resumeRead
    | start =>
      obtain ⟨ha, -⟩ := resume_eq (.inr ⟨rfl, rfl⟩) hin
      exact .resume ht (.inr ⟨rfl, rfl⟩) ha hin (h.legs hhead ha).resumeRead
    | maybeClose => simp [tail] at hin
  · rename_i hin
    cases hr
    exact .op ht rfl (by simp) fun k' hk => by cases hk; exact hin

lemma effect_op (h : Wf c) (ht : c.todo = .op o :: todo)
    (hr : runOp o e c todo = some d) : Effect c i d := by
  have hhead : ∀ l, c.todo.head? ≠ some (.cb l .error) := by simp [ht]
  cases o with
  | tail => exact effect_tail h ht hr
  | inIo =>
    simp only [runOp] at hr
    obtain ⟨q, hq, rfl⟩ := map_eq_some_iff.1 hr
    exact .op ht hq (by simp) (by simp)
  | flushShift =>
    obtain ⟨q, hq, rfl⟩ := map_eq_some_iff.1 hr
    exact .op ht hq (by simp) (by simp)
  | flushLoop l =>
    simp only [runOp] at hr
    split at hr
    · rename_i hc
      obtain ⟨q, hq, rfl⟩ := map_eq_some_iff.1 hr
      have hn : 0 < min (c.s.side l).pend.length flushMax :=
        lt_min (length_pos_iff.2 hc.1) (by decide)
      have hw := (h.legs hhead hc.2).write (e := e) hn (min_le_right _ _)
      exact .flush ht hc.2 hc.1 hw hq
    · rename_i hc
      obtain ⟨q, hq, rfl⟩ := map_eq_some_iff.1 hr
      refine .op ht hq (fun l' hl' => ?_) (by simp)
      cases hl'
      by_contra hp
      have hi : (c.s.side l).io = none := not_not.1 fun hi => hc ⟨hp, hi⟩
      simp [exec, hp, hi] at hq

lemma effect_act (h : Wf c) (hs : act c i = some d) : Effect c i d := by
  cases i with
  | event l ev e =>
    simp only [act, alive_iff, ite_none_right_eq_some, map_eq_some_iff] at hs
    obtain ⟨⟨ht, ha, hf⟩, r, hr, rfl⟩ := hs
    have hok := h.legs (by simp [ht]) ha
    obtain ⟨hm, hl, hdata⟩ := hok.event hr
    refine .io ha hok (.inl ⟨ht, rfl⟩) hm (fun hq => hl (hq ev e rfl)) fun d hd => ?_
    rw [hdata d hd] at hf
    exact ⟨hf, .inr rfl⟩
  | run e r =>
    simp only [act] at hs
    split at hs
    · cases hs
    · rename_i l k todo ht
      split at hs
      · rename_i ha
        rw [alive_iff] at ha
        cases hs
        cases k with
        | read d =>
          obtain ⟨hf, he⟩ := h.read l d (by simp [ht])
          simp only [fits, Bool.and_eq_true, decide_eq_true_eq] at hf
          exact effect_read h ⟨hf.2, .inl ⟨ht, by simpa [ht] using he⟩⟩ ha (by simpa using hf.1)
        | eof => exact .eof ht ha (h.eof l (by simp [ht]))
        | error => exact .error ht ha
        | low => exact .low ht ha
      · rename_i ha
        rw [alive_iff] at ha
        cases hs
        refine .drop ht (fun l' k' hx => ?_) (by simp)
        cases hx
        exact ha
    · rename_i l f todo ht
      have hst : Stacked (.io l f :: todo) := ht ▸ h.stack
      split at hs
      · cases hs
        exact .drop ht (by simp) (by simp)
      rename_i ha
      simp only [ite_none_right_eq_some, some.injEq] at hs
      obtain ⟨hf, rfl⟩ := hs
      have hok := h.legs (by simp [ht]) ha
      obtain ⟨hm, hl, hdata⟩ := hok.exec (e := e) (a := r) (p := True) hst.1
      refine .io ha hok (.inr ⟨f, ht⟩) hm (fun _ => hl trivial) fun d hd => ?_
      obtain ⟨i, o, rfl⟩ := hdata d hd
      simp only [fitsRead, Bool.and_eq_true, Bool.not_eq_true'] at hf
      exact ⟨hf.1, .inl hf.2⟩
    · rename_i o todo ht
      exact effect_op h ht hs
  | ingest =>
    simp only [act, alive_iff, ite_none_right_eq_some, some.injEq] at hs
    obtain ⟨⟨hi, ha, -, -, hrd, hd, hlen⟩, rfl⟩ := hs
    exact effect_read h
      ⟨hlen, .inr ⟨rfl, ops_eq_nil_of_idle hi, h.stack.below_of_idle hi, hrd⟩⟩ ha hd
  | attach =>
    simp only [act, ite_none_right_eq_some, some.injEq] at hs
    obtain ⟨⟨ht, hc, hb, hx⟩, rfl⟩ := hs
    exact .attach ht hc hb hx
  | bindTimer =>
    obtain ⟨ht, rfl⟩ := of_guard hs
    split
    · exact .keep ht
    · exact .close ht
  | close =>
    obtain ⟨ht, rfl⟩ := of_guard hs
    exact .close ht

/-! ## Every step keeps a configuration well formed -/

section Steps

variable {i : Label} {q : Stream × List (Op Tail)} {r : TmIo.Res}

def Fit (c : Config) (s : Stream) (l : Leg) : Prop :=
  (s.side l).io ≠ none → (c.io l).Ok ∧ ((s.side l).shut = true → (c.io l).Refuses)

lemma Wf.fit (h : Wf c) (hh : ∀ l, c.todo.head? ≠ some (.cb l .error)) (l : Leg) : Fit c c.s l :=
  fun ha => ⟨h.legs hh ha, h.refuses l ha⟩

lemma alive_of_shrinks {s s' : Stream} (h : Shrinks s s') (ha : (s'.side l).io ≠ none) :
    (s.side l).io ≠ none := by
  rcases h l with he | hn
  · rwa [← he]
  · exact absurd hn ha

lemma Fit.mono (h : Fit c c.s l) (hs : Shrinks c.s s)
    (hsh : (s.side l).io ≠ none → (s.side l).shut = (c.s.side l).shut) : Fit c s l := fun ha =>
  have hl := h (alive_of_shrinks hs ha)
  ⟨hl.1, fun hs => hl.2 ((hsh ha).symm.trans hs)⟩

lemma raw_relay (hr : Reach ⟨q.1, q.2 ++ ops todo⟩) (hb : Below todo) (hf : ∀ l, Fit c q.1 l) :
    Raw (c.relay q todo) := by
  have hb' : Below (c.relay q todo).todo := hb.ops q.2
  have hnh : ∀ l k, (c.relay q todo).todo.head? ≠ some (.cb l k) := fun l k hk =>
    hb'.no_cb (mem_of_head? hk)
  exact { reach := by simpa [relayed, relay] using hr, stack := hb'.stacked
          ok := fun l ha => .inl (hf l ha).1, paused := fun l ha _ => .inr (hf l ha).1
          refuses := fun l ha => (hf l ha).2, eof := fun l hk => absurd hk (hnh l _)
          read := fun l d hk => absurd hk (hnh l _) }

lemma raw_enter (hr : Reach ⟨q.1, q.2 ++ ops todo⟩) (hb : Below todo)
    (hw : Waiting (q.2.map .op ++ todo) ∨ r.cb = none ∧ r.frames = []) (hf : Fit c q.1 l.other)
    (hok : r.io.Ok ∨ r.cb = some .error)
    (hp : (q.1.side l).io ≠ none → (q.1.side l).paused = true → r.io.Paused ∨ r.io.Ok)
    (hre : (q.1.side l).io ≠ none → (q.1.side l).shut = true → r.io.Refuses)
    (hplain : ∀ f ∈ r.frames, f.Plain) (heof : r.cb = some .eof → (q.1.side l).paused = false)
    (hdata : ∀ d, r.cb = some (.read d) → fits d = true ∧ (q.1.side l).paused = false ∧
        ((q.1.side l).eof = false ∨ q.2 ++ ops todo = [])) :
    Raw ((c.relay q todo).enter l r (q.2.map .op ++ todo)) := by
  have hb' := hb.ops q.2
  have hhead : ∀ m k, ((c.relay q todo).enter l r (q.2.map .op ++ todo)).todo.head? =
      some (.cb m k) → m = l ∧ r.cb = some k := by
    intro m k hk
    rcases hcb : r.cb with _ | k'
    · simp only [enter, hcb, toList_none, map_nil, nil_append] at hk
      have hb'' : Below (r.frames.map (.io l) ++ (q.2.map .op ++ todo)) := by
        rcases hw with hw | ⟨-, hfr⟩
        · exact hb'.frames hw hplain
        · simpa [hfr] using hb'
      exact absurd (mem_of_head? hk) hb''.no_cb
    · simp only [enter, hcb, toList_some, map_cons, map_nil,
        cons_append,
        head?_cons, some.injEq, Level.cb.injEq] at hk
      exact ⟨hk.1.symm, by rw [hk.2]⟩
  have hio : Function.update c.io l r.io l.other = c.io l.other :=
    Function.update_of_ne Leg.other_ne _ _
  have hiol : Function.update c.io l r.io l = r.io := Function.update_self ..
  refine { reach := by simpa [relayed, enter, relay] using hr
           stack := hb'.enter hplain hw, ok := fun m ha => ?_, paused := fun m ha hp' => ?_
           refuses := fun m ha hs => ?_, eof := fun m hk => ?_, read := fun m d hk => ?_ }
  · rcases Leg.eq_or_other l m with rfl | rfl
    · refine hok.imp (fun h => by rwa [← hiol] at h) fun hcb => ?_
      simp [enter, hcb]
    · exact .inl (by simpa only [enter, relay, hio] using (hf ha).1)
  · rcases Leg.eq_or_other l m with rfl | rfl
    · simpa only [enter, relay, hiol] using hp ha hp'
    · exact .inr (by simpa only [enter, relay, hio] using (hf ha).1)
  · rcases Leg.eq_or_other l m with rfl | rfl
    · simpa only [enter, relay, hiol] using hre ha hs
    · simpa only [enter, relay, hio] using (hf ha).2 hs
  · obtain ⟨rfl, hcb⟩ := hhead m _ hk
    exact heof hcb
  · obtain ⟨rfl, hcb⟩ := hhead m _ hk
    simpa [enter, relay] using hdata d hcb

lemma not_data (h : r.cb = none ∨ Told r.cb) : r.cb ≠ some .eof ∧ ∀ d, r.cb ≠ some (.read d) := by
  rcases h with h | h | h <;> simp [h]

section

variable (h : Wf c)
include h

lemma raw_call (ha : c.Alive l) (hh : ∀ m, c.todo.head? ≠ some (.cb m .error))
    (hr : Reach ⟨q.1, q.2 ++ ops todo⟩) (hb : Below todo)
    (hw : Waiting (q.2.map .op ++ todo) ∨ r.cb = none ∧ r.frames = []) (hs : Shrinks c.s q.1)
    (hother : (q.1.side l.other).io ≠ none → (q.1.side l.other).shut = (c.s.side l.other).shut)
    (hp : (q.1.side l).io ≠ none → (q.1.side l).paused = (c.s.side l).paused)
    (hre : (q.1.side l).io ≠ none → (q.1.side l).shut = (c.s.side l).shut ∨ r.io.Refuses)
    (hm : Move (c.io l) r) (htold : r.cb = none ∨ Told r.cb) :
    Raw ((c.relay q todo).enter l r (q.2.map .op ++ todo)) := by
  refine raw_enter hr hb hw ((h.fit hh l.other).mono hs hother) hm.ok
    (fun hq hpq => .inl (hm.paused (h.silent l ha ((hp hq).symm.trans hpq))))
    (fun hq hsq => ?_) hm.plain (fun he => absurd he (not_data htold).1)
    fun d hd => absurd hd ((not_data htold).2 d)
  rcases hre hq with he | hre
  · exact hm.refuses (h.refuses l ha (he.symm.trans hsq))
  · exact hre

lemma Wf.open (ha : c.Alive l) : c.s.closing = false :=
  (h.reach.inv.of_io (c := c.relayed) (alive_iff.2 ha)).1

lemma Wf.below_cb {k : Cb} (ht : c.todo = .cb l k :: todo) :
    Waiting todo ∧ Below todo ∧ Reach ⟨c.s, ops todo⟩ := by
  have hst := h.stack
  have hr := h.reach
  rw [ht] at hst
  simp only [relayed, ht, ops_cb] at hr
  exact ⟨hst.1, hst.2, hr⟩

lemma Wf.below_io {f : TmIo.Frame} (ht : c.todo = .io l f :: todo) :
    Waiting todo ∧ Below todo ∧ Reach ⟨c.s, ops todo⟩ := by
  have hst : Stacked (.io l f :: todo) := ht ▸ h.stack
  have hr := h.reach
  simp only [relayed, ht, ops_io] at hr
  exact ⟨hst.2.1, hst.2.2, hr⟩

lemma Wf.below_op (ht : c.todo = .op o :: todo) : Below todo ∧ Reach ⟨c.s, o :: ops todo⟩ := by
  have hst := h.stack
  have hr := h.reach
  rw [ht] at hst
  simp only [relayed, ht, ops_op] at hr
  exact ⟨hst, hr⟩

lemma Source.below {d : Bytes} (src : Source c l d todo) :
    Waiting todo ∧ Below todo ∧ Reach ⟨c.s, ops todo⟩ ∧
      ∀ m, c.todo.head? ≠ some (.cb m .error) := by
  rcases src with ⟨-, ⟨ht, -⟩ | ⟨rfl, ho, hb, -⟩⟩
  · obtain ⟨hw, hb, hr⟩ := h.below_cb ht
    exact ⟨hw, hb, hr, by simp [ht]⟩
  · exact ⟨.inl ho, hb, h.reach, fun m hk => hb.no_cb (mem_of_head? hk)⟩

end

variable {ans : Ans} {x : Tls.Stream}

lemma Reach.read {d : Bytes} (h : Reach ⟨c.s, ops todo⟩) (hw : Waiting todo)
    (ha : c.Alive l) : Reach ⟨(relayRead l d ans (c.s.noteRead l d)).1,
      (relayRead l d ans (c.s.noteRead l d)).2 ++ ops todo⟩ := by
  refine h.step (i := .read l d ans) ?_
  rw [Relay.step, open_of_waiting hw, alive_iff.2 ha]
  rfl

lemma tail_shut (hk : .inIo ∉ (tail k s).2) : ((tail k s).1.side m).shut = (s.side m).shut := by
  have hmc : ((streamMaybeClose s).side m).shut = (s.side m).shut := by
    rcases maybeClose_cases s with ⟨he, -⟩ | he
    · rw [he]
    · rw [he, shut_close]
  cases k with
  | maybeClose => exact hmc
  | ended l =>
    obtain ⟨-, he⟩ | ⟨-, -, he⟩ | ⟨-, -, cut, he⟩ := ended_cases l s <;> rw [he] at hk ⊢
    · exact hmc
    · rcases Leg.eq_or_other l m with rfl | rfl <;> simp
    · simp at hk
  | low l =>
    obtain ⟨-, he⟩ | ⟨-, b, he⟩ | ⟨-, -, cut, he⟩ := low_cases l s <;> rw [he] at hk ⊢
    · exact hmc
    · rcases Leg.eq_or_other l m with rfl | rfl <;> simp
    · simp at hk
  | lowResume l =>
    obtain ⟨-, he⟩ | ⟨-, he⟩ := lowResume_cases l s <;> rw [he] at hk ⊢
    simp at hk
  | start =>
    obtain ⟨-, he⟩ | ⟨-, -, he⟩ | ⟨-, -, he⟩ := start_cases s <;> rw [he] at hk ⊢
    · cases m <;> rfl
    · cases m <;> rfl
    · simp at hk

lemma op_shut (hq : exec tail .ok s o = some q)
    (hcalm : ∀ l, o = .flushLoop l → (s.side l).pend = [])
    (hquiet : ∀ k, o = .tail k → .inIo ∉ q.2) : (q.1.side m).shut = (s.side m).shut := by
  cases o with
  | inIo =>
    cases hq
    rfl
  | flushLoop l =>
    simp only [exec, hcalm l rfl, if_true, some.injEq] at hq
    subst hq
    rcases Leg.eq_or_other l m with rfl | rfl <;> simp
  | flushShift l =>
    simp only [exec, ite_none_left_eq_some, some.injEq] at hq
    obtain ⟨-, rfl⟩ := hq
    rcases Leg.eq_or_other l m with rfl | rfl <;> simp
  | tail k =>
    cases hq
    exact tail_shut (hquiet k rfl)

lemma ended_shut {f : Side → Side} (hf : ∀ x, (f x).shut = x.shut) :
    ((legEnded l (s.upd f l)).1.side m).shut = (s.side m).shut := by
  have hu : ((s.upd f l).side m).shut = (s.side m).shut := by
    rcases Leg.eq_or_other l m with rfl | rfl <;> simp [hf]
  rw [← hu]
  generalize s.upd f l = s
  obtain ⟨-, he⟩ | ⟨-, -, he⟩ | ⟨-, -, he⟩ := legEnded_cases l s <;> rw [he]
  · exact tail_shut (k := .maybeClose) (by simp [tail])
  · rcases Leg.eq_or_other l m with rfl | rfl <;> simp

/-- A read leaves a leg that survives it as it was, the read leg's backpressure aside. -/
lemma read_spec {d : Bytes} (hc : s.closing = false)
    (hs : (s.side l.other).io ≠ none → (s.side l.other).pend = [] →
      (s.side l.other).shut = true → ans = .err) : let q := relayRead l d ans (s.noteRead l d)
    (∀ m, (q.1.side m).io ≠ none → (q.1.side m).shut = (s.side m).shut ∧
      (m = l.other → (q.1.side m).paused = (s.side m).paused)) ∧
      (q.2 = [] ∨ q.2 = [.inIo]) := by
  intro q
  obtain ⟨-, hd, he⟩ | ⟨rfl, -, -, p, he⟩ | ⟨-, ⟨-, s₁, hr, he⟩ | ⟨-, -, s₁, hr, he⟩⟩ :=
    relayRead_cases (l := l) (d := d) hc hs
  · exact ⟨fun m ha => absurd (hd m) ha, .inl he⟩
  all_goals
    refine ⟨fun m _ => ?_, by simp [q, he]⟩
    simp only [q, he]
  · cases m <;> simp [Stream.side, Leg.other]
  · rcases Leg.eq_or_other l m with rfl | rfl <;>
      simp [queueBehind, hr.side, hr.other, Leg.other_ne.symm]
  · rcases Leg.eq_or_other l m with rfl | rfl <;> simp [hr.side, hr.other, Leg.other_ne.symm]

lemma ready_of_attachable (h : attachable x = true) : x.Ready := by
  simp only [attachable, Bool.and_eq_true_iff, Bool.or_eq_true_iff, beq_iff_eq, bne_iff_ne,
    decide_eq_true_eq, Bool.not_eq_true'] at h
  obtain ⟨⟨⟨⟨⟨⟨⟨⟨⟨⟨⟨hs, -⟩, hc⟩, hr⟩, -⟩, -⟩, -⟩, -⟩, -⟩, ho⟩, he⟩, hl⟩ := h
  exact ⟨hs, hc, hr, ho, fun hq => he.resolve_left (absurd hq), hl⟩

lemma fit_attach (h : Wf c) (top : c.todo = []) (hc : c.s.closing = false)
    (hb : c.s.bound = false) {conn : Ref} (hx : attachable x = true) (l : Leg) :
    Fit { c with io := fun l => if l = .a then
      if c.s.a.io = none then .tcp (TmIo.tcpStart {}) else c.io .a else .tls x }
      (tmStreamRelayAttachAgent (.ssl conn) c.s).1 l := by
  have hside : ((tmStreamRelayAttachAgent (.ssl conn) c.s).1.side l).shut =
      ((attached (.ssl conn) c.s).side l).shut := by
    obtain ⟨-, he⟩ | ⟨-, he⟩ := attach_cases (.ssl conn) hc hb (h.reach.inv.unbound hb).2.2.1 <;>
      rw [he]
    cases l <;> rfl
  intro _
  rw [hside]
  cases l with
  | b => exact ⟨ready_of_attachable hx, fun hs => by simp [attached, Stream.side] at hs⟩
  | a =>
    simp only [if_true, attached, Stream.side]
    split
    · exact ⟨⟨rfl, by simp [TmIo.tcpStart], by simp [TmIo.tcpStart], by simp [TmIo.tcpStart]⟩,
        by simp⟩
    · rename_i ha
      exact ⟨h.legs (l := .a) (by simp [top]) ha, h.refuses .a ha⟩

lemma Effect.raw (h : Wf c) (he : Effect c i d) : Raw d := by
  cases he with
  | @io l r todo alive ok top move loud data =>
    have hb : Waiting todo ∧ Below todo ∧ Reach ⟨c.s, ops todo⟩ ∧
        ∀ m, c.todo.head? ≠ some (.cb m .error) := by
      rcases top with ⟨ht, rfl⟩ | ⟨f, ht⟩
      · have hr := h.reach
        simp only [relayed, ht] at hr
        exact ⟨.inl rfl, trivial, hr, by simp [ht]⟩
      · obtain ⟨hw, hb, hr⟩ := h.below_io ht
        exact ⟨hw, hb, hr, by simp [ht]⟩
    obtain ⟨hw, hb, hr, hh⟩ := hb
    refine raw_enter (q := (c.s, [])) hr hb (.inl hw) (h.fit hh _) move.ok
      (fun _ hp => .inl (move.paused (h.silent l alive hp)))
      (fun _ hs => move.refuses (h.refuses l alive hs)) move.plain (fun he => ?_)
      fun d hd => ⟨(data d hd).1, ?_, (data d hd).2⟩
    · exact Bool.eq_false_iff.2 fun hp => (move.silent (h.silent l alive hp)).1 he
    · exact Bool.eq_false_iff.2 fun hp => (move.silent (h.silent l alive hp)).2 d hd
  | @drop x todo top dead notOp =>
    have hb : Below todo ∧ Reach ⟨c.s, ops todo⟩ ∧ ∀ l, Fit c c.s l := by
      cases x with
      | op o => exact absurd rfl (notOp o)
      | cb l k =>
        obtain ⟨-, hb, hr⟩ := h.below_cb top
        refine ⟨hb, hr, fun m ha => ⟨(h.ok m ha).resolve_right fun hk => ?_, h.refuses m ha⟩⟩
        rw [top, List.head?_cons, Option.some.injEq, Level.cb.injEq] at hk
        exact dead l k rfl (hk.1 ▸ ha)
      | io =>
        obtain ⟨-, hb, hr⟩ := h.below_io top
        exact ⟨hb, hr, h.fit (by simp [top])⟩
    exact raw_relay (q := (c.s, [])) hb.2.1 hb.1 hb.2.2
  | @eof l todo top alive =>
    obtain ⟨hw, hb, hr⟩ := h.below_cb top
    refine raw_relay (hr.step (i := .eof l) ?_) hb fun m =>
      (h.fit (by simp [top]) m).mono shrinks_eof fun _ => ?_
    · rw [Relay.step, open_of_waiting hw, alive_iff.2 alive]
      rfl
    · rw [relayEof_eq (h.open alive)]
      exact ended_shut fun _ => rfl
  | @error l todo top alive =>
    obtain ⟨hw, hb, hr⟩ := h.below_cb top
    refine raw_relay (hr.step (i := .error l) ?_) hb fun m ha => ?_
    · rw [Relay.step, open_of_waiting hw, alive_iff.2 alive]
      rfl
    · rw [relayError_eq (h.open alive)] at ha ⊢
      -- the leg that failed is gone, the other one was not about to fail
      have hsh : Shrinks (c.s.upd (fun x => { x with io := none, eof := true }) l) _ :=
        shrinks_ended (l := l)
      have ham := alive_of_shrinks hsh ha
      rcases Leg.eq_or_other l m with rfl | rfl
      · simp at ham
      · have ham : c.Alive l.other := by simpa [Config.Alive] using ham
        refine ⟨(h.ok _ ham).resolve_right (by simp [top, Leg.other_ne.symm]), fun hs => ?_⟩
        refine h.refuses _ ham ?_
        rwa [ended_shut] at hs
        exact fun _ => rfl
  | @low l todo top alive =>
    obtain ⟨hw, hb, hr⟩ := h.below_cb top
    refine raw_relay (hr.step (i := .low l) ?_) hb fun m =>
      (h.fit (by simp [top]) m).mono shrinks_low fun _ => ?_
    · rw [Relay.step, open_of_waiting hw, alive_iff.2 alive]
      rfl
    · obtain ⟨-, he⟩ | ⟨-, he⟩ := relayLow_cases (h.open alive) alive <;> rw [he]
      · rcases Leg.eq_or_other l m with rfl | rfl <;> simp
  | @queue l d todo src alive ne keeps =>
    obtain ⟨hw, hb, hr, hh⟩ := src.below h
    have hc := h.open alive
    exact raw_relay (hr.read hw alive) hb fun m =>
      (h.fit hh m).mono (shrinks_read d _) fun ha =>
        ((read_spec hc fun h1 h2 => absurd ⟨hc, h1, h2⟩ keeps).1 m ha).1
  | @write l d todo w src alive ne hands wrote =>
    obtain ⟨hw, hb, hr, hh⟩ := src.below h
    obtain ⟨hc, hao, hp⟩ := hands
    obtain ⟨hside, hq⟩ := read_spec (l := l) (d := d) hc
      fun _ _ hs => wrote.err.1 (h.refuses _ hao hs)
    have hw' : Waiting ((relayRead l d w.1 (c.s.noteRead l d)).2.map .op ++ todo) := by
      rcases hq with hq | hq
      · simpa [hq] using hw
      · exact .inr ⟨ops todo, by simp [hq]⟩
    exact raw_call h hao hh (hr.read hw alive) hb (.inl hw') (shrinks_read d _)
      (fun ha => (hside _ ha).1) (fun ha => (hside _ ha).2 rfl) (fun ha => .inl (hside _ ha).1)
      wrote.move wrote.told
  | @flush l todo w q top alive queued wrote run =>
    obtain ⟨hb, hr⟩ := h.below_op top
    have hs : (c.s.side l).shut = true → w.1 = .err := fun hs => wrote.err.1 (h.refuses _ alive hs)
    have hr' : Reach ⟨q.1, q.2 ++ ops todo⟩ := hr.step (i := .run w.1) (by
      simp [Relay.step, Duplex.Config.run, run])
    have hcall := fun hw => raw_call (r := w.2) h alive (by simp [top]) hr' hb hw (shrinks_exec run)
    obtain ⟨ha, n, rfl⟩ | ⟨ha, rfl⟩ | ⟨ha, rfl⟩ := flushLoop_cases queued alive hs run
    · exact hcall (.inl (.inr ⟨_, rfl⟩)) (by simp) (by simp) (by simp) wrote.move wrote.told
    · exact hcall (.inr ⟨wrote.quiet (by simp [ha]), wrote.frames⟩) (by simp) (by simp) (by simp)
        wrote.move wrote.told
    · exact hcall (.inr ⟨wrote.quiet (by simp [ha]), wrote.frames⟩) (by simp) (by simp)
        (fun _ => .inr (wrote.move.refuses (wrote.err.2 ha))) wrote.move wrote.told
  | @op o todo q top run calm quiet =>
    obtain ⟨hb, hr⟩ := h.below_op top
    refine raw_relay (hr.step (i := .run .ok) ?_) hb fun m =>
      (h.fit (by simp [top]) m).mono (shrinks_exec run) fun _ => op_shut run calm quiet
    simp [Relay.step, Duplex.Config.run, run]
  | @shutdown k l r todo top tail alive empty calls halved =>
    obtain ⟨hb, hr⟩ := h.below_op top
    have hr' := hr.step (i := .run .ok) rfl
    obtain ⟨-, -, cut, k', he⟩ := halfClose_eq tail calls
    rw [he] at hr' ⊢
    exact raw_call h alive (by simp [top]) hr' hb (.inl (.inr ⟨_, rfl⟩)) (he ▸ shrinks_tail k)
      (by simp) (by simp) (fun _ => .inr halved.refuses) halved.move halved.told
  | @resume k l r todo top tail alive calls resumed =>
    obtain ⟨hb, hr⟩ := h.below_op top
    have hr' := hr.step (i := .run .ok) rfl
    obtain ⟨-, v, -, he⟩ := resume_eq tail calls
    rw [he] at hr' ⊢
    exact raw_enter hr' hb (.inl (.inr ⟨_, rfl⟩))
      ((h.fit (by simp [top]) _).mono (he ▸ shrinks_tail k) (by simp)) (.inl resumed.ok)
      (by simp) (fun _ hs => resumed.refuses (h.refuses l alive (by simpa using hs))) resumed.plain
      (by simp) (by simp [resumed.cb])
  | @attach conn x top closing bound fresh =>
    have hr : Reach ⟨c.s, []⟩ := by simpa [relayed, top] using h.reach
    refine raw_relay (c := { c with io := _ }) (hr.step (i := .attach (.ssl conn)) (by
      simp [Relay.step, Duplex.Config.push])) below_readRest fun l => ?_
    exact fit_attach h top closing bound fresh l
  | keep => exact h.toRaw
  | close top =>
    have hr : Reach ⟨tmStreamClose c.s, [] ++ ops c.todo⟩ := h.reach.step (i := .close) (by
      simp [Relay.step, relayed, top])
    have hb : Below c.todo := by
      rw [top]
      trivial
    exact raw_relay (q := (tmStreamClose c.s, [])) hr hb fun l =>
      (h.fit (by simp [top]) l).mono .close fun _ => shut_close _ _

lemma step_effect (h : Wf c) (hs : step c i = some d) : ∃ d', d = d'.sync ∧ Effect c i d' := by
  obtain ⟨d', hd, rfl⟩ := map_eq_some_iff.1 hs
  exact ⟨d', rfl, effect_act h hd⟩

lemma step_wf (h : Wf c) (hs : step c i = some d) : Wf d := by
  obtain ⟨d', rfl, he⟩ := step_effect h hs
  exact (he.raw h).sync

lemma wf_init (h : Init c) : Wf c := by
  rcases h with rfl | ⟨conn, x, hx, rfl⟩
  · have hdead : ∀ l, ¬ (⟨createdOpen, fun _ => .gone, []⟩ : Config).Alive l := fun l => by
      cases l <;> simp [Config.Alive, createdOpen, Stream.side]
    exact { reach := ⟨[], .start ⟨rfl, .inl rfl⟩⟩, stack := trivial
            ok := fun l ha => absurd ha (hdead l)
            paused := fun l ha => absurd ha (hdead l), refuses := fun l ha => absurd ha (hdead l)
            eof := by simp, read := by simp, silent := fun l ha => absurd ha (hdead l)
            drained := fun l ha => absurd ha (hdead l) }
  · refine Raw.sync (raw_relay (q := (createdClosed conn, [])) (c := ⟨createdOpen, _, []⟩)
      ?_ below_readRest ?_)
    · exact ⟨[], .start ⟨rfl, .inr ⟨conn, rfl⟩⟩⟩
    · intro l ha
      cases l with
      | a => exact ⟨ready_of_attachable hx, fun hs => by simp [createdClosed, Stream.side] at hs⟩
      | b => exact absurd rfl ha

lemma wf_of_trace {tr : List (Config × Label)} (hr : Trace step Init tr c) : Wf c :=
  hr.inv (fun _ => wf_init) fun _ _ _ h hs => step_wf h hs

end Steps

end TunnelMate.StreamIo
