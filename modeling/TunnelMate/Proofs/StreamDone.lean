import TunnelMate.Proofs.StreamFlow

/-!
# Finished streams are closed

`stream_maybe_close` closes a stream when both legs have ended and nothing is left to go out, and
it runs from the callbacks and their continuations.
-/

namespace TunnelMate.StreamIo

open Duplex Relay Leg StreamIo.Config
open TmIo (Cb Obj Move Wrote HalfClosed Resumed Told drainsSilently)

structure Spent (c : Config) : Prop where
  eof : ∀ l, (c.s.side l).eof = true
  out : ∀ l, c.Alive l → (c.io l).drained = true
  pend : ∀ l, (c.s.side l).pend = []
  preq : c.s.preq = []

def Done (c : Config) : Prop :=
  c.s.closing = false → Spent c → (∃ k, .tail k ∈ ops c.todo) ∨
    ∃ l k, c.todo.head? = some (.cb l k) ∧ c.Alive l

structure SpentBut (c : Config) (l : Leg) : Prop where
  eof : ∀ m, (c.s.side m).eof = true
  out : c.Alive l.other → (c.io l.other).drained = true
  pend : ∀ m, (c.s.side m).pend = []
  preq : c.s.preq = []

/-- Nothing finishes the stream behind the relay's back: no TLS leg drains silently as the last one,
and the agent leg is not attached to a finished stream. -/
structure Heard (c : Config) (i : Label) : Prop where
  drains : ∀ l ev e, i = .event l ev e → drainsSilently ev (c.io l) = true → ¬ SpentBut c l
  starts : ∀ t, c.todo = .op (.tail .start) :: t → ¬ Spent c

variable {c d : Config} {i : Label} {l m : Leg} {todo : List Level}

lemma spent_sync : Spent c.sync ↔ Spent c := by
  constructor <;> intro h
  · refine ⟨fun l => by simpa using h.eof l, fun l ha => ?_, fun l => by simpa using h.pend l,
      h.preq⟩
    rw [← drained_io_sync ha]
    exact h.out l (alive_sync.2 ha)
  · refine ⟨fun l => by simpa using h.eof l, fun l ha => ?_, fun l => by simpa using h.pend l,
      h.preq⟩
    rw [drained_io_sync (alive_sync.1 ha)]
    exact h.out l (alive_sync.1 ha)

lemma done_sync (h : Done c) : Done c.sync := fun hc hs => by
  simpa using h hc (spent_sync.1 hs)

lemma done_of_tail {k : Tail} (h : .tail k ∈ ops c.todo) : Done c := fun _ _ => .inl ⟨k, h⟩

lemma done_of_closing (h : c.s.closing = true) : Done c := fun hc => by simp [h] at hc

lemma finished_of_spent (h : Wf c) {q : Stream × List (Op Tail)}
    (hq : ∀ l, (q.1.side l).io ≠ none → c.Alive l ∧ (q.1.side l).drained = (c.s.side l).drained)
    (hs : Spent (c.relay q todo)) : Finished q.1 := by
  refine ⟨hs.eof, fun l => ?_, hs.pend, hs.preq⟩
  by_cases ha : (q.1.side l).io = none
  · exact .inl ha
  · obtain ⟨hal, hd⟩ := hq l ha
    rw [hd, h.drained l hal]
    exact .inr (hs.out l ha)

lemma done_maybeClose (h : Wf c) {s : Stream} {w : List (Op Tail)}
    (hq : ∀ l, (s.side l).io ≠ none → c.Alive l ∧ (s.side l).drained = (c.s.side l).drained) :
    Done (c.relay (streamMaybeClose s, w) todo) := by
  rcases maybeClose_cases s with ⟨he, hf⟩ | he
  · rw [he]
    exact fun hc hs => absurd (finished_of_spent h hq hs) (hf hc)
  · rw [he]
    exact done_of_closing closing_close

lemma done_ended (h : Wf c) {s : Stream}
    (hq : ∀ l, (s.side l).io ≠ none → c.Alive l ∧ (s.side l).drained = (c.s.side l).drained) :
    Done (c.relay (legEnded l s) todo) := by
  obtain ⟨-, he⟩ | ⟨-, -, he⟩ | ⟨-, -, he⟩ := legEnded_cases l s <;> rw [he]
  · exact done_maybeClose h hq
  · exact done_of_tail (k := .ended l) (by simp [relay])
  · exact done_of_tail (k := .ended l) (by simp [relay])

lemma tail_of_covered (h : ∀ l, Covered l (ops c.todo)) {o : Op Tail}
    (ht : c.todo = .op o :: todo) (ho : o.isFrame l = true) : ∃ k, .tail k ∈ ops todo := by
  have hc := h l.other
  rw [ht, ops_op] at hc
  obtain ⟨p, hp, hl⟩ := hc.1 (by rwa [other_other])
  cases p with
  | tail k => exact ⟨k, hp⟩
  | _ => simp [looksAt] at hl

lemma done_io (hd : Done c) (hok : Heard c i) {r : TmIo.Res} (alive : c.Alive l)
    (top : c.todo = [] ∧ todo = [] ∨ ∃ f, c.todo = .io l f :: todo)
    (loud : (∀ ev e, i = .event l ev e → drainsSilently ev (c.io l) = false) →
      Move.Loud (c.io l) r) : Done (c.enter l r todo) := by
  intro hc hs
  rcases hcb : r.cb with _ | k
  · -- nobody is told, so the leg was drained before or drains silently
    have hio : (c.enter l r todo).io l.other = c.io l.other := by
      simp [enter]
    have hout : r.io.drained = true := by simpa [enter] using hs.out l alive
    have hbut : SpentBut c l := ⟨hs.eof, fun ha => hio ▸ hs.out l.other ha, hs.pend, hs.preq⟩
    have hwas : (c.io l).drained = true := by
      by_contra hnd
      have hl := loud fun ev e hi => Bool.eq_false_iff.2 fun hq => hok.drains l ev e hi hq hbut
      rcases hl (by simpa using hnd) with hf | ht
      · simp [hout] at hf
      · simp [hcb, Told] at ht
    have hspent : Spent c := by
      refine ⟨hs.eof, fun m ha => ?_, hs.pend, hs.preq⟩
      rcases eq_or_other l m with rfl | rfl
      · exact hwas
      · exact hbut.out ha
    rcases hd hc hspent with ⟨k, hk⟩ | ⟨m, k, hk, -⟩
    · refine .inl ⟨k, ?_⟩
      obtain ⟨ht, rfl⟩ | ⟨f, ht⟩ := top
      · simp [ht] at hk
      · simpa [ht] using hk
    · obtain ⟨ht, -⟩ | ⟨f, ht⟩ := top <;> simp [ht] at hk
  · exact .inr ⟨l, k, by simp [enter, hcb], alive⟩

lemma done_read {data : Bytes} {ans : Ans} {r : Config} (hne : data ≠ [])
    (hc : c.s.closing = false) (hs : (c.s.side l.other).io ≠ none → (c.s.side l.other).pend = [] →
      (c.s.side l.other).shut = true → ans = .err)
    (hr : r.s = (relayRead l data ans (c.s.noteRead l data)).1)
    (hok : ans = .ok → c.Alive l.other → (c.s.side l.other).pend = [] →
      r.Alive l.other → Done r) : Done r := by
  obtain ⟨hcl, -⟩ | ⟨rfl, -, -, p, he⟩ | ⟨ha, ⟨-, s₁, hr₁, he⟩ | ⟨hp, hans, s₁, hr₁, he⟩⟩ :=
    relayRead_cases (l := l) (d := data) hc hs
  · exact done_of_closing (by rw [hr]; exact hcl)
  · refine fun _ hsp => absurd hsp.preq ?_
    rw [hr, he]
    simp [hne]
  · refine fun _ hsp => absurd (hsp.pend l.other) ?_
    rw [hr, he]
    simp [queueBehind, hne]
  · refine hok hans ha hp ?_
    rw [Config.Alive, hr, he]
    simpa [hr₁.other] using ha

lemma done_start {p : Bool} (hn : ¬ Spent c)
    (hs : d.s = c.s.upd (fun x => { x with paused := p }) .a)
    (hio : ∀ l, (d.io l).drained = (c.io l).drained) : Done d := by
  refine fun _ hd => absurd ⟨fun l => ?_, fun l ha => ?_, fun l => ?_, ?_⟩ hn
  · have := hd.eof l
    rw [hs] at this
    cases l <;> exact this
  · rw [← hio l]
    refine hd.out l ?_
    rw [Config.Alive, hs]
    cases l <;> exact ha
  · have := hd.pend l
    rw [hs] at this
    cases l <;> exact this
  · have := hd.preq
    rw [hs] at this
    exact this

lemma Effect.done (h : Wf c) (hcov : ∀ l, Covered l (ops c.todo)) (hd : Done c)
    (hok : Heard c i) (he : Effect c i d) : Done d := by
  cases he with
  | io alive ok top move loud => exact done_io hd hok alive top loud
  | @drop x todo top dead notOp =>
    intro hc hs
    rcases hd hc { hs with } with ⟨k, hk⟩ | ⟨m, k, hk, ha⟩
    · cases x with
      | op o => exact absurd rfl (notOp o)
      | io | cb => exact .inl ⟨k, by simpa [top] using hk⟩
    · rw [top, List.head?_cons, Option.some.injEq] at hk
      exact absurd ha (dead m k hk)
  | @eof l todo top alive =>
    rw [relayEof_eq (h.open alive)]
    refine done_ended h fun m hm => ?_
    rcases eq_or_other l m with rfl | rfl <;> simpa [Config.Alive] using hm
  | @error l todo top alive =>
    rw [relayError_eq (h.open alive)]
    refine done_ended h fun m hm => ?_
    rcases eq_or_other l m with rfl | rfl
    · simp at hm
    · simpa [Config.Alive] using hm
  | @low l todo top alive =>
    obtain ⟨-, he⟩ | ⟨-, he⟩ := relayLow_cases (h.open alive) alive <;> rw [he] <;>
      exact done_of_tail (k := .low l) (by simp [relay])
  | queue src alive ne keeps =>
    have hc := h.open alive
    exact done_read ne hc (fun h1 h2 => absurd ⟨hc, h1, h2⟩ keeps) rfl
      fun _ h1 h2 => absurd ⟨hc, h1, h2⟩ keeps
  | @write l data todo w src alive ne hands wrote =>
    refine done_read ne hands.1 (fun _ _ hs => wrote.err.1 (h.refuses _ hands.2.1 hs)) rfl
      fun hans _ _ ha hc hs => ?_
    rcases wrote.ok hans with hf | ht
    · have := hs.out l.other ha
      simp [enter, hf] at this
    · rcases ht with hk | hk <;> exact .inr ⟨l.other, _, by simp only [enter, hk]; rfl, ha⟩
  | @flush l todo w q top =>
    obtain ⟨k, hk⟩ := tail_of_covered (l := l) hcov top (by simp [Op.isFrame])
    exact done_of_tail (k := k) (by simp [hk])
  | @op o todo q top run =>
    cases o with
    | flushLoop l | flushShift l =>
      obtain ⟨k, hk⟩ := tail_of_covered (l := l) hcov top (by simp [Op.isFrame])
      exact done_of_tail (k := k) (by simp [relay, hk])
    | inIo =>
      obtain rfl := Option.some.inj run
      intro hc hs
      rcases hd hc { hs with } with ⟨k, hk⟩ | ⟨m, k, hk, -⟩
      · exact .inl ⟨k, by simpa [top, relay] using hk⟩
      · simp [top] at hk
    | tail k =>
      obtain rfl := Option.some.inj run
      have hself : ∀ l, (c.s.side l).io ≠ none → c.Alive l ∧ (c.s.side l).drained =
        (c.s.side l).drained := fun l ha => ⟨ha, rfl⟩
      cases k with
      | maybeClose => exact done_maybeClose h hself
      | ended l =>
        obtain ⟨-, he⟩ | ⟨-, -, he⟩ | ⟨-, -, cut, he⟩ := ended_cases l c.s <;> rw [he]
        · exact done_maybeClose h hself
        all_goals exact done_of_tail (k := .maybeClose) (by simp [relay])
      | low l =>
        obtain ⟨-, he⟩ | ⟨-, b, he⟩ | ⟨-, -, cut, he⟩ := low_cases l c.s <;> rw [he]
        · exact done_maybeClose h hself
        all_goals exact done_of_tail (k := .lowResume l) (by simp [relay])
      | lowResume l =>
        obtain ⟨-, he⟩ | ⟨-, he⟩ := lowResume_cases l c.s <;> rw [he] <;>
          exact done_of_tail (k := .maybeClose) (by simp [relay])
      | start =>
        have hn := hok.starts _ top
        obtain ⟨-, he⟩ | ⟨-, -, he⟩ | ⟨-, -, he⟩ := start_cases c.s <;> rw [he] <;>
          exact done_start hn rfl fun _ => rfl
  | @shutdown k l r todo top tail alive empty calls =>
    obtain ⟨-, -, cut, k', he⟩ := halfClose_eq tail calls
    exact done_of_tail (k := k') (by simp [he])
  | @resume k l r todo top tail alive calls resumed =>
    obtain ⟨-, v, rfl | ⟨rfl, rfl⟩, he⟩ := resume_eq tail calls
    · exact done_of_tail (k := .maybeClose) (by simp [he])
    · obtain rfl : l = .a := by simpa using tail
      refine done_start (hok.starts _ top) (congrArg Prod.fst he) fun m => ?_
      cases m with
      | a => simpa [enter] using resumed.drained
      | b => rfl
  | @attach conn x top closing bound =>
    have hf : c.s.b.flushing = false := (h.reach.inv.unbound bound).2.2.1
    obtain ⟨-, he⟩ | ⟨-, he⟩ := attach_cases (.ssl conn) closing bound hf <;>
      exact done_of_tail (k := .start) (by simp [he])
  | keep => exact hd
  | close => exact done_of_closing closing_close

lemma done_of_trace {tr : List (Config × Label)} (hr : Trace step Init tr c)
    (hok : ∀ p ∈ tr, Heard p.1 p.2) : Done c := by
  induction hr with
  | start hi =>
    -- leg B has not ended
    refine fun _ hs => absurd (hs.eof .b) ?_
    rcases hi with rfl | ⟨conn, x, -, rfl⟩
    · simp [createdOpen, Stream.side]
    · rw [side_sync]
      simp [createdClosed, Stream.side]
  | next hr hs ih =>
    simp only [List.mem_cons, forall_eq_or_imp] at hok
    obtain ⟨d', rfl, he⟩ := step_effect (wf_of_trace hr) hs
    exact done_sync (he.done (wf_of_trace hr) (shape_of_trace hr).1 (ih hok.2) hok.1)

/-- In every run in which no TLS leg drains silently at the end and the agent leg is not attached to
a finished stream, a stream that is finished between events is closed. -/
theorem finished_stream_closed {tr : List (Config × Label)} (hr : Trace step Init tr c)
    (hok : ∀ p ∈ tr, Heard p.1 p.2) (ht : c.todo = []) : ¬ (c.s.closing = false ∧ Spent c) := by
  rintro ⟨hc, hs⟩
  rcases done_of_trace hr hok hc hs with ⟨k, hk⟩ | ⟨l, k, hk, -⟩
  · simp [ht] at hk
  · simp [ht] at hk

def agentConn : Tls.Stream :=
  { state := .opened, readStarted := true, reading := true, pumpingRead := true }

/-- The agent leg is attached, and the client ends. -/
def clientEof : List Label :=
  [.attach 1 agentConn, .run {} .zero, .run {} (.wantRead true 0), .run {} .zero,
    .event .a .eof {}, .run {} .zero, .run {} .zero, .run { shut := 24 } .zero, .run {} .zero,
    .run {} .zero]

theorem finished_stream_closed_in_turn : ∃ tr c, Trace step Init tr c ∧
    (c.todo = [] ∧ c.s.a.eof = true ∧ c.s.b.eof = true ∧ c.s.closing = true) ∧
    ¬ (c.s.closing = false ∧ Spent c) := by
  obtain ⟨tr, c, hr, hok, hc⟩ := exists_trace step Init
    (s := { s := createdOpen, io := fun _ => .gone }) (.inl rfl)
    (clientEof ++ [.event .b (.writeDone .ok) {}, .run {} .zero,
      .event .b .eof {}, .run {} .zero, .run {} .zero, .run {} .zero, .run {} .zero, .run {} .zero])
    (fun r => (∀ p ∈ r.1, (p.1.s.a.eof = false ∨ p.1.s.b.eof = false) ∨
        p.1.todo ≠ [] ∧ p.1.todo.head? ≠ some (.op (.tail .start))) ∧
      r.2.todo = [] ∧ r.2.s.a.eof = true ∧ r.2.s.b.eof = true ∧ r.2.s.closing = true) (by decide)
  refine ⟨tr, c, hr, hc, finished_stream_closed hr (fun p hp => ?_) hc.1⟩
  rcases hok p hp with he | ⟨hne, hst⟩
  · have hn : ¬ ∀ l, (p.1.s.side l).eof = true := fun h =>
      he.elim (fun ha => by simpa [Stream.side, ha] using h .a)
        fun hb => by simpa [Stream.side, hb] using h .b
    exact ⟨fun _ _ _ _ _ hs => hn hs.eof, fun _ _ hs => hn hs.eof⟩
  · refine ⟨fun l ev e hi => ?_, fun t ht => absurd (by simp [ht]) hst⟩
    obtain ⟨-, u, -, hu, -⟩ := hr.of_mem hp
    simp [hi, step, act, hne] at hu

/-- The agent ends while the close_notify to it is still in flight: its completion finishes the
stream, and nothing closes it. -/
theorem finished_stream_open : ∃ tr c, Trace step Init tr c ∧ c.todo = [] ∧
    c.s.closing = false ∧ Spent c := by
  obtain ⟨tr, c, hr, hc⟩ := exists_trace step Init
    (s := { s := createdOpen, io := fun _ => .gone }) (.inl rfl)
    (clientEof ++ [.event .b .eof {}, .run {} .zero, .run {} .zero, .run {} .zero, .run {} .zero,
      .run {} .zero, .event .b (.writeDone .ok) {}, .run {} .zero])
    (fun r => r.2.todo = [] ∧ r.2.s.closing = false ∧ r.2.s.a.eof = true ∧ r.2.s.b.eof = true ∧
      (r.2.io .a).drained = true ∧ (r.2.io .b).drained = true ∧ r.2.s.a.pend = [] ∧
      r.2.s.b.pend = [] ∧ r.2.s.preq = []) (by decide)
  obtain ⟨ht, hcl, hea, heb, hda, hdb, hpa, hpb, hq⟩ := hc
  refine ⟨tr, c, hr, ht, hcl, fun l => ?_, fun l _ => ?_, fun l => ?_, hq⟩ <;>
    cases l <;> assumption

end TunnelMate.StreamIo
