import TunnelMate.Proofs.StreamDone

/-!
# Wedged streams

A leg that is paused between events waits for a low-water callback of the other leg, which that one
still owes.
-/

namespace TunnelMate.StreamIo

open Option
open List hiding tail

open Duplex Relay
open TmIo (Cb Obj Tcp)

variable {c d : Config} {i : Label} {l m : Leg}

/-! ## `tm_stream_relay_start` -/

/-- What can be above the continuation of `tm_stream_relay_start` while the agent leg lives: its
`flush_pend`, and what a drain that the io reports from inside a write leads to. -/
inductive Starting (s : Stream) : List Level → Prop
  | ready : Starting s []
  | loop : Starting s [.op (.flushLoop .b)]
  | shift (n : ℕ) (queued : s.b.pend ≠ []) : Starting s [.op (.flushShift .b n)]
  | waits (n : ℕ) (queued : s.b.pend ≠ []) : Starting s [.op .inIo, .op (.flushShift .b n)]
  | told (k : Cb) (n : ℕ) (queued : s.b.pend ≠ []) (told : k = .low ∨ k = .error) :
      Starting s [.cb .b k, .op .inIo, .op (.flushShift .b n)]
  | low (n : ℕ) (queued : s.b.pend ≠ []) :
      Starting s [.op (.tail (.low .b)), .op .inIo, .op (.flushShift .b n)]

def Begins (c : Config) : Prop :=
  c.s.closing = false → c.Alive .b → .tail .start ∈ ops c.todo → c.Alive .a ∧
    ∃ v, Starting c.s v ∧ c.todo = v ++ .op (.tail .start) :: readRest .b

lemma Leaves.not_start {o : Op Tail} {w : List (Op Tail)} (h : Leaves o w) : .tail .start ∉ w := by
  cases h with
  | tail hk | inIoTail hk => rcases hk with rfl | ⟨l, rfl⟩ <;> simp
  | _ => simp

variable {s : Stream} {data : Bytes} {tr : List (Config × Label)}

lemma not_mem_ended : .tail .start ∉ (legEnded l s).2 := by
  obtain ⟨-, he⟩ | ⟨-, -, he⟩ | ⟨-, -, he⟩ := legEnded_cases l s <;> simp [he]

section Begins

variable {v todo : List Level} {o : Op Tail} {q : Stream × List (Op Tail)} {w : Ans × TmIo.Res}

lemma begins_flush (hv : Starting c.s v) (hct : c.todo = v ++ .op (.tail .start) :: readRest .b)
    (h : Wf c) (haa : c.Alive .a) (top : c.todo = .op (.flushLoop l) :: todo) (alive : c.Alive l)
    (queued : (c.s.side l).pend ≠ []) (wrote : TmIo.Wrote (c.io l) w)
    (run : exec tail w.1 c.s (.flushLoop l) = some q) :
    Begins ((c.relay q todo).enter l w.2 (q.2.map .op ++ todo)) := by
  rw [hct] at top
  cases hv <;> simp at top
  obtain ⟨rfl, rfl⟩ := top
  intro _ _ _
  have hs := fun hs => wrote.err.1 (h.refuses _ alive hs)
  obtain ⟨hans, n, rfl⟩ | ⟨hans, rfl⟩ | ⟨hans, rfl⟩ := flushLoop_cases queued alive hs run
  · refine ⟨haa, ?_⟩
    rcases wrote.told with hk | hk | hk
    · exact ⟨_, .waits n queued, by simp [Config.enter, hk, wrote.frames]⟩
    · exact ⟨_, .told .low n queued (.inl rfl), by simp [Config.enter, hk, wrote.frames]⟩
    · exact ⟨_, .told .error n queued (.inr rfl), by simp [Config.enter, hk, wrote.frames]⟩
  all_goals
    refine ⟨haa, _, .ready, ?_⟩
    simp [Config.enter, wrote.frames, wrote.quiet (by simp [hans])]

lemma begins_op (hv : Starting c.s v) (hct : c.todo = v ++ .op (.tail .start) :: readRest .b)
    (haa : c.Alive .a) (top : c.todo = .op o :: todo) (run : exec tail .ok c.s o = some q)
    (calm : ∀ l, o = .flushLoop l → (c.s.side l).pend = []) : Begins (c.relay q todo) := by
  rw [hct] at top
  intro hcl _ hst
  cases hv with
  | ready =>
    obtain ⟨rfl, rfl⟩ : o = .tail .start ∧ todo = readRest .b := by simpa [eq_comm] using top
    exact absurd (by simpa using hst) (leaves_exec run).not_start
  | loop =>
    obtain ⟨rfl, rfl⟩ : o = .flushLoop .b ∧ todo = .op (.tail .start) :: readRest .b := by
      simpa [eq_comm] using top
    simp only [exec, calm .b rfl, if_true, some.injEq] at run
    subst run
    exact ⟨haa, _, .ready, rfl⟩
  | shift n =>
    obtain ⟨rfl, rfl⟩ : o = .flushShift .b n ∧ todo = .op (.tail .start) :: readRest .b := by
      simpa [eq_comm] using top
    simp only [exec, ite_none_left_eq_some, some.injEq] at run
    obtain ⟨-, rfl⟩ := run
    exact ⟨haa, _, .loop, rfl⟩
  | waits n queued =>
    obtain ⟨rfl, rfl⟩ : o = .inIo ∧ todo =
        .op (.flushShift .b n) :: .op (.tail .start) :: readRest .b
        := by simpa [eq_comm] using top
    obtain rfl := some.inj run
    exact ⟨haa, _, .shift n queued, rfl⟩
  | told => simp at top
  | low n queued =>
    obtain ⟨rfl, rfl⟩ : o = .tail (.low .b) ∧
        todo = .op .inIo :: .op (.flushShift .b n) :: .op (.tail .start) :: readRest .b := by
      simpa [eq_comm] using top
    obtain rfl := some.inj run
    -- the queue is not empty, so the low-water callback does nothing
    have he : tail (.low .b) c.s = (streamMaybeClose c.s, []) := by
      simp [tail, Stream.side, queued]
    rw [he] at hcl ⊢
    rcases maybeClose_cases c.s with ⟨he', -⟩ | he' <;> rw [he'] at hcl ⊢
    · exact ⟨haa, _, .waits n queued, rfl⟩
    · exact absurd hcl (by simp [Config.relay])

lemma begins_read {a : Ans} (src : Source c l data todo)
    (hback : .tail .start ∈ ops c.todo → c.Alive .a ∧ c.Alive .b ∧
      ∃ v, Starting c.s v ∧ c.todo = v ++ .op (.tail .start) :: readRest .b)
    (hst : .tail .start ∈ (relayRead m data a s).2 ∨ .tail .start ∈ ops todo) : False := by
  have hs := hst.resolve_left fun hm => by simpa using relayRead_ops _ hm
  obtain ⟨-, -, v, hv, hct⟩ := hback (src.ops_eq ▸ hs)
  rcases src with ⟨-, ⟨ht, -⟩ | ⟨rfl, hn, -⟩⟩
  · rw [ht] at hct
    cases hv with
    | told k n queued hk => rcases hk with rfl | rfl <;> simp at hct
    | _ => simp at hct
  · simp [hn] at hs

end Begins

lemma Effect.begins (h : Wf c) (hi : Begins c) (he : Effect c i d) : Begins d := by
  intro hcl hb hst
  have hopen := he.open h hcl
  have hborn := (he.change (m := .b) h hcl).born hb
  have hback : .tail .start ∈ ops c.todo → c.Alive .a ∧ c.Alive .b ∧
      ∃ v, Starting c.s v ∧ c.todo = v ++ .op (.tail .start) :: readRest .b := fun hs => by
    have hab : c.Alive .b := hborn.resolve_right fun hn => by simp [hn.2] at hs
    exact ⟨(hi hopen hab hs).1, hab, (hi hopen hab hs).2⟩
  cases he with
  | @io l r todo alive ok top =>
    obtain ⟨ht, rfl⟩ | ⟨f, ht⟩ := top
    · simp at hst
    · obtain ⟨-, -, v, hv, hct⟩ := hback (by simpa [ht] using hst)
      rw [ht] at hct
      cases hv <;> simp at hct
  | @drop x todo top dead notOp =>
    obtain ⟨-, hab, v, hv, hct⟩ := hback (by
      cases x with
      | op o => exact absurd rfl (notOp o)
      | io => simpa [top] using hst
      | cb => simpa [top] using hst)
    rw [top] at hct
    cases hv with
    | told k => exact absurd hab (dead .b k (by simp at hct; exact hct.1))
    | _ => simp at hct; exact absurd hct.1 (notOp _)
  | @eof l todo top alive =>
    rw [relayEof_eq (h.open alive), ops_relay, mem_append] at hst
    obtain ⟨-, -, v, hv, hct⟩ := hback (by simpa [top] using hst.resolve_left not_mem_ended)
    rw [top] at hct
    cases hv with
    | told k n queued hk => rcases hk with rfl | rfl <;> simp at hct
    | _ => simp at hct
  | @error l todo top alive =>
    rw [relayError_eq (h.open alive)] at hst hb
    rw [ops_relay, mem_append] at hst
    obtain ⟨-, -, v, hv, hct⟩ := hback (by simpa [top] using hst.resolve_left not_mem_ended)
    rw [top] at hct
    -- it is the agent leg that fails
    obtain rfl : l = .b := by cases hv <;> simp at hct; exact hct.1.1
    have hsh : Shrinks (c.s.upd (fun x => { x with io := none, eof := true }) .b) _ :=
      shrinks_ended (l := .b)
    exact absurd (alive_of_shrinks hsh hb) (by simp [Stream.upd, Stream.side])
  | @low l todo top alive =>
    have hnot : .tail .start ∉ (relayLow l c.s).2 := by
      obtain ⟨-, he⟩ | ⟨-, he⟩ := relayLow_cases (h.open alive) alive <;> simp [he]
    rw [ops_relay, mem_append] at hst
    obtain ⟨haa, -, v, hv, hct⟩ := hback (by simpa [top] using hst.resolve_left hnot)
    rw [top] at hct
    cases hv with
    | told k n queued =>
      obtain ⟨⟨rfl, rfl⟩, rfl⟩ : (l = .b ∧ .low = k) ∧ _ := by simpa using hct
      have hf : (c.s.side .b).flushing = true :=
        h.flushing_of_mem (o := .flushShift .b n) (by simp [top]) (by simp [Op.isFrame])
      obtain ⟨-, he⟩ | ⟨hn, -⟩ := relayLow_cases (h.open alive) alive
      · rw [he]
        exact ⟨haa, _, .low n queued, rfl⟩
      · simp [hf] at hn
    | _ => simp at hct
  | @queue l data todo src =>
    rw [ops_relay, mem_append] at hst
    exact (begins_read src hback hst).elim
  | @write l data todo w src =>
    rw [ops_enter, ops_append, ops_map_op, mem_append] at hst
    exact (begins_read src hback hst).elim
  | @flush l todo w q top alive queued wrote run =>
    have hs : .tail .start ∈ ops c.todo := by
      rw [ops_enter, ops_append, ops_map_op, mem_append] at hst
      simpa [top] using hst.resolve_left (leaves_exec run).not_start
    obtain ⟨haa, -, v, hv, hct⟩ := hback hs
    exact begins_flush hv hct h haa top alive queued wrote run hcl hb hst
  | @op o todo q top run calm =>
    have hs : .tail .start ∈ ops c.todo := by
      rw [ops_relay, mem_append] at hst
      have := hst.resolve_left (leaves_exec run).not_start
      simp [top, this]
    obtain ⟨haa, -, v, hv, hct⟩ := hback hs
    exact begins_op hv hct haa top run calm hcl hb hst
  | @shutdown k l r todo top tail alive empty =>
    rw [ops_enter, ops_append, ops_map_op, mem_append] at hst
    obtain ⟨-, -, v, hv, hct⟩ := hback (by simp [top, hst.resolve_left leaves_tail.not_start])
    rw [top] at hct
    rcases tail with rfl | rfl
    · cases hv <;> simp at hct
    · cases hv with
      | low n queued =>
        obtain ⟨rfl, -⟩ : l = .b ∧ _ := by simpa using hct
        exact absurd empty queued
      | _ => simp at hct
  | @resume k l r todo top tail =>
    rw [ops_enter, ops_append, ops_map_op, mem_append] at hst
    have hst' := hst.resolve_left leaves_tail.not_start
    obtain ⟨-, -, v, hv, hct⟩ := hback (by simp [top, hst'])
    rw [top] at hct
    rcases tail with rfl | ⟨rfl, rfl⟩
    · cases hv <;> simp at hct
    · cases hv <;> simp at hct
      simp [hct] at hst'
  | @attach conn x top closing bound =>
    have hf : c.s.b.flushing = false := (h.reach.inv.unbound bound).2.2.1
    obtain ⟨-, he⟩ | ⟨-, he⟩ := attach_cases (.ssl conn) closing bound hf <;> rw [he]
    · exact ⟨alive_attached (.ssl conn) c.s .a, _, .ready, rfl⟩
    · exact ⟨alive_attached (.ssl conn) c.s .a, _, .loop, rfl⟩
  | keep => exact hi hcl hb hst
  | close => simp at hcl

lemma drained_of_owing {x : Obj} (h : x.Owing) : x.drained = false := by
  cases x with
  | gone => exact h.elim
  | tcp => exact h
  | tls => exact h.2

lemma Begins.sync (h : Begins c) : Begins c.sync := fun hcl hb hs => by
  obtain ⟨ha, v, hv, hct⟩ := h hcl (alive_sync.1 hb) hs
  refine ⟨alive_sync.2 ha, v, ?_, hct⟩
  cases hv with
  | ready => exact .ready
  | loop => exact .loop
  | shift n queued => exact .shift n queued
  | waits n queued => exact .waits n queued
  | told k n queued hk => exact .told k n queued hk
  | low n queued => exact .low n queued

lemma begins_of_trace (hr : Trace step Init tr c) : Begins c := by
  induction hr with
  | start hi => exact fun _ _ hs => by simp [ops_init hi] at hs
  | next hr hs ih =>
    obtain ⟨d', rfl, he⟩ := step_effect (wf_of_trace hr) hs
    exact (he.begins (wf_of_trace hr) ih).sync

/-! ## Paused legs -/

def FailedReads (c : Config) : Prop :=
  ∀ l, c.todo.head? = some (.cb l .error) → (c.s.side l).paused = false

lemma Effect.paused_alive (h : Wf c) (hf : Flow c) (hbe : Begins c)
    (ha : c.s.bound = true → ∀ l, (c.s.side l).paused = true → c.Alive l) (hok : FailedReads c)
    (he : Effect c i d) (hcl : d.s.closing = false) (hb : d.s.bound = true)
    (hp : (d.s.side l).paused = true) : d.Alive l := by
  have hch := he.change (m := l) h hcl
  rcases hch.paused hp with hpc | hpc
  · by_cases hbc : c.s.bound = true
    · exact (hch.alive (ha hbc l hpc)).resolve_right fun hk => by simpa [hpc] using hok l hk
    · exact ((hch.attached hb).resolve_left hbc).1 l
  · cases hpc with
    | read _ stays => exact stays
    | start leg top queued same stays =>
      subst leg
      have hs : .tail .start ∈ ops c.todo := mem_of_head? top
      exact stays (hbe (he.open h hcl) (hf.start top queued) hs).1

lemma paused_alive_of_trace (hr : Trace step Init tr c)
    (hok : ∀ p ∈ tr, FailedReads p.1) (hcl : c.s.closing = false) (hb : c.s.bound = true)
    (hp : (c.s.side l).paused = true) : c.Alive l := by
  induction hr generalizing l with
  | start hi => simp [(unbound_init hi).1] at hb
  | next hr hs ih =>
    simp only [mem_cons, forall_eq_or_imp] at hok
    have hw := wf_of_trace hr
    obtain ⟨d', rfl, he⟩ := step_effect hw hs
    have hc := he.open hw hcl
    exact alive_sync.2 (he.paused_alive hw (flow_of_trace hr hc) (begins_of_trace hr)
      (fun hbc l => ih hok.2 hc hbc) hok.1 hcl hb (by simpa using hp))

/-- In every run in which no leg fails while the other one is paused, a leg that is paused between
events has a queue at the other end, whose io still has output to drain. -/
theorem paused_leg_backed {tr : List (Config × Label)} (hr : Trace step Init tr c)
    (hok : ∀ p ∈ tr, SurvivorReads p.1) (ht : c.todo = []) (hb : c.s.bound = true)
    (hc : c.s.closing = false) (hp : (c.s.side l).paused = true)
    (hl : c.Alive l ∨ ∀ p ∈ tr, FailedReads p.1) :
    c.Alive l.other ∧ (c.s.side l.other).pend ≠ [] ∧ (c.io l.other).drained = false := by
  have ha : c.Alive l := hl.elim id fun h => paused_alive_of_trace hr h hc hb hp
  obtain ⟨hao, hq⟩ := backed_of_trace hr hok hc hb ha hp
  have hq : (c.s.side l.other).pend ≠ [] := hq.resolve_right (by simp [ht])
  have hfl : (c.s.side l.other).flushing = false := by
    have hst := (wf_of_trace hr).reach.inv.stack l.other
    simpa [Config.relayed, ht] using hst.symm
  refine ⟨hao, hq, ?_⟩
  rcases (flow_of_trace hr hc).low _ hao hq hfl with ho | hh | hh
  · exact drained_of_owing ho
  · simp [ht] at hh
  · simp [ht] at hh

/-! ## A client that stops reading -/

def Unfailed (c : Config) : Prop :=
  ∃ tr, Trace step Init tr c ∧ ∀ p ∈ tr, ∀ l, p.1.todo.head? ≠ some (.cb l .error)

lemma Unfailed.next (h : Unfailed c) (hh : ∀ l, c.todo.head? ≠ some (.cb l .error))
    (hs : step c i = some d) : Unfailed d := by
  obtain ⟨tr, hr, hok⟩ := h
  refine ⟨_, hr.next hs, ?_⟩
  simpa using ⟨hh, fun a b hp => hok (a, b) hp⟩

def talking (t : Tcp) (acc rd : Bytes) (n : ℕ) (todo : List Level) : Config where
  s := { a := { io := some .tcp, acc := acc, drained := TmIo.tcpDrained t }
         b := { io := some (.ssl 1), rd := rd }, bound := true, downBytes := n }
  io := fun l => if l = .a then .tcp t else .tls agentConn
  todo := todo

lemma config_eq (hs : c.s = d.s) (hA : c.io .a = d.io .a) (hB : c.io .b = d.io .b)
    (ht : c.todo = d.todo) : c = d := by
  obtain ⟨s, io, todo⟩ := c
  obtain ⟨s', io', todo'⟩ := d
  have hio : io = io' := funext fun l => by cases l <;> assumption
  obtain ⟨rfl, rfl⟩ : s = s' ∧ todo = todo' := ⟨hs, ht⟩
  rw [hio]

section Chunk

variable {t u : Tcp} {acc rd data : Bytes} {n : ℕ}

lemma step_record (hd : data.length = 16384) :
    step (talking t acc rd n (readRest .b)) (.run {} (.data data true 0)) =
      some (talking t acc rd n (.cb .b (.read data) :: readRest .b)) := by
  have hne : data ≠ [] := by rintro rfl; simp at hd
  have hfit : fitsRead (talking t acc rd n (readRest .b)).s .b (.data data true 0) = true := by
    simp [fitsRead, fits, talking, Stream.side, hne, hd]
  have hact : act (talking t acc rd n (readRest .b)) (.run {} (.data data true 0)) =
      some ((talking t acc rd n (readRest .b)).enter .b
        ((Obj.tls agentConn).exec {} (.data data true 0) (.tls .readLoop))
        [.io .b (.tls .readEnd)]) := if_pos hfit
  rw [step, hact]
  exact congrArg some (config_eq rfl rfl rfl rfl)

lemma step_write {w : Ans × TmIo.Res} (hw : (Obj.tcp t).write data.length {} = w) :
    step (talking t acc rd n (.cb .b (.read data) :: readRest .b)) (.run {} .zero) =
      some (((talking t acc rd n (readRest .b)).relay
        (relayRead .b data w.1 ((talking t acc rd n (readRest .b)).s.noteRead .b data))
          (readRest .b)).enter .a w.2
          ((relayRead .b data w.1 ((talking t acc rd n (readRest .b)).s.noteRead .b data)).2.map .op
            ++ readRest .b)).sync := by
  subst hw
  rfl

lemma step_taken (hd : data.length = 16384) (hw : TmIo.tcpWrite 16384 true t = (.ok, u, none)) :
    step (talking t acc rd n (.cb .b (.read data) :: readRest .b)) (.run {} .zero) =
      some (talking u (acc ++ data) (rd ++ data) (n + 16384) (.op .inIo :: readRest .b)) := by
  rw [step_write (w := (.ok, { io := .tcp u })) (by simp [Obj.write, hd, hw])]
  refine congrArg some (config_eq ?_ rfl rfl rfl)
  rw [← hd]
  rfl

lemma Unfailed.record (h : Unfailed (talking t acc rd n (readRest .b)))
    (hd : data.length = 16384) (hw : TmIo.tcpWrite 16384 true t = (.ok, u, none)) :
    Unfailed (talking u (acc ++ data) (rd ++ data) (n + 16384) (readRest .b)) := by
  have h1 := h.next (by simp [talking, readRest]) (step_record hd)
  have h2 := h1.next (by simp [talking]) (step_taken hd hw)
  refine h2.next (i := .run {} .zero) (by simp [talking]) ?_
  exact congrArg some (config_eq (c := Config.sync _) rfl rfl rfl rfl)

end Chunk

def loaded (k : ℕ) : Tcp :=
  { reading := true, active := true, wbLen := 16384 * k, wbCap := 65536, inFlight := 16384
    wreqPending := true }

lemma unfailed_attached : Unfailed (talking (TmIo.tcpStart {}) [] [] 0 (readRest .b)) := by
  have h0 : Unfailed { s := createdOpen, io := fun _ => .gone } := ⟨[], .start (.inl rfl), by simp⟩
  have h1 := h0.next (i := .attach 1 agentConn) (by simp) rfl
  refine h1.next (i := .run {} .zero) (fun l => by cases l <;> decide) ?_
  exact congrArg some (config_eq (c := Config.sync _) rfl rfl rfl rfl)

lemma unfailed_loaded (hd : data.length = 16384) :
    ∃ acc rd n, Unfailed (talking (loaded 4) acc rd n (readRest .b)) :=
  ⟨_, _, _, (((unfailed_attached.record (u := loaded 1) hd (by decide +kernel)).record
    (u := loaded 2) hd (by decide +kernel)).record (u := loaded 3) hd (by decide +kernel)).record
    (u := loaded 4) hd (by decide +kernel)⟩

def backedUp (x : Tls.Stream) (acc rd data : Bytes) (n : ℕ) (todo : List Level) : Config where
  s := { a := { io := some .tcp, acc := acc, drained := false, pend := data }
         b := { io := some (.ssl 1), rd := rd, paused := true, drained := Tls.tmSslStreamDrained x }
         bound := true, downBytes := n }
  io := fun l => if l = .a then .tcp (loaded 4) else .tls x
  todo := todo

def pausedConn : Tls.Stream := { state := .opened, readStarted := true, readPaused := true }

lemma unfailed_backedUp (hd : data.length = 16384) :
    ∃ acc rd n, Unfailed (backedUp pausedConn acc rd data n []) := by
  obtain ⟨acc, rd, n, h⟩ := unfailed_loaded hd
  have h1 := h.next (by simp [talking, readRest]) (step_record hd)
  have h2 : Unfailed (backedUp { pausedConn with pumpingRead := true } acc (rd ++ data) data
      (n + data.length) (readRest .b)) :=
    h1.next (by simp [talking]) ((step_write (w := (.busy, { io := .tcp (loaded 4) }))
      (by rw [hd]; decide +kernel)).trans (congrArg some (config_eq rfl rfl rfl rfl)))
  have h3 : Unfailed (backedUp { pausedConn with pumpingRead := true } acc (rd ++ data) data
      (n + data.length) [.io .b (.tls .readEnd)]) :=
    h2.next (i := .run {} .zero) (by simp [backedUp, readRest])
      (congrArg some (config_eq (c := .sync _) rfl rfl rfl rfl))
  exact ⟨_, _, _, h3.next (i := .run {} .zero) (by simp [backedUp])
    (congrArg some (config_eq (c := .sync _) rfl rfl rfl rfl))⟩

lemma exists_record : ∃ data : Bytes, data.length = 16384 :=
  ⟨.replicate 16384 0, length_replicate⟩

theorem paused_leg_backed_slow_client : ∃ tr c, Trace step Init tr c ∧
    (c.todo = [] ∧ c.s.bound = true ∧ c.s.closing = false ∧ c.s.b.paused = true) ∧
    c.Alive .a ∧ c.s.a.pend ≠ [] ∧ (c.io .a).drained = false := by
  obtain ⟨data, hd⟩ := exists_record
  obtain ⟨acc, rd, n, tr, hr, hok⟩ := unfailed_backedUp hd
  refine ⟨tr, _, hr, ⟨rfl, rfl, rfl, rfl⟩, ?_⟩
  exact paused_leg_backed (l := .b) hr (fun p hp l hh => absurd hh (hok p hp l)) rfl rfl rfl rfl
    (.inr fun p hp l hh => absurd hh (hok p hp l))

/-- The client resets the connection while the agent leg is paused: the agent leg stays paused, with
no leg left that could resume it. -/
theorem paused_leg_wedged : ∃ tr c, Trace step Init tr c ∧ c.todo = [] ∧ c.s.bound = true ∧
    c.s.closing = false ∧ c.s.b.paused = true ∧ c.Alive .b ∧ ¬ c.Alive .a := by
  obtain ⟨data, hd⟩ := exists_record
  obtain ⟨acc, rd, n, tr, hr, -⟩ := unfailed_backedUp hd
  have h1 := hr.next (i := .event .a .error {}) rfl
  have h2 := h1.next (i := .run {} .zero) rfl
  have h3 := h2.next (i := .run {} .zero) rfl
  have h4 := h3.next (i := .run { shut := 24 } .zero) rfl
  have h5 := h4.next (i := .run {} .zero) rfl
  have h6 := h5.next (i := .run {} .zero) rfl
  exact ⟨_, _, h6, rfl, rfl, rfl, rfl, some_ne_none _, fun h => h rfl⟩

end TunnelMate.StreamIo
