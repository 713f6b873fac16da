import TunnelMate.Proofs.Relay

/-!
# Half-close through the broker's relay

When a leg has reached its end and nothing of it is queued, the other leg is owed a FIN, which may
stay owed only while the code that sends it is on the call stack (`FinInv`).
-/

namespace TunnelMate.Duplex

variable {τ : Type} {s : Stream} {l m : Leg} {f : Side → Side} {d : Bytes} {ans : Ans}

structure Stream.Owed (l : Leg) (s : Stream) : Prop where
  bound : s.bound = true
  closing : s.closing = false
  alive : ∀ m, (s.side m).io ≠ none
  eof : (s.side l).eof = true
  pend : (s.side l.other).pend = []
  fin : (s.side l).fin = false

def Meek (f : Side → Side) : Prop :=
  ∀ x, ((f x).io ≠ none → x.io ≠ none) ∧ ((f x).eof = true → x.eof = true)
    ∧ ((f x).pend = [] → x.pend = []) ∧ ((f x).fin = false → x.fin = false)

lemma Stream.Owed.of_upd (hf : Meek f) (h : (s.upd f m).Owed l) : s.Owed l := by
  obtain ⟨h1, h2, h3, h4, h5, h6⟩ := h
  have key : ∀ k, ((s.upd f m).side k = s.side k) ∨ (s.upd f m).side k = f (s.side k) := fun k => by
    rcases Leg.eq_or_other m k with rfl | rfl <;> simp
  refine ⟨by simpa using h1, by simpa using h2, fun k => ?_, ?_, ?_, ?_⟩
  · rcases key k with hk | hk
    · exact hk ▸ h3 k
    · exact (hf _).1 (hk ▸ h3 k)
  · rcases key l with hk | hk
    · exact hk ▸ h4
    · exact (hf _).2.1 (hk ▸ h4)
  · rcases key l.other with hk | hk
    · exact hk ▸ h5
    · exact (hf _).2.2.1 (hk ▸ h5)
  · rcases key l with hk | hk
    · exact hk ▸ h6
    · exact (hf _).2.2.2 (hk ▸ h6)

lemma not_owed_close : ¬ (tmStreamClose s).Owed l := fun h => by simpa using h.closing

lemma Stream.Owed.of_maybeClose (h : (streamMaybeClose s).Owed l) : s.Owed l := by
  unfold streamMaybeClose at h
  split_ifs at h
  all_goals first | exact h | exact absurd h not_owed_close

lemma owed_shutdownSend (h : (tmIoShutdownSend m s : _ × List (Op τ)).1.Owed l) : s.Owed l := by
  unfold tmIoShutdownSend at h
  split_ifs at h
  · exact h
  · dsimp only at h
    refine .of_upd (fun x => ?_) h
    simp

lemma shutdownSend_ops : ∀ o ∈ (tmIoShutdownSend m s : _ × List (Op τ)).2, o = .inIo := by
  unfold tmIoShutdownSend
  split_ifs <;> simp

lemma owed_resumeRead (h : (tmIoResumeRead m s : _ × List (Op τ)).1.Owed l) : s.Owed l := by
  unfold tmIoResumeRead at h
  split_ifs at h <;> exact h

lemma resumeRead_ops : ∀ o ∈ (tmIoResumeRead m s : _ × List (Op τ)).2, o = .inIo := by
  unfold tmIoResumeRead
  split_ifs <;> simp

lemma Stream.Owed.of_queueBehind (h : (queueBehind m d s).Owed l) : s.Owed l :=
  .of_upd (fun x => by simp; tauto) (.of_upd (fun x => by simp) h)

lemma relayWrite_owed (h : (relayWrite m d ans s : _ × List (Op τ)).1.Owed l) : s.Owed l := by
  unfold relayWrite at h
  split_ifs at h
  · exact h.of_queueBehind
  · obtain ⟨-, -, hw⟩ | ⟨-, -, hw⟩ | hw := tmIoWrite_cases m.other d ans s <;>
      rw [hw] at h <;> dsimp only at h
    · refine .of_upd (fun x => ?_) h
      simp
    · exact h.of_queueBehind
    · exact absurd h not_owed_close

lemma relayWrite_ops : ∀ o ∈ (relayWrite m d ans s : _ × List (Op τ)).2, o = .inIo := by
  unfold relayWrite
  split_ifs
  · simp
  · obtain ⟨-, -, hw⟩ | ⟨-, -, hw⟩ | hw := tmIoWrite_cases m.other d ans s <;> rw [hw] <;> simp

end TunnelMate.Duplex

namespace TunnelMate.Relay

open Duplex List

variable {s s' : Stream} {t : List (Op Tail)} {l m : Leg}

def looksAt (l : Leg) : Op Tail → Bool
  | .tail (.ended m) => m = l
  | .tail (.low m) => m = l.other
  | .tail .start => l = .a
  | _ => false

def Covered (l : Leg) : List (Op Tail) → Prop
  | [] => True
  | op :: t => (op.isFrame l.other = true → ∃ o ∈ t, looksAt l o = true) ∧ Covered l t

structure FinInv (c : Config Tail) : Prop where
  owed : ∀ l, c.s.Owed l → ∃ o ∈ c.todo, looksAt l o = true
  covered : ∀ l, Covered l c.todo

variable {ops : List (Op Tail)}

lemma notFrame_of_inIo (h : ∀ o ∈ ops, o = .inIo) :
    ∀ o ∈ ops, ∀ l, o.isFrame l = false := fun o ho l => by rw [h o ho]; rfl

lemma notFrame_append {op : Op Tail} (h : ∀ o ∈ ops, ∀ l, o.isFrame l = false)
    (hop : ∀ l, op.isFrame l = false) : ∀ o ∈ ops ++ [op], ∀ l, o.isFrame l = false := by
  intro o ho
  rcases mem_append.1 ho with ho | ho
  · exact h o ho
  · cases mem_singleton.1 ho
    exact hop

section Owed

variable {d : Bytes} {ans : Ans}

lemma queueEarly_owed (h : (queueEarly d s).Owed l) : s.Owed l := by
  unfold queueEarly at h
  dsimp only at h
  split_ifs at h
  · exact absurd h not_owed_close
  · have h' : ({ s with preq := s.preq ++ d }).Owed l := .of_upd (fun x => by simp) h
    exact ⟨h'.bound, h'.closing, h'.alive, h'.eof, h'.pend, h'.fin⟩
  · exact { h with }

lemma relayARead_owed (h : (relayARead d ans s).1.Owed l) : s.Owed l := by
  have hup : ∀ {n : ℕ}, { s with upBytes := n }.Owed l → s.Owed l := fun h => { h with }
  unfold relayARead at h
  dsimp only at h
  split_ifs at h
  · exact h
  · exact absurd h not_owed_close
  · exact hup (queueEarly_owed h)
  · exact hup (relayWrite_owed h)

lemma relayARead_ops : ∀ o ∈ (relayARead d ans s).2, o = .inIo := by
  unfold relayARead
  dsimp only
  split_ifs <;> first | exact relayWrite_ops | simp

lemma relayBRead_owed (h : (relayBRead d ans s).1.Owed l) : s.Owed l := by
  unfold relayBRead at h
  dsimp only at h
  split_ifs at h
  · exact h
  · exact absurd h not_owed_close
  · obtain ⟨h1, h2, h3, h4, h5, h6⟩ := relayWrite_owed h
    exact ⟨h1, h2, h3, h4, h5, h6⟩

lemma relayBRead_ops : ∀ o ∈ (relayBRead d ans s).2, o = .inIo := by
  unfold relayBRead
  dsimp only
  split_ifs <;> first | exact relayWrite_ops | simp

end Owed

section Stack

variable {op : Op Tail} {w : List (Op Tail)}

lemma Covered.append (h : Covered l t)
    (hops : ∀ o ∈ w, o.isFrame l.other = true → ∃ p ∈ t, looksAt l p = true) :
    Covered l (w ++ t) := by
  induction w with
  | nil => exact h
  | cons o w ih =>
    simp only [mem_cons, forall_eq_or_imp] at hops
    refine ⟨fun hf => ?_, ih hops.2⟩
    obtain ⟨p, hp, hl⟩ := hops.1 hf
    exact ⟨p, mem_append_right _ hp, hl⟩

lemma FinInv.mono (h : FinInv ⟨s, t⟩) (hs : ∀ l, s'.Owed l → s.Owed l)
    (hops : ∀ o ∈ w, ∀ l, o.isFrame l = false) : FinInv ⟨s', w ++ t⟩ := by
  refine ⟨fun l ho => ?_, fun l => (h.covered l).append fun o ho hf => by simp [hops o ho] at hf⟩
  obtain ⟨o, ho, hl⟩ := h.owed l (hs l ho)
  exact ⟨o, mem_append_right _ ho, hl⟩

lemma FinInv.done (h : FinInv ⟨s, op :: t⟩) (hs : ∀ l, s'.Owed l → s.Owed l ∧ looksAt l op = false)
    (hops : ∀ o ∈ w, ∀ l, o.isFrame l = false) : FinInv ⟨s', w ++ t⟩ := by
  refine ⟨fun l ho => ?_, fun l => (h.covered l).2.append fun o ho hf => by simp [hops o ho] at hf⟩
  obtain ⟨o, hm, hl⟩ := h.owed l (hs l ho).1
  rcases mem_cons.1 hm with rfl | hm
  · simp [(hs l ho).2] at hl
  · exact ⟨o, mem_append_right _ hm, hl⟩

lemma FinInv.flush (h : FinInv ⟨s, op :: t⟩) (hop : op.isFrame l = true)
    (hs : ∀ m, s'.Owed m → s.Owed m ∨ m = l.other)
    (hops : ∀ o ∈ w, ∀ m, o.isFrame m = true → l = m) : FinInv ⟨s', w ++ t⟩ := by
  have htail : ∃ o ∈ t, looksAt l.other o = true := by
    have := (h.covered l.other).1
    rw [Leg.other_other] at this
    exact this hop
  have hlook : ∀ m, looksAt m op = false := fun m => by
    cases op <;> first | rfl | simp [Op.isFrame] at hop
  refine ⟨fun m ho => ?_, fun m => (h.covered m).2.append fun o ho hf => ?_⟩
  · rcases hs m ho with ho | rfl
    · obtain ⟨o, hm, hl⟩ := h.owed m ho
      rcases mem_cons.1 hm with rfl | hm
      · simp [hlook] at hl
      · exact ⟨o, mem_append_right _ hm, hl⟩
    · obtain ⟨o, hm, hl⟩ := htail
      exact ⟨o, mem_append_right _ hm, hl⟩
  · have : m = l.other := by rw [hops o ho _ hf, Leg.other_other]
    exact this ▸ htail

lemma FinInv.flushPend {o : Op Tail} (h : FinInv ⟨s, t⟩) (hs : s'.Owed l → s.Owed l)
    (ho : looksAt l.other o = true) :
    FinInv ⟨(flushPend l s' : _ × List (Op Tail)).1, (flushPend l s').2 ++ o :: t⟩ := by
  have hof : ∀ m, o.isFrame m = false := fun m => by
    cases o <;> first | rfl | simp [looksAt] at ho
  have howed : ∀ m, (Duplex.flushPend l s' : _ × List (Op Tail)).1.Owed m → s'.Owed m := by
    intro m hm
    unfold Duplex.flushPend at hm
    split_ifs at hm
    · exact hm
    · dsimp only at hm
      refine .of_upd (fun x => ?_) hm
      simp
  have hframe : ∀ p ∈ (Duplex.flushPend l s' : _ × List (Op Tail)).2, ∀ m,
      p.isFrame m = true → l = m := by
    unfold Duplex.flushPend
    split_ifs <;> simp [Op.isFrame]
  have hcov : ∀ m, Covered m (o :: t) := fun m => ⟨fun hf => by simp [hof] at hf, h.covered m⟩
  refine ⟨fun m hm => ?_, fun m => (hcov m).append fun p hp hf => ?_⟩
  · rcases Leg.eq_or_other l m with rfl | rfl
    · obtain ⟨p, hp, hl⟩ := h.owed m (hs (howed m hm))
      exact ⟨p, by simp [hp], hl⟩
    · exact ⟨o, by simp, ho⟩
  · have : m = l.other := by rw [hframe p hp _ hf, Leg.other_other]
    exact ⟨o, by simp, this ▸ ho⟩

end Stack

section Events

variable {ans : Ans} {op : Op Tail} {r : Stream × List (Op Tail)}

lemma FinInv.legEnded (h : FinInv ⟨s, t⟩) (hs : ∀ m, s'.Owed m → m ≠ l → s.Owed m) :
    FinInv ⟨(legEnded l s').1, (legEnded l s').2 ++ t⟩ := by
  unfold Relay.legEnded
  split_ifs with hi
  · refine h.mono (w := []) (fun m ho => ?_) (by simp)
    exact absurd hi (ho.of_maybeClose.alive _)
  · simp only [append_assoc, singleton_append]
    exact h.flushPend (fun ho => hs _ ho (by simp)) (by simp [looksAt])

variable {f : Side → Side}

lemma owed_ended (h : (s.upd f l).Owed m)
    (hf : ∀ x, ((f x).io ≠ none → x.io ≠ none) ∧ (f x).pend = x.pend) (hm : m ≠ l) : s.Owed m := by
  obtain rfl : m = l.other := (Leg.eq_or_other l m).resolve_left hm
  obtain ⟨h1, h2, h3, h4, h5, h6⟩ := h
  refine ⟨by simpa using h1, by simpa using h2, fun k => ?_, by simpa using h4,
    by simpa [hf] using h5, by simpa using h6⟩
  rcases Leg.eq_or_other l k with rfl | rfl
  · exact (hf _).1 (by simpa using h3 k)
  · simpa using h3 l.other

lemma owed_shrunk (h : (s.upd f l).Owed m)
    (hf : ∀ x, (f x).io = x.io ∧ (f x).eof = x.eof ∧ (f x).fin = x.fin) :
    s.Owed m ∨ m = l.other := by
  rcases Leg.eq_or_other l m with rfl | rfl
  · obtain ⟨h1, h2, h3, h4, h5, h6⟩ := h
    refine .inl ⟨by simpa using h1, by simpa using h2, fun k => ?_, by simpa [hf] using h4,
      by simpa using h5, by simpa [hf] using h6⟩
    rcases Leg.eq_or_other m k with rfl | rfl
    · simpa [hf] using h3 k
    · simpa using h3 m.other
  · exact .inr rfl

section

variable (h : FinInv ⟨s, t⟩)
include h

lemma FinInv.relayEof : FinInv ⟨(relayEof l s).1, (relayEof l s).2 ++ t⟩ := by
  unfold Relay.relayEof
  split_ifs
  · exact h
  · refine h.legEnded fun m ho => owed_ended ho fun x => ?_
    simp

lemma FinInv.relayError : FinInv ⟨(relayError l s).1, (relayError l s).2 ++ t⟩ := by
  unfold Relay.relayError
  split_ifs
  · exact h
  · refine h.legEnded fun m ho => owed_ended ho fun x => ?_
    simp

lemma FinInv.relayLow : FinInv ⟨(relayLow l s).1, (relayLow l s).2 ++ t⟩ := by
  unfold Relay.relayLow
  split_ifs
  · exact h
  · exact h.mono (w := []) (fun m ho => ho.of_maybeClose) (by simp)
  · simp only [append_assoc, singleton_append]
    exact h.flushPend id (by simp [looksAt])

end

lemma FinInv.attachAgent (io : Io) (hi : Inv (⟨s, []⟩ : Config Tail)) (h : FinInv ⟨s, []⟩) :
    FinInv ⟨(tmStreamRelayAttachAgent io s).1, (tmStreamRelayAttachAgent io s).2⟩ := by
  obtain he | ⟨hc, hu, he⟩ := attachAgent_cases io s
  · rw [he]
    exact h
  -- leg B has not ended, so only the FIN of leg A can be due
  have hb : ¬ (attached io s).Owed .b := fun ho => by
    have : s.b.eof = false := (hi.unbound hu).2.1
    simpa [attached, Stream.side, this] using ho.eof
  obtain he | he := he <;> rw [he]
  · refine ⟨fun l ho => ?_, fun l => ⟨by simp [Op.isFrame], trivial⟩⟩
    cases l
    · exact ⟨.tail .start, by simp, rfl⟩
    · exact absurd ho hb
  · exact h.flushPend (fun ho => absurd ho hb) rfl

lemma FinInv.tailStep {k : Tail} (h : FinInv ⟨s, .tail k :: t⟩) (hk : k = .start → ¬ s.Owed .a) :
    FinInv ⟨(tail k s).1, (tail k s).2 ++ t⟩ := by
  cases k with
  | maybeClose => exact h.done (w := []) (fun m ho => ⟨ho.of_maybeClose, rfl⟩) (by simp)
  | ended =>
    simp only [tail]
    split_ifs with hp
    · refine h.done (w := []) (fun m ho => ⟨ho.of_maybeClose, ?_⟩) (by simp)
      simp only [looksAt, decide_eq_false_iff_not]
      rintro rfl
      exact hp ho.of_maybeClose.pend
    · refine h.done (fun m ho => ?_) ?_
      · have ho' := owed_shutdownSend ho
        refine ⟨.of_upd (fun x => by simp) ho', ?_⟩
        simp only [looksAt, decide_eq_false_iff_not]
        rintro rfl
        simpa using ho'.fin
      · exact notFrame_append (notFrame_of_inIo shutdownSend_ops) fun _ => rfl
  | low l =>
    simp only [tail]
    split_ifs with hp hef
    · refine h.done (w := []) (fun m ho => ⟨ho.of_maybeClose, ?_⟩) (by simp)
      simp only [looksAt, decide_eq_false_iff_not]
      rintro rfl
      exact hp (by simpa using ho.of_maybeClose.pend)
    · refine h.done (fun m ho => ?_) ?_
      · have ho' := owed_shutdownSend ho
        refine ⟨.of_upd (fun x => by simp) ho', ?_⟩
        simp only [looksAt, decide_eq_false_iff_not]
        rintro rfl
        simpa using ho'.fin
      · exact notFrame_append (notFrame_of_inIo shutdownSend_ops) fun _ => rfl
    · refine h.done (w := [.tail (.lowResume l)]) (fun m ho => ⟨ho, ?_⟩) (by simp [Op.isFrame])
      simp only [looksAt, decide_eq_false_iff_not]
      rintro rfl
      exact hef (by simp [ho.eof, ho.fin])
  | lowResume =>
    simp only [tail]
    split_ifs
    · refine h.done (fun m ho => ⟨.of_upd (fun x => by simp) (owed_resumeRead ho), rfl⟩) ?_
      exact notFrame_append (notFrame_of_inIo resumeRead_ops) fun _ => rfl
    · exact h.done (w := [.tail .maybeClose]) (fun m ho => ⟨ho, rfl⟩) (by simp [Op.isFrame])
  | start =>
    have hlook : ∀ m, s.Owed m → looksAt m (.tail .start) = false := fun m ho => by
      cases m
      · exact absurd ho (hk rfl)
      · rfl
    simp only [tail]
    split_ifs
    · refine h.done (w := []) (fun m ho => ?_) (by simp)
      dsimp only at ho
      have ho' : s.Owed m := .of_upd (fun x => by simp) ho
      exact ⟨ho', hlook m ho'⟩
    · refine h.done (fun m ho => ?_) (notFrame_of_inIo resumeRead_ops)
      have ho' : s.Owed m := .of_upd (fun x => by simp) (owed_resumeRead ho)
      exact ⟨ho', hlook m ho'⟩
    · exact h.done (w := []) (fun m ho => ⟨ho, hlook m ho⟩) (by simp)

lemma FinInv.exec (h : FinInv ⟨s, op :: t⟩) (hop : op = .tail .start → ¬ s.Owed .a)
    (he : exec tail ans s op = some r) : FinInv ⟨r.1, r.2 ++ t⟩ := by
  cases op with
  | flushLoop l =>
    have hfl : (.flushLoop l : Op Tail).isFrame l = true := by simp [Op.isFrame]
    simp only [exec] at he
    split_ifs at he with hp hi
    · cases he
      dsimp only
      exact h.flush hfl (fun m ho => owed_shrunk ho fun x => by simp) (by simp)
    generalize min (s.side l).pend.length flushMax = n at he
    obtain ⟨-, -, hw⟩ | ⟨-, -, hw⟩ | hw := tmIoWrite_cases l ((s.side l).pend.take n) ans s <;>
      rw [hw] at he <;> cases he <;> dsimp only
    · exact h.flush hfl (fun m ho => owed_shrunk ho fun x => by simp) (by simp [Op.isFrame])
    · exact h.flush hfl (fun m ho => owed_shrunk ho fun x => by simp) (by simp)
    · refine h.flush hfl (fun m ho => ?_) (by simp)
      refine owed_shrunk (l := l) (f := fun x => { x with
        shut := true, lost := true, pend := [], flushing := false }) ?_ fun x => by simp
      cases l <;> exact ho
  | flushShift l =>
    simp only [exec] at he
    split_ifs at he with hc
    cases he
    dsimp only
    exact h.flush (l := l) (by simp [Op.isFrame])
      (fun m ho => owed_shrunk ho fun x => by simp) (by simp [Op.isFrame])
  | inIo =>
    cases he
    exact h.done (fun m ho => ⟨ho, rfl⟩) (by simp)
  | tail =>
    cases he
    exact h.tailStep fun hk => hop (by rw [hk])

end Events

section Runs

variable {c c' : Config Tail} {i : Label} {tr : List (Config Tail × Label)}

def HalfClosed (s : Stream) : Prop :=
  ∀ l, s.bound = true → s.closing = false → (∀ m, (s.side m).io ≠ none) →
    (s.side l).eof = true → s.queue l.other = [] → (s.side l).fin = true

def StartOk (c : Config Tail) (i : Label) : Prop :=
  ∀ ans t, i = .run ans → c.todo = .tail .start :: t → ¬ c.s.Owed .a

lemma step_finInv (hi : Inv c) (h : FinInv c) (hok : StartOk c i) (hs : step c i = some c') :
    FinInv c' := by
  obtain ⟨s, t⟩ := c
  cases i with
  | read l d =>
    obtain ⟨-, rfl⟩ := of_guard hs
    have hnote : ∀ {m}, (s.noteRead l d).Owed m → s.Owed m := .of_upd fun x => by simp
    cases l
    · exact h.mono (fun m ho => hnote (relayARead_owed ho)) (notFrame_of_inIo relayARead_ops)
    · exact h.mono (fun m ho => hnote (relayBRead_owed ho)) (notFrame_of_inIo relayBRead_ops)
  | eof =>
    obtain ⟨-, rfl⟩ := of_guard hs
    exact h.relayEof
  | error =>
    obtain ⟨-, rfl⟩ := of_guard hs
    exact h.relayError
  | low =>
    obtain ⟨-, rfl⟩ := of_guard hs
    exact h.relayLow
  | ingestA d =>
    obtain ⟨-, rfl⟩ := of_guard hs
    have hnote : ∀ {m}, (s.noteRead .a d).Owed m → s.Owed m := .of_upd fun x => by simp
    exact h.mono (fun m ho => hnote (relayARead_owed ho)) (notFrame_of_inIo relayARead_ops)
  | ingestB d =>
    obtain ⟨-, rfl⟩ := of_guard hs
    have hnote : ∀ {m}, (s.noteRead .b d).Owed m → s.Owed m := .of_upd fun x => by simp
    exact h.mono (fun m ho => hnote (relayBRead_owed ho)) (notFrame_of_inIo relayBRead_ops)
  | attach io =>
    obtain ⟨rfl, rfl⟩ := of_guard hs
    simpa [Config.push] using h.attachAgent io hi
  | bindTimer =>
    obtain ⟨-, rfl⟩ := of_guard hs
    split_ifs
    · exact h
    · exact h.mono (w := []) (fun m ho => absurd ho not_owed_close) (by simp)
  | close =>
    obtain ⟨-, rfl⟩ := of_guard hs
    exact h.mono (w := []) (fun m ho => absurd ho not_owed_close) (by simp)
  | run ans =>
    cases t with
    | nil => simp [step, Config.run] at hs
    | cons op t =>
      simp only [step, Config.run, Option.map_eq_some_iff] at hs
      obtain ⟨r, he, rfl⟩ := hs
      exact h.exec (fun hop => hok ans t rfl (by rw [hop])) he
  | drain =>
    cases hs
    exact h.mono (w := []) (fun m ho => .of_upd (fun x => by simp) ho) (by simp)

lemma finInv_init (h : Init c) : FinInv c := by
  obtain ⟨s, t⟩ := c
  obtain ⟨rfl, hs⟩ := h
  refine ⟨fun l ho => ?_, fun l => trivial⟩
  have := ho.bound
  rcases hs with rfl | ⟨k, rfl⟩ <;> simp [createdOpen, createdClosed] at this

lemma trace_finInv (h : Trace step Init tr c) (hok : ∀ p ∈ tr, StartOk p.1 p.2) : FinInv c :=
  (h.inv_of_ok (I := fun c => Inv c ∧ FinInv c) (fun _ h => ⟨inv_init h, finInv_init h⟩)
    (fun _ _ _ h hok hs => ⟨step_inv h.1 hs, step_finInv h.1 h.2 hok hs⟩) hok).2

lemma not_halfClosed_of_owed (h : Inv c) (ho : c.s.Owed l) : ¬ HalfClosed c.s := fun hh => by
  have hq : c.s.queue l.other = [] := by
    have := (h.bound ho.bound).1
    simp [Stream.queue, ho.pend, this]
  simpa [ho.fin] using hh l ho.bound ho.closing ho.alive ho.eof hq

lemma startTail_owed (h : Trace step Init tr c) (ht : c.todo = [.tail .start]) (ho : c.s.Owed .a) :
    ∃ tr' c', Trace step Init (tr' ++ tr) c' ∧ c'.todo = [] ∧ c'.s.Owed .a := by
  obtain ⟨s, t⟩ := c
  obtain rfl : t = [.tail .start] := ht
  have hp : s.b.pend = [] := ho.pend
  have hi : s.a.io ≠ none := ho.alive .a
  by_cases hpa : s.a.paused = true
  · have h1 : step ⟨s, [.tail .start]⟩ (.run .ok)
        = some ⟨s.upd (fun x => { x with paused := false }) .a, [.inIo]⟩ := by
      simp [step, Config.run, exec, tail, hp, hpa, tmIoResumeRead, Stream.side, Stream.upd, hi]
    refine ⟨[_, _], _, (h.next h1).next (i := .run .ok) rfl, rfl, ?_⟩
    exact ⟨ho.bound, ho.closing, fun m => by cases m; exacts [hi, ho.alive .b], ho.eof, hp, ho.fin⟩
  · have h1 : step ⟨s, [.tail .start]⟩ (.run .ok) = some ⟨s, []⟩ := by
      simp [step, Config.run, exec, tail, hp, hpa]
    exact ⟨[_], _, h.next h1, rfl, ho⟩

/-- In every run in which the tail of `tm_stream_relay_start` never runs while the FIN of leg A is
due, every state between events has both half-closes requested. -/
theorem relay_halfClosed (h : Trace step Init tr c) :
    ((∀ p ∈ tr, StartOk p.1 p.2) → c.todo = [] → HalfClosed c.s) ∧
    (c.todo = [.tail .start] → c.s.Owed .a →
      ∃ tr' c', Trace step Init (tr' ++ tr) c' ∧ c'.todo = [] ∧ ¬ HalfClosed c'.s) := by
  refine ⟨fun hok ht l hb hc hal he hq => ?_, fun ht ho => ?_⟩
  · by_contra hf
    have hp : (c.s.side l.other).pend = [] := by
      simp only [Stream.queue, append_eq_nil_iff] at hq
      exact hq.1
    obtain ⟨o, hm, -⟩ := (trace_finInv h hok).owed l ⟨hb, hc, hal, he, hp, by simpa using hf⟩
    simp [ht] at hm
  · obtain ⟨tr', c', h', ht', ho'⟩ := startTail_owed h ht ho
    exact ⟨tr', c', h', ht', not_halfClosed_of_owed (trace_inv h') ho'⟩

theorem relay_halfClosed_eof_after_attach : ∃ tr c, Trace step Init tr c ∧
    (c.s.a.eof = true ∧ c.s.a.fin = true) ∧ HalfClosed c.s := by
  obtain ⟨tr, c, h, ⟨ht, hok⟩, hc⟩ := exists_trace step Init
    (s := ⟨createdClosed 0, []⟩) ⟨rfl, .inr ⟨0, rfl⟩⟩
    [.attach (.ssl 1), .run .ok, .eof .a, .run .ok, .run .ok, .run .ok, .run .ok]
    (fun r => (r.2.todo = [] ∧
        ∀ p ∈ r.1, p.1.todo.head? = some (.tail .start) → p.1.s.a.eof = false) ∧
      r.2.s.a.eof = true ∧ r.2.s.a.fin = true) (by decide)
  refine ⟨tr, c, h, hc, (relay_halfClosed h).1 (fun p hp ans t _ h1 ho => ?_) ht⟩
  simpa [hok p hp (by simp [h1]), Stream.side] using ho.eof

/-- The peer of a closed tunnel ends its stream before the agent attaches: no FIN is sent. -/
theorem relay_halfClosed_eof_before_attach : ∃ tr c,
    replay step ⟨createdClosed 0, []⟩ [.eof .a, .attach (.ssl 1), .run .ok] [] = some (tr, c) ∧
    Trace step Init tr c ∧ c.todo = [] ∧ ¬ HalfClosed c.s := by
  obtain ⟨tr, c, hr, h, ht, hb, hc, hio, he, hq, hf⟩ := exists_replay step Init
    (s := ⟨createdClosed 0, []⟩) ⟨rfl, .inr ⟨0, rfl⟩⟩ [.eof .a, .attach (.ssl 1), .run .ok]
    (fun r => r.2.todo = [] ∧ r.2.s.bound = true ∧ r.2.s.closing = false ∧
      (r.2.s.a.io ≠ none ∧ r.2.s.b.io ≠ none) ∧ r.2.s.a.eof = true ∧ r.2.s.queue .b = [] ∧
      r.2.s.a.fin = false) (by decide)
  refine ⟨tr, c, hr, h, ht, fun hall => ?_⟩
  have := hall .a hb hc (fun m => by cases m; exacts [hio.1, hio.2]) he hq
  exact Bool.false_ne_true (hf.symm.trans this)

end Runs

end TunnelMate.Relay
