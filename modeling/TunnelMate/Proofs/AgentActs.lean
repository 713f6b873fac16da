import TunnelMate.Proofs.Agent

/-!
# What the callbacks do to the control connection

A callback other than the reconnect timer's is made up of disconnects, the registration, a shutdown
and changes that leave the history of `ctl_sock` and the delay of reconnects alone.
-/

namespace TunnelMate.Agent

open App

section

variable {cfg : Cfg} {a b c : App}

/-- The history of `ctl_sock` and what reconnects depend on. -/
def App.backoff (a : App) : List Handle × Bool × ℕ × List ℕ :=
  (a.ctlInits, a.shuttingDown, a.reconnectDelayMs, a.armed)

/-- No reconnect is due while `ctl_sock` is in use. -/
def App.Parked (a : App) : Prop := a.reconnectTimer = true → a.ctlSock ≠ .active

lemma fields_of_control (he : b.control = a.control) :
    b.backoff = a.backoff ∧ (a.Parked → b.Parked) := by
  have h : b.control.backoff = a.control.backoff ∧ (a.control.Parked → b.control.Parked) := by
    rw [he]
    exact ⟨rfl, id⟩
  exact h

/-- What is left of the control connection, with the socket in state `x`. -/
def App.cut (x : Handle) (a : App) : App :=
  { a with
    ctlSock := x, ctlIo := false, ctlSsl := false, ctlFr := [], hbTimer := false, hsTimer := false
    connected := false, connecting := false, registered := false, gotHello := false }

lemma control_retryLater (a : App) : (a.retryLater cfg).control = a.control.retryLater cfg := by
  unfold retryLater
  change _ = if a.shuttingDown then _ else _
  split_ifs <;> rfl

lemma tmAgentDisconnect_cases (cfg : Cfg) (a : App) :
    (a.connecting = false ∧ a.connected = false ∧ a.registered = false ∧
      a.tmAgentDisconnect cfg = a) ∨
    ∃ x ≠ .active, (a.tmAgentDisconnect cfg).control = ((a.cut x).retryLater cfg).control := by
  obtain ⟨x, hne, hx⟩ := closeCtlSock_eq a
  unfold tmAgentDisconnect
  by_cases hup : (!a.connecting && !a.connected && !a.registered) = true
  · rw [if_pos hup]
    simp only [Bool.and_eq_true, Bool.not_eq_true'] at hup
    exact .inl ⟨hup.1.1, hup.1.2, hup.2, rfl⟩
  refine .inr ⟨x, hne, ?_⟩
  -- the streams go with the connection
  have hc : (if a.registered then (a.cut x).closeAll else a.cut x).control = (a.cut x).control := by
    split_ifs
    · exact control_closeAll _
    · rfl
  rw [if_neg hup, hx, control_retryLater, control_retryLater, ← hc]
  rfl

/-- The base of the delays after one more disconnect. -/
def App.nextDelay (cfg : Cfg) (a : App) : ℕ := min (a.reconnectDelayMs * 2) cfg.reconnectMaxDelayMs

/-- The delay `a` would start the reconnect timer with. -/
def App.jitter (a : App) (delay : ℕ) : ℕ := reconnectWithJitter delay (a.samples.headD 0)

lemma retryLater_fields (cfg : Cfg) (a : App) : (a.retryLater cfg).ctlSock = a.ctlSock ∧
    (a.shuttingDown = true → (a.retryLater cfg).backoff = a.backoff) ∧
    (a.shuttingDown = false → (a.retryLater cfg).backoff =
      (a.ctlInits, false, a.nextDelay cfg, a.jitter (a.nextDelay cfg) :: a.armed)) := by
  unfold retryLater
  cases h : a.shuttingDown with
  | true => exact ⟨rfl, fun _ => rfl, nofun⟩
  | false => exact ⟨rfl, nofun, fun _ => rfl⟩

lemma tmAgentDisconnect_fields (cfg : Cfg) (a : App) :
    (a.Parked → (a.tmAgentDisconnect cfg).Parked) ∧
    (a.shuttingDown = true → (a.tmAgentDisconnect cfg).backoff = a.backoff) ∧
    ((a.connecting || a.connected || a.registered) = true → a.shuttingDown = false →
      (a.tmAgentDisconnect cfg).backoff =
        (a.ctlInits, false, a.nextDelay cfg, a.jitter (a.nextDelay cfg) :: a.armed)) := by
  rcases tmAgentDisconnect_cases cfg a with ⟨h1, h2, h3, h⟩ | ⟨x, hx, h⟩
  · rw [h]
    exact ⟨id, fun _ => rfl, fun hup => by simp [h1, h2, h3] at hup⟩
  · obtain ⟨hf, hp⟩ := fields_of_control h
    obtain ⟨hs, hoff, hon⟩ := retryLater_fields cfg (a.cut x)
    exact ⟨fun _ => hp fun _ => hs ▸ hx, fun h => hf.trans (hoff h), fun _ h => hf.trans (hon h)⟩

lemma tmAgentShutdown_fields (a : App) : (a.Parked → a.tmAgentShutdown.Parked) ∧
    a.tmAgentShutdown.backoff = (a.ctlInits, true, a.reconnectDelayMs, a.armed) := by
  obtain ⟨x, hne, hx⟩ := closeCtlSock_eq a
  unfold tmAgentShutdown
  rw [hx]
  split_ifs with h
  · exact ⟨id, by rw [backoff, h]⟩
  · obtain ⟨hf, hp⟩ := fields_of_control (control_closeAll { a with
      ctlSock := x, shuttingDown := true, reconnectTimer := false, ctlIo := false, ctlSsl := false
      hbTimer := false, hsTimer := false })
    exact ⟨fun _ => hp fun _ => hne, hf⟩

/-- What happens to the delay of reconnects, with the delays the timer is started with: after a
disconnect, and after a connect that has failed at once. -/
inductive Act
  | disconnect (delay : ℕ) | retry (delay : ℕ) | registerOk

def Act.armed : Act → Option ℕ
  | .disconnect delay | .retry delay => some delay
  | .registerOk => none

/-- The disconnects since the last registration, in a course of acts, the latest first; `k` before
it. -/
def drops (l : List Act) (k : ℕ) : ℕ :=
  l.foldr (fun act k => match act with
    | .disconnect _ => k + 1
    | .retry _ => k
    | .registerOk => 0) k

variable (cfg) in
/-- A callback that makes `b` of `a` is a course of acts, the latest first. -/
inductive Acts : List Act → App → App → Prop
  | same {a b : App} : b.backoff = a.backoff → (a.Parked → b.Parked) → Acts [] a b
  /-- Of an agent that is not shutting down. -/
  | disconnect {a : App} : (a.connecting || a.connected || a.registered) = true →
      a.shuttingDown = false →
      Acts [.disconnect (a.jitter (a.nextDelay cfg))] a (a.tmAgentDisconnect cfg)
  | registerOk {a : App} : a.registered = false → Acts [.registerOk] a
      { a with registered := true, reconnectDelayMs := cfg.reconnectDelayMs, hbTimer := true }
  | shutdown (a : App) : Acts [] a a.tmAgentShutdown
  | trans {l m : List Act} {a b c : App} : Acts l a b → Acts m b c → Acts (m ++ l) a c

lemma Acts.keeps {l : List Act} (h : Acts cfg l a b) : b.ctlInits = a.ctlInits ∧
    (a.shuttingDown = true → b.shuttingDown = true) ∧ (a.Parked → b.Parked) := by
  induction h with
  | same hb hp => exact ⟨congrArg Prod.fst hb, (congrArg (·.2.1) hb).trans, hp⟩
  | disconnect hup hoff =>
    obtain ⟨hp, -, hb⟩ := tmAgentDisconnect_fields cfg _
    exact ⟨congrArg Prod.fst (hb hup hoff), fun h => absurd (hoff.symm.trans h) (by decide), hp⟩
  | registerOk => exact ⟨rfl, id, id⟩
  | shutdown a =>
    obtain ⟨hp, hb⟩ := tmAgentShutdown_fields a
    exact ⟨congrArg Prod.fst hb, fun _ => congrArg (·.2.1) hb, hp⟩
  | trans _ _ ih ih' => exact ⟨ih'.1.trans ih.1, ih'.2.1 ∘ ih.2.1, ih'.2.2 ∘ ih.2.2⟩

/-! ## What a callback is made up of -/

/-- Where the records of streams are. -/
def App.table (a : App) : List AStream × List AStream × List AStream × Ref :=
  (a.streams, a.dying, a.freed, a.nextRef)

/-- A change of one stream; `Q` is what the set-up of its data connection meets. -/
inductive StreamMove (cfg : Cfg) (Q : FrameAns → Prop) (a : App) : App → Prop
  | put {st st' : AStream} : st ∈ a.streams ++ a.dying →
      (st' = st.close ∨ ∃ ev e, st.event cfg.agentSecret ev = some (st', e)) →
      StreamMove cfg Q a (a.put st')
  | opened (sid : ℕ) {ans : FrameAns} : Q ans → StreamMove cfg Q a (a.tmAstreamOpen sid ans)
  | closed {st : AStream} {w : Which} : st ∈ a.dying → st.handle w = .closing →
      StreamMove cfg Q a (a.streamSockClosed w st)

variable {Q : FrameAns → Prop}

lemma StreamMove.control (h : StreamMove cfg Q a b) : b.control = a.control := by
  cases h with
  | put => exact control_put _ a
  | opened => exact control_tmAstreamOpen _ _ a
  | closed => exact control_streamSockClosed _ _ a

variable (cfg Q) in
/-- A relation that holds of what callbacks are made up of. -/
structure ActRule (R : App → App → Prop) : Prop where
  same : ∀ {a b : App}, b.backoff = a.backoff → (a.Parked → b.Parked) → b.table = a.table → R a b
  stream : ∀ {a b : App}, StreamMove cfg Q a b → R a b
  disconnect : ∀ a : App, R a (a.tmAgentDisconnect cfg)
  registerOk : ∀ {a : App}, a.registered = false → R a
    { a with registered := true, reconnectDelayMs := cfg.reconnectDelayMs, hbTimer := true }
  shutdown : ∀ a : App, R a a.tmAgentShutdown
  trans : ∀ {a b c : App}, R a b → R b c → R a c

def Label.opens : Label → List FrameAns
  | .ctlRead _ _ ans => {} :: ans
  | _ => []

namespace ActRule

variable {R : App → App → Prop} (hR : ActRule cfg Q R)
include hR

lemma refl (a : App) : R a a := hR.same rfl id rfl

lemma sendFrame (f : Out) (ok : Bool) (a : App) : R a (a.tmAgentSendFrame cfg f ok) := by
  unfold tmAgentSendFrame
  split_ifs
  · exact hR.refl a
  · exact hR.disconnect a
  · exact hR.same rfl id rfl

lemma close (r : Ref) (a : App) : R a (a.tmAstreamClose r) := by
  unfold tmAstreamClose
  split
  · exact hR.refl a
  · rename_i st hst
    split_ifs
    · exact hR.refl a
    · exact hR.stream (.put (List.mem_append_left _ (Table.mem_of_get hst)) (.inl rfl))

lemma ctlFrame {ans : FrameAns} (hq : Q ans) (f : Frame) (a : App) :
    R a (a.ctlFrame cfg f ans).1 := by
  unfold App.ctlFrame
  split
  · have hh : R a { a with gotHello := true } := hR.same rfl id rfl
    dsimp only
    split_ifs
    · exact hR.refl a
    · exact hR.trans hh (hR.shutdown _)
    · exact hR.trans hh (hR.sendFrame _ _ _)
  · split_ifs with hr
    · exact hR.refl a
    · exact hR.registerOk (by simpa using hr)
  · exact hR.disconnect a
  · exact hR.sendFrame _ _ a
  · split_ifs
    · exact hR.stream (.opened _ hq)
    · exact hR.refl a
  · split
    · exact hR.refl a
    · exact hR.close _ a
  · exact hR.disconnect a
  · exact hR.refl a

lemma ctlLoop (hq : Q {}) (n : ℕ) (fed : Fed) {ans : List FrameAns} (hans : ∀ x ∈ ans, Q x)
    (a : App) : R a (a.ctlLoop cfg n fed ans) := by
  induction n generalizing fed ans a with
  | zero =>
    rcases fed with _ | _ | f
    · exact hR.refl a
    · exact hR.disconnect a
    · exact hR.refl a
  | succ n ih =>
    rcases fed with _ | _ | f
    · exact hR.refl a
    · exact hR.disconnect a
    · have hhead : Q (ans.headD {}) := by
        cases ans with
        | nil => exact hq
        | cons x => exact hans x List.mem_cons_self
      have hf := hR.ctlFrame hhead f a
      simp only [App.ctlLoop]
      split
      · rename_i b hb
        rwa [hb] at hf
      · rename_i b hb
        rw [hb] at hf
        have hr : R b { b with ctlFr := (tmFrameReaderFeed b.ctlFr []).1 } := hR.same rfl id rfl
        exact hR.trans hf (hR.trans hr (ih _ (fun x hx => hans x (List.mem_of_mem_tail hx)) _))

lemma step {i : Label} (hi : ∀ ans ∈ i.opens, Q ans) (hs : step cfg a i = some b) : R a b ∨
    ∃ ans, i = .reconnectTimer ans ∧
      b = { a with reconnectTimer := false }.tmAgentConnect cfg ans := by
  -- a change of other fields, and then one of the functions above
  have first {b c : App} (h : R b c) (hb : b.backoff = a.backoff) (hp : a.Parked → b.Parked)
      (ht : b.table = a.table) : R a c := hR.trans (hR.same hb hp ht) h
  cases i with
  | ctlConnected =>
    cases (Option.ite_none_right_eq_some.1 hs).2
    left
    unfold ctlConnected
    split_ifs
    · exact first (hR.disconnect _) rfl id rfl
    · exact first (hR.disconnect _) rfl id rfl
    · exact first (hR.disconnect _) rfl id rfl
    · exact hR.same rfl id rfl
  | ctlHandshakeDone =>
    cases (Option.ite_none_right_eq_some.1 hs).2
    exact .inl (first (hR.sendFrame _ _ _) rfl id rfl)
  | ctlRead =>
    cases (Option.ite_none_right_eq_some.1 hs).2
    simp only [Label.opens, List.forall_mem_cons] at hi
    exact .inl (first (hR.ctlLoop hi.1 _ _ hi.2 _) rfl id rfl)
  | ctlEnd =>
    cases (Option.ite_none_right_eq_some.1 hs).2
    exact .inl (hR.disconnect a)
  | hsTimer =>
    cases (Option.ite_none_right_eq_some.1 hs).2
    left
    unfold ctlHandshakeTimeout
    split_ifs
    · exact first (hR.disconnect _) rfl id rfl
    · exact hR.same rfl id rfl
  | hbTimer =>
    cases (Option.ite_none_right_eq_some.1 hs).2
    left
    unfold agentHbTimer
    split_ifs
    · exact hR.same rfl id rfl
    · exact first (hR.disconnect _) rfl id rfl
    · exact first (hR.sendFrame _ _ _) rfl id rfl
    · exact hR.same rfl id rfl
  | reconnectTimer ans =>
    cases (Option.ite_none_right_eq_some.1 hs).2
    exact .inr ⟨ans, rfl, rfl⟩
  | shutdown =>
    cases (Option.ite_none_right_eq_some.1 hs).2
    exact .inl (hR.shutdown a)
  | ctlClosed =>
    cases (Option.ite_none_right_eq_some.1 hs).2
    exact .inl (hR.same rfl (fun _ _ => nofun) rfl)
  | stream r ev ok =>
    obtain ⟨st, hst, hs⟩ := Option.bind_eq_some_iff.1 (Option.ite_none_right_eq_some.1 hs).2
    obtain ⟨⟨st', e⟩, he, rfl⟩ := Option.map_eq_some_iff.1 hs
    have hput : R a (a.put st') := hR.stream (.put (Table.mem_of_get hst) (.inr ⟨ev, e, he⟩))
    cases e with
    | none => exact .inl hput
    | some => exact .inl (hR.trans (hR.trans hput (hR.sendFrame _ ok _)) (hR.close r _))
  | closed r w =>
    obtain ⟨st, hst, hs⟩ := Option.bind_eq_some_iff.1 hs
    obtain ⟨hw, hs⟩ := Option.ite_none_right_eq_some.1 hs
    cases hs
    simp only [Bool.and_eq_true, decide_eq_true_eq] at hw
    exact .inl (hR.stream (.closed (Table.mem_of_get hst) hw.2))

end ActRule

lemma actRule_acts (cfg : Cfg) : ActRule cfg (fun _ => True) fun a b => ∃ l, Acts cfg l a b where
  same hb hp _ := ⟨[], .same hb hp⟩
  stream h := ⟨[], .same (fields_of_control h.control).1 (fields_of_control h.control).2⟩
  disconnect a := by
    obtain ⟨hp, hoff, -⟩ := tmAgentDisconnect_fields cfg a
    by_cases hon : a.shuttingDown = true
    · exact ⟨[], .same (hoff hon) hp⟩
    by_cases hup : (a.connecting || a.connected || a.registered) = true
    · exact ⟨_, .disconnect hup (by simpa using hon)⟩
    · have he : a.tmAgentDisconnect cfg = a := by
        rw [tmAgentDisconnect, if_pos (by simpa [and_assoc] using hup)]
      rw [he]
      exact ⟨[], .same rfl id⟩
  registerOk h := ⟨_, .registerOk h⟩
  shutdown a := ⟨[], .shutdown a⟩
  trans := fun ⟨_, h⟩ ⟨_, h'⟩ => ⟨_, h.trans h'⟩

lemma exists_acts {i : Label} (hs : step cfg a i = some b) : (∃ l, Acts cfg l a b) ∨
    ∃ ans, i = .reconnectTimer ans ∧
      b = { a with reconnectTimer := false }.tmAgentConnect cfg ans :=
  (actRule_acts cfg).step (fun _ _ => trivial) hs

section Records

variable {P : AStream → Prop} (hP : Kept cfg.agentSecret P)
  (hnew : ∀ ans, Q ans → ∀ r sid, P ((AStream.new r sid).setUp ans.ssl ans.connect))
include hP hnew

lemma actRule_ok : ActRule cfg Q fun a b => Ok P a → Ok P b where
  same {a b} _ _ ht h := by
    simp only [table, Prod.mk.injEq] at ht
    obtain ⟨hs, hd, hf, hn⟩ := ht
    have hr : b.records = a.records := by rw [records, records, hs, hd, hf]
    exact ⟨hn ▸ hr ▸ h.fresh, hs ▸ h.linked, hd ▸ h.dying, hf ▸ h.freed, hr ▸ h.all⟩
  stream hm h := by
    cases hm with
    | @put st _ hm hst' =>
      have hst : P st := h.all st (List.mem_append_left _ hm)
      obtain rfl | ⟨ev, e, he⟩ := hst'
      · exact h.put hm (follows_close st) (hP.close hst)
      · exact h.put hm (event_follows (hP.io hst) he) (hP.event hst he)
    | opened sid hq => exact h.tmAstreamOpen fun r => hnew _ hq r sid
    | closed hst hw => exact h.streamSockClosed hP hst hw
  disconnect _ h := h.tmAgentDisconnect hP
  registerOk _ h := { h with }
  shutdown _ h := h.tmAgentShutdown hP
  trans h h' := h' ∘ h

lemma Ok.step {i : Label} (h : Ok P a) (hi : ∀ ans ∈ i.opens, Q ans)
    (hs : Agent.step cfg a i = some b) : Ok P b := by
  obtain hb | ⟨ans, -, rfl⟩ := (actRule_ok hP hnew).step hi hs
  · exact hb h
  · exact tmAgentConnect (a := { a with reconnectTimer := false }) { h with } ans

lemma Ok.of_trace {tr : List (App × Label)} (h : Trace (Agent.step cfg) (Init cfg) tr a)
    (hQ : ∀ p ∈ tr, ∀ ans ∈ p.2.opens, Q ans) : Ok P a := by
  refine h.inv_of_ok (fun _ hi => ?_) (fun _ _ _ ha hi hs => ha.step hP hnew hi hs) hQ
  obtain ⟨ans, samples, rfl⟩ := hi
  refine tmAgentConnect ⟨.nil, ?_, ?_, ?_, ?_⟩ ans <;> simp [records]

end Records

end

end TunnelMate.Agent
