import TunnelMate.Proofs.AgentActs

/-!
# Who watches the control connection

As long as the agent is not registered a connect is to be answered, or the handshake timer or the
reconnect timer runs; once it is registered the heartbeat timer runs.
-/

namespace TunnelMate.Agent

open Option

/-! ## The history of a connection -/

def Label.tlsDone (i : Label) (done : Bool) : Bool :=
  match i with
  | .ctlConnected _ _ => false
  | .ctlHandshakeDone _ _ => true
  | _ => done

def Label.hbFired (a : App) (i : Label) (fired : Bool) : Bool :=
  match i with
  | .ctlRead _ _ _ => a.registered && fired
  | .hbTimer _ _ => true
  | _ => fired

def tlsDone (tr : List (App × Label)) : Bool := tr.foldr (fun p => p.2.tlsDone) false

def hbFired (tr : List (App × Label)) : Bool := tr.foldr (fun p => p.2.hbFired p.1) false

def Label.sslOk : Label → Bool
  | .ctlConnected ok ssl => !ok || ssl.sslNew && ssl.configured
  | _ => true

/-- Each stage of the control connection has its timer, as long as `tls` and `hb` say that neither
the handshake is complete nor the heartbeat timer has fired. -/
structure Watched (tls hb : Bool) (a : App) : Prop where
  req : a.connecting = a.ctlReq
  one : a.connecting = true → a.connected = false
  down : a.connecting = false → a.connected = false → a.reconnectTimer = true
  up : a.connected = true → a.registered = false → tls = false → a.hsTimer = true
  beat : a.registered = true → hb = false → a.hbTimer = true
  io : a.ctlIo = true → a.connected = true
  registered : a.registered = true → a.connected = true
  hs : a.hsTimer = true → a.connected = true
  hb : a.hbTimer = true → a.connected = true

section

variable {cfg : Cfg} {a b : App} {tls hb : Bool}

open App

lemma Watched.of_control (h : Watched tls hb a) (he : b.control = a.control) :
    Watched tls hb b := by
  have ha : Watched tls hb a.control := { h with }
  rw [← he] at ha
  exact { ha with }

structure Reading (tls hb : Bool) (a : App) : Prop extends Watched tls hb a where
  on : a.shuttingDown = false
  answered : a.ctlReq = false
  fr : a.connected = false → a.ctlFr = []

lemma Reading.of_control (h : Reading tls hb a) (he : b.control = a.control) :
    Reading tls hb b := by
  have ha : Reading tls hb a.control := { h with }
  rw [← he] at ha
  exact { ha with }

lemma reading_disconnected (hon : a.shuttingDown = false) (hreq : a.ctlReq = false)
    (hup : a.connecting = true ∨ a.connected = true) :
    Reading tls hb (a.tmAgentDisconnect cfg) := by
  rcases tmAgentDisconnect_cases cfg a with ⟨hc, hd, -, -⟩ | ⟨x, -, he⟩
  · simp [hc, hd] at hup
  rw [retryLater, if_neg (by simp [cut, hon])] at he
  refine .of_control ?_ he
  exact ⟨⟨hreq.symm, nofun, fun _ _ => rfl, nofun, nofun, nofun, nofun, nofun, nofun⟩, hon, hreq,
    fun _ => rfl⟩

lemma Reading.tmAgentDisconnect (h : Reading tls hb a) :
    Reading tls hb (a.tmAgentDisconnect cfg) := by
  cases hup : a.connected with
  | true => exact reading_disconnected h.on h.answered (.inr hup)
  | false =>
    have hc : a.connecting = false := h.req.trans h.answered
    have hr : a.registered = false := by
      by_contra hr
      exact absurd (h.registered (by simpa using hr)) (by simp [hup])
    have he : a.tmAgentDisconnect cfg = a := by simp [App.tmAgentDisconnect, hc, hup, hr]
    rw [he]
    exact h

lemma Reading.tmAgentSendFrame (h : Reading tls hb a) (f : Out) (ok : Bool) :
    Reading tls hb (a.tmAgentSendFrame cfg f ok) := by
  unfold App.tmAgentSendFrame
  split_ifs
  · exact h
  · exact h.tmAgentDisconnect
  · exact { h with }

variable (cfg) in
lemma Reading.ctlFrame (h : Reading tls hb a) (hup : a.connected = true) (f : Frame)
    (ans : FrameAns) : Reading tls hb (a.ctlFrame cfg f ans).1 ∨
      (a.ctlFrame cfg f ans).2 = true ∧ (a.ctlFrame cfg f ans).1.shuttingDown = true := by
  unfold App.ctlFrame
  split
  · dsimp only
    split_ifs
    · exact .inl h
    · exact .inr ⟨rfl, congrArg (·.2.1) (tmAgentShutdown_fields _).2⟩
    · have h' : Reading tls hb { a with gotHello := true } := { h with }
      exact .inl (h'.tmAgentSendFrame _ _)
  · split_ifs with hr
    · exact .inl h
    · exact .inl { h with
        up := nofun, beat := fun _ _ => rfl, registered := fun _ => hup, hb := fun _ => hup }
  · exact .inl h.tmAgentDisconnect
  · exact .inl (h.tmAgentSendFrame _ _)
  · split_ifs
    · exact .inl (h.of_control (control_tmAstreamOpen _ _ a))
    · exact .inl h
  · split
    · exact .inl h
    · exact .inl (h.of_control (control_tmAstreamClose _ a))
  · exact .inl h.tmAgentDisconnect
  · exact .inl h

variable (cfg) in
lemma Reading.ctlLoop (n : ℕ) (fed : Fed) (ans : List FrameAns) (h : Reading tls hb a)
    (hup : fed ≠ .none → a.connected = true) : Reading tls hb (a.ctlLoop cfg n fed ans) ∨
      (a.ctlLoop cfg n fed ans).shuttingDown = true := by
  induction n generalizing fed ans a with
  | zero =>
    cases fed with
    | none | frame f => exact .inl h
    | errored => exact .inl h.tmAgentDisconnect
  | succ n ih =>
    cases fed with
    | none => exact .inl h
    | errored => exact .inl h.tmAgentDisconnect
    | frame f =>
      have hf := h.ctlFrame cfg (hup nofun) f (ans.headD {})
      simp only [ctlLoop]
      split
      · rename_i b hb
        rw [hb] at hf
        exact hf.imp_right And.right
      · rename_i b hb
        rw [hb] at hf
        obtain hf | ⟨hf, -⟩ := hf
        · -- the reader of a connection that is gone has no further frame
          have hfr : b.connected = false → tmFrameReaderFeed b.ctlFr [] = ([], .none) := by
            intro hd
            rw [hf.fr hd]
            rfl
          refine ih _ _ { hf with fr := fun hd => ?_ } fun hne => ?_
          · rw [hfr hd]
          · by_contra hd
            exact hne (by rw [hfr (by simpa using hd)])
        · cases hf

/-! ## Runs -/

def Supervised (tr : List (App × Label)) (a : App) : Prop :=
  a.shuttingDown = false → Watched (tlsDone tr) (hbFired tr) a

lemma Watched.tmAgentConnect {ans : ConnectAns}
    (h : Watched tls hb { a with reconnectTimer := true }) (hon : a.shuttingDown = false) :
    Watched tls hb (a.tmAgentConnect cfg ans) := by
  unfold App.tmAgentConnect
  by_cases hup : (a.shuttingDown || a.connected || a.connecting) = true
  · rw [if_pos hup]
    simp only [hon, Bool.false_or, Bool.or_eq_true] at hup
    refine { h with down := fun hc hd => ?_ }
    simp [hc, hd] at hup
  rw [if_neg hup]
  simp only [Bool.or_eq_true, not_or, Bool.not_eq_true] at hup
  cases ans.resolves with
  | false => exact { h with }
  | true =>
    cases ans.uv with
    | false => exact { h with }
    | true => exact { h with req := rfl, one := fun _ => hup.1.2, down := nofun }

lemma Watched.ctlConnected (h : Watched tls hb a) (hon : a.shuttingDown = false)
    (hr : a.ctlReq = true) {ok : Bool} {ssl : SslAns}
    (hssl : (Label.ctlConnected ok ssl).sslOk = true) :
    Watched false hb (a.ctlConnected cfg ok ssl) := by
  have hc : a.connecting = true := h.req.trans hr
  unfold App.ctlConnected
  cases ok with
  | false =>
    have h' : Reading false hb ({ a with ctlReq := false }.tmAgentDisconnect cfg) :=
      reading_disconnected hon rfl (.inl hc)
    exact h'.toWatched
  | true =>
    simp only [Label.sslOk, Bool.not_true, Bool.false_or, Bool.and_eq_true] at hssl
    simp only [hssl.1, hssl.2, Bool.not_true, Bool.false_eq_true, if_false]
    exact { h with
      req := rfl, one := nofun, down := nofun, up := fun _ _ _ => rfl, io := fun _ => rfl
      registered := fun _ => rfl, hs := fun _ => rfl, hb := fun _ => rfl }

lemma Watched.reading (h : Watched tls hb a) (hon : a.shuttingDown = false)
    (hup : a.connected = true) : Reading tls hb a := by
  have hc : a.connecting = false := by
    by_contra hc
    exact absurd (h.one (by simpa using hc)) (by simp [hup])
  exact { h with on := hon, answered := h.req.symm.trans hc, fr := fun hd => by simp [hup] at hd }

lemma Watched.tmAgentSendFrame (h : Watched tls hb a) (hon : a.shuttingDown = false) (f : Out)
    (ok : Bool) : Watched tls hb (a.tmAgentSendFrame cfg f ok) := by
  cases hio : a.ctlIo with
  | true => exact ((h.reading hon (h.io hio)).tmAgentSendFrame f ok).toWatched
  | false =>
    have he : a.tmAgentSendFrame cfg f ok = a := by simp [App.tmAgentSendFrame, hio]
    rw [he]
    exact h

lemma shuttingDown_tmAgentConnect (cfg : Cfg) (ans : ConnectAns) (a : App) :
    (a.tmAgentConnect cfg ans).shuttingDown = a.shuttingDown := by
  unfold tmAgentConnect
  split_ifs <;> rfl

variable {i : Label} {tr : List (App × Label)}

lemma shuttingDown_step (hs : step cfg a i = some b) (h : a.shuttingDown = true) :
    b.shuttingDown = true := by
  rcases exists_acts hs with ⟨l, hl⟩ | ⟨ans, rfl, rfl⟩
  · exact hl.keeps.2.1 h
  · exact (shuttingDown_tmAgentConnect cfg ans _).trans h

lemma Supervised.step (h : Supervised tr a)
    (hssl : i.sslOk = true) (hs : step cfg a i = some b) : Supervised ((a, i) :: tr) b := by
  intro hb
  have hon : a.shuttingDown = false := by
    by_contra hoff
    exact absurd (shuttingDown_step hs (by simpa using hoff)) (by simp [hb])
  have hw := h hon
  cases i with
  | ctlConnected ok ssl =>
    obtain ⟨-, hr, rfl⟩ := of_guards hs
    exact hw.ctlConnected hon hr hssl
  | ctlHandshakeDone now ok =>
    obtain ⟨-, hio, rfl⟩ := of_guards hs
    have hr := hw.reading hon (hw.io hio)
    have h' : Reading true (hbFired tr)
        { a with hsTimer := false, lastRxMs := now, lastPingMs := now } :=
      { hr with up := fun _ _ ht => (by cases ht), hs := nofun }
    exact (h'.tmAgentSendFrame _ ok).toWatched
  | ctlRead now data ans =>
    obtain ⟨-, hio, rfl⟩ := of_guards hs
    have hup := hw.io hio
    have hr : Reading (tlsDone tr) (a.registered && hbFired tr) a := by
      refine { hw.reading hon hup with beat := fun hreg hf => ?_ }
      rw [hreg, Bool.true_and] at hf
      exact hw.beat hreg hf
    have h' : Reading (tlsDone tr) (a.registered && hbFired tr)
        { a with lastRxMs := now, ctlFr := (tmFrameReaderFeed a.ctlFr data).1 } :=
      { hr with fr := fun hd => by simp [hup] at hd }
    obtain hl | hl := h'.ctlLoop cfg ((tmFrameReaderFeed a.ctlFr data).1.length + 1)
      (tmFrameReaderFeed a.ctlFr data).2 ans fun _ => hup
    · exact hl.toWatched
    · exact absurd (hl.symm.trans hb) (by simp)
  | ctlEnd =>
    obtain ⟨-, hio, rfl⟩ := of_guards hs
    exact (hw.reading hon (hw.io hio)).tmAgentDisconnect.toWatched
  | hsTimer =>
    obtain ⟨-, ht, rfl⟩ := of_guards hs
    have hup := hw.hs ht
    have hr := hw.reading hon hup
    unfold ctlHandshakeTimeout
    rw [if_pos hup]
    have h' : Reading (tlsDone tr) (hbFired tr)
        ({ a with hsTimer := false }.tmAgentDisconnect cfg) :=
      reading_disconnected hon hr.answered (.inr hup)
    exact h'.toWatched
  | hbTimer now ok =>
    obtain ⟨-, ht, rfl⟩ := of_guards hs
    have hr := hw.reading hon (hw.hb ht)
    have h' : Reading (tlsDone tr) true { a with hbTimer := false } :=
      { hr with beat := fun _ hf => (by cases hf), hb := nofun }
    unfold agentHbTimer
    split_ifs
    · exact h'.toWatched
    · exact h'.tmAgentDisconnect.toWatched
    · have h'' : Reading (tlsDone tr) true { a with hbTimer := false, lastPingMs := now } :=
        { h' with }
      exact (h''.tmAgentSendFrame _ ok).toWatched
    · exact h'.toWatched
  | reconnectTimer ans =>
    cases (ite_none_right_eq_some.1 hs).2
    have h' : Watched (tlsDone tr) (hbFired tr)
        { a with reconnectTimer := true } := { hw with down := fun _ _ => rfl }
    exact .tmAgentConnect (a := { a with reconnectTimer := false }) { h' with } hon
  | shutdown =>
    cases (ite_none_right_eq_some.1 hs).2
    have hon' : a.tmAgentShutdown.shuttingDown = true :=
      congrArg (·.2.1) (tmAgentShutdown_fields a).2
    exact absurd (hon'.symm.trans hb) (by decide)
  | ctlClosed =>
    cases (ite_none_right_eq_some.1 hs).2
    exact { hw with }
  | stream r ev ok =>
    obtain ⟨st, -, hs⟩ := bind_eq_some_iff.1 (ite_none_right_eq_some.1 hs).2
    obtain ⟨⟨st', e⟩, -, rfl⟩ := map_eq_some_iff.1 hs
    have h' : Watched (tlsDone tr) (hbFired tr) (a.put st') := hw.of_control (control_put st' a)
    cases e with
    | none => exact h'
    | some msg =>
      have hon' : (a.put st').shuttingDown = false :=
        (congrArg (·.2.1) (fields_of_control (control_put st' a)).1).trans hon
      exact (h'.tmAgentSendFrame hon' _ ok).of_control (control_tmAstreamClose r _)
  | closed r w =>
    obtain ⟨st, -, hs⟩ := bind_eq_some_iff.1 hs
    cases (ite_none_right_eq_some.1 hs).2
    exact hw.of_control (control_streamSockClosed w st a)

lemma Supervised.init (h : Init cfg a) : Supervised [] a := by
  obtain ⟨ans, samples, rfl⟩ := h
  intro _
  exact .tmAgentConnect (a := { samples := samples })
    ⟨rfl, nofun, fun _ _ => rfl, nofun, nofun, nofun, nofun, nofun, nofun⟩ rfl

lemma Supervised.of_trace (h : Trace (Agent.step cfg) (Init cfg) tr a)
    (hssl : ∀ p ∈ tr, p.2.sslOk = true) : Supervised tr a := by
  induction h with
  | start hi => exact .init hi
  | next _ hs ih =>
    simp only [List.mem_cons, forall_eq_or_imp] at hssl
    exact (ih hssl.2).step hssl.1 hs

/-- In every run in which the SSL objects of control connections are made, an agent that is not
shutting down has a timer or a connect to be answered, unless its heartbeat timer has fired or the
TLS handshake of the connection is complete. -/
theorem control_supervised {tr : List (App × Label)} (h : Trace (step cfg) (Init cfg) tr a)
    (hssl : ∀ p ∈ tr, p.2.sslOk = true) (hon : a.shuttingDown = false) :
    (a.registered = false → (a.connected = true → tlsDone tr = false) →
      a.ctlReq = true ∨ a.reconnectTimer = true ∨ a.hsTimer = true) ∧
    (a.registered = true → hbFired tr = false → a.hbTimer = true) := by
  have hw := Supervised.of_trace h hssl hon
  refine ⟨fun hr ht => ?_, hw.beat⟩
  cases hup : a.connected with
  | true => exact .inr (.inr (hw.up hup hr (ht hup)))
  | false =>
    cases hc : a.connecting with
    | true => exact .inl (hw.req.symm.trans hc)
    | false => exact .inr (.inl (hw.down hc hup))

end

theorem control_supervised_back : ∃ cfg tr a, Trace (step cfg) (Init cfg) tr a ∧
    a.shuttingDown = false ∧ a.registered = false ∧
    (a.ctlReq = true ∨ a.reconnectTimer = true ∨ a.hsTimer = true) ∧
    ∃ p ∈ tr, p.1.registered = true ∧ p.1.hbTimer = true := by
  let cfg : Cfg := { tunnelId := [97], agentSecret := [98] }
  obtain ⟨tr, a, h, hssl, hon, hr, hup, hp⟩ := exists_trace (step cfg) (Init cfg) ⟨{}, [], rfl⟩
    [.ctlConnected true {}, .ctlHandshakeDone 0 true,
      .ctlRead 0 [1, 2, 0, 0, 0, 0, 0, 0, 0, 0] [], .ctlRead 0 [1, 4, 0, 0, 0, 0, 0, 0, 0, 0] [],
      .ctlEnd]
    (fun r => (∀ p ∈ r.1, p.2.sslOk = true) ∧ r.2.shuttingDown = false ∧
      r.2.registered = false ∧ r.2.connected = false ∧
      ∃ p ∈ r.1, p.1.registered = true ∧ p.1.hbTimer = true) (by decide)
  exact ⟨cfg, tr, a, h, hon, hr,
    (control_supervised h hssl hon).1 hr fun hc => absurd (hc.symm.trans hup) (by simp), hp⟩

/-- Agents with nothing left to wake them: registered, once the heartbeat timer has fired; after the
TLS handshake; and without an SSL object. -/
theorem control_unwatched : (∃ cfg tr a, Trace (step cfg) (Init cfg) tr a ∧ a.shuttingDown = false ∧
      a.registered = true ∧ a.hbTimer = false ∧ a.reconnectTimer = false ∧ a.hsTimer = false) ∧
    (∃ cfg tr a, Trace (step cfg) (Init cfg) tr a ∧ a.shuttingDown = false ∧
      a.registered = false ∧ a.connected = true ∧ a.ctlReq = false ∧ a.reconnectTimer = false ∧
      a.hsTimer = false ∧ a.hbTimer = false) ∧
    ∃ cfg tr a, Trace (step cfg) (Init cfg) tr a ∧ a.shuttingDown = false ∧
      a.registered = false ∧ a.connected = false ∧ a.ctlReq = false ∧ a.reconnectTimer = false ∧
      a.hsTimer = false ∧ a.hbTimer = false := by
  refine ⟨⟨{ tunnelId := [97], agentSecret := [98] }, ?_⟩,
    ⟨{ tunnelId := [97], agentSecret := [98] }, ?_⟩,
    ⟨{ tunnelId := [97], agentSecret := [98] }, ?_⟩⟩
  · exact exists_run ⟨{}, [], rfl⟩ [.ctlConnected true {}, .ctlHandshakeDone 0 true,
      .ctlRead 0 [1, 2, 0, 0, 0, 0, 0, 0, 0, 0] [], .ctlRead 0 [1, 4, 0, 0, 0, 0, 0, 0, 0, 0] [],
      .hbTimer 5000 true] (by decide)
  · exact exists_run ⟨{}, [], rfl⟩ [.ctlConnected true {}, .ctlHandshakeDone 0 true] (by decide)
  · exact exists_run ⟨{}, [], rfl⟩ [.ctlConnected true { sslNew := false }] (by decide)

end TunnelMate.Agent
