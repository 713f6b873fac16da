import TunnelMate.Proofs.ClientMoves

/-!
# The peer's UDP session over its restarts

What start and stop do to the handles and the session is a small machine of its own (`Life`), and
everything else the peer does either leaves that alone or ends in a stop.
-/

namespace TunnelMate.PeerUdp

open List Option Bool Function

variable {cfg : Cfg} {p p' : App} {ans : List Udp.SslAns} {now : ℕ} {w : Which}

/-! ## The machine -/

structure Life where
  handle : Which → Handle
  reconnectOn : Bool
  session : Bool
  shuttingDown : Bool
  inits : List (Which × Handle)
  backoff : Backoff

namespace Life

variable (x : Life)

def init (w : Which) : Life :=
  { x with handle := update x.handle w .live, inits := (w, x.handle w) :: x.inits }

def close (w : Which) : Life :=
  if x.handle w = .live then { x with handle := update x.handle w .closing } else x

def stop : Life :=
  if x.session then
    let y := { (x.close .brokerUdp).close .localUdp with session := false }
    if x.shuttingDown then y
    else { y.init .reconnectTimer with reconnectOn := true, backoff := x.backoff.next }
  else x

def start (r : StartAns) : Life :=
  if x.session || x.shuttingDown then x
  else
    let x := x.init .localUdp
    match r with
    | .badListenHost => x
    | .bindFails => x.close .localUdp
    | .badBrokerHost => x.init .brokerUdp
    | .ok _ _ =>
      { ((x.init .brokerUdp).init .udpFlowTimer).init .udpTimer with session := true }
    | _ =>
      (x.init .brokerUdp).close .brokerUdp

def reconnect (r : StartAns) : Life :=
  let x := { x with reconnectOn := false }
  if x.shuttingDown then x else (x.close .reconnectTimer).start r

def shutdown : Life :=
  if x.shuttingDown then x else { x with shuttingDown := true }.stop

section

variable {x}

lemma handle_close_ne_live : (x.close w).handle w ≠ .live := by
  unfold close
  split_ifs with h
  · simp
  · exact h

lemma handle_close_of_ne {v : Which} (h : v ≠ w) : (x.close w).handle v = x.handle v := by
  unfold close
  split_ifs
  · exact update_of_ne h _ _
  · rfl

@[simp]
lemma close_rest : (x.close w).session = x.session ∧ (x.close w).shuttingDown = x.shuttingDown ∧
    (x.close w).reconnectOn = x.reconnectOn ∧ (x.close w).inits = x.inits ∧
    (x.close w).backoff = x.backoff := by
  unfold close
  split_ifs <;> exact ⟨rfl, rfl, rfl, rfl, rfl⟩

end

lemma stop_stop (x : Life) : x.stop.stop = x.stop := by
  have hs : x.stop.session = false := by
    unfold stop
    split_ifs with h
    · rfl
    · rfl
    · simpa using h
  rw [stop, hs]
  rfl

inductive Step (x : Life) : Event → Life → Prop
  | quiet (ev : Event) : Step x ev x
  | stop {ev : Event} : (∀ w, ev ≠ .closed w) → Step x ev x.stop
  | start (r : StartAns) : Step x (.start r) (x.start r)
  | reconnect (r : StartAns) : x.reconnectOn = true → Step x (.reconnect r) (x.reconnect r)
  | closed {w : Which} : x.handle w = .closing →
      Step x (.closed w) { x with handle := update x.handle w .closed }
  | shutdown : Step x .shutdown x.shutdown

end Life

/-! ## The peer runs it -/

variable {x : AgentUdp.Ssl}

namespace App

def life (p : App) : Life :=
  ⟨p.handle, p.reconnectTimerOn, p.ssl.isSome, p.shuttingDown, p.inits, p.backoff⟩

def Bare (p : App) : Prop :=
  p.ssl = none → p.udpFlows = [] ∧ p.udpOutq = none ∧ p.udpAuthed = false

lemma handle_setHandle (w : Which) (h : Handle) (p : App) :
    (p.setHandle w h).handle = update p.handle w h := by
  funext v
  cases w <;> cases v <;> rfl

lemma bare_of_ssl (h : p.ssl = some x) : p.Bare := fun hn => by
  rw [h] at hn
  cases hn

lemma life_flush (p : App) : (flush p).life = p.life := by
  unfold flush
  split
  · rfl
  · rename_i h
    unfold life
    rw [h]
    rfl

structure Lives (p : App) (y : Life) : Prop where
  life : p.life = y
  bare : p.Bare

namespace Lives

variable {y : Life}

section

variable (h : p.Lives y)
include h

lemma setHandle (w : Which) (v : Handle) :
    (p.setHandle w v).Lives { y with handle := update y.handle w v } := by
  obtain ⟨rfl, hb⟩ := h
  refine ⟨?_, by cases w <;> exact hb⟩
  unfold App.life
  rw [handle_setHandle]
  cases w <;> rfl

lemma uvInit (w : Which) : (p.uvInit w).Lives (y.init w) := by
  have hw := h.setHandle w .live
  have hi : (p.uvInit w).life = { (p.setHandle w .live).life with
      inits := (w, p.handle w) :: p.inits } := rfl
  refine ⟨?_, hw.bare⟩
  rw [hi, hw.life, ← h.life]
  rfl

lemma uvClose (w : Which) : (p.uvClose w).Lives (y.close w) := by
  have hl : y.handle w = p.handle w := by rw [← h.life]; rfl
  unfold App.uvClose Life.close
  rw [hl]
  split_ifs
  · exact h.setHandle w _
  · exact h

lemma endSession : (endSession p).Lives
    { (y.close .brokerUdp).close .localUdp with session := false } := by
  refine ⟨?_, fun _ => ⟨rfl, rfl, rfl⟩⟩
  rw [← ((h.uvClose .brokerUdp).uvClose .localUdp).life]
  rfl

lemma stop : (tmPeerUdpStop p).Lives y.stop := by
  have hd : y.shuttingDown = p.shuttingDown := by rw [← h.life]; rfl
  have hl : y.session = p.ssl.isSome := by rw [← h.life]; rfl
  unfold tmPeerUdpStop Life.stop
  cases hs : p.ssl with
  | none =>
    obtain ⟨hf, hq, -⟩ := h.bare hs
    rw [if_pos (by simp [hf, hq]), if_neg (by simp [hl, hs])]
    exact h
  | some x =>
    have hy : y.session = true := by rw [hl, hs]; rfl
    rw [if_neg (by simp), if_pos hy, hd]
    split_ifs
    · exact h.endSession
    · have hi := h.endSession.uvInit .reconnectTimer
      have hk : y.backoff = p.backoff := by rw [← h.life]; rfl
      rw [hk]
      exact ⟨congrArg (fun y : Life => { y with
        reconnectOn := true, backoff := p.backoff.next }) hi.life, hi.bare⟩

lemma start (r : StartAns) (ended : List Ref) : (tmPeerUdpStart r ended p).Lives (y.start r) := by
  have hs : (y.session || y.shuttingDown) = (p.ssl.isSome || p.shuttingDown) := by
    rw [← h.life]
    rfl
  unfold tmPeerUdpStart Life.start
  rw [hs]
  split_ifs
  · exact h
  have hl := h.uvInit .localUdp
  cases r
  all_goals dsimp only
  case badListenHost => exact hl
  case bindFails => exact hl.uvClose _
  case badBrokerHost => exact hl.uvInit _
  case connectFails | sslFails | configureFails | bioFails => exact (hl.uvInit _).uvClose _
  case ok addr recs =>
    refine ⟨?_, bare_of_ssl rfl⟩
    rw [life_flush, ← (((hl.uvInit .brokerUdp).uvInit .udpFlowTimer).uvInit .udpTimer).life]
    rfl

lemma reconnect (r : StartAns) (ended : List Ref) :
    (udpReconnect r ended p).Lives (y.reconnect r) := by
  have h' : ({ p with reconnectTimerOn := false } : App).Lives { y with reconnectOn := false } :=
    ⟨congrArg (fun y : Life => { y with reconnectOn := false }) h.life, h.bare⟩
  have hd : y.shuttingDown = p.shuttingDown := by rw [← h.life]; rfl
  unfold udpReconnect Life.reconnect
  dsimp only
  rw [hd] at h' ⊢
  split_ifs
  · exact h'
  · exact (h'.uvClose .reconnectTimer).start r ended

lemma shutdown : (tmPeerShutdown p).Lives y.shutdown := by
  have hd : y.shuttingDown = p.shuttingDown := by rw [← h.life]; rfl
  unfold tmPeerShutdown Life.shutdown
  rw [hd]
  split_ifs
  · exact h
  · exact stop ⟨congrArg (fun y : Life => { y with shuttingDown := true }) h.life, h.bare⟩

end

lemma init (r : StartAns) (ended : List Ref) (b : Backoff) :
    (tmPeerUdpStart r ended { backoff := b }).Lives (({ backoff := b } : App).life.start r) :=
  start ⟨rfl, fun _ => ⟨rfl, rfl, rfl⟩⟩ r ended

end Lives

end App

/-! ## Everything else leaves it alone or stops -/

namespace App.Lives

variable {B : Ref → Prop} {R : Udp.Queued → Prop} {y : Life}

lemma of_ssl (h : p.Lives y) (hx : p.ssl = some x) (hl : p'.life = p.life) : p'.Lives y := by
  refine ⟨hl.trans h.life, fun hn => ?_⟩
  have hs : p'.ssl.isSome = p.ssl.isSome := congrArg Life.session hl
  rw [hx, hn] at hs
  cases hs

lemma ssl_of_authed (h : p.Lives y) (ha : p.udpAuthed = true) : ∃ x, p.ssl = some x := by
  refine ne_none_iff_exists'.1 fun hn => ?_
  rw [(h.bare hn).2.2] at ha
  cases ha

lemma act (h : p.Lives y) (ha : Act cfg B R p p') : p'.Lives y ∨ p'.Lives y.stop := by
  have hl : ∀ {x y : AgentUdp.Ssl}, p.ssl = some x → { p with ssl := some y }.life = p.life := by
    intro x y hx
    unfold App.life
    rw [hx]
    rfl
  cases ha with
  | stop => exact .inr h.stop
  | flush hx | write hx | shake hx => exact .inl (h.of_ssl hx (hl hx))
  | queue hx | auth hx | deliver _ hx => exact .inl (h.of_ssl hx rfl)
  | create _ _ ha | take _ _ ha =>
    obtain ⟨x, hx⟩ := h.ssl_of_authed ha
    exact .inl (h.of_ssl hx rfl)
  | sweep =>
    refine .inl ⟨h.life, fun hn => ?_⟩
    obtain ⟨hf, hq, ha⟩ := h.bare hn
    exact ⟨by simp [flowSweep, hf], hq, ha⟩

lemma acts (h : p.Lives y) (ha : Acts cfg B R p p') : p'.Lives y ∨ p'.Lives y.stop := by
  induction ha with
  | refl => exact .inl h
  | tail _ ha ih =>
    obtain ih | ih := ih
    · exact ih.act ha
    · have h' := ih.act ha
      rw [Life.stop_stop] at h'
      exact .inr (h'.elim id id)

end App.Lives

/-! ## Steps -/

variable {l : Label} {r : StartAns} {addr : Addr} {recs : ℕ}

lemma life_step (hb : p.Bare) (h : step cfg p l = some p') :
    p'.Bare ∧ Life.Step p.life l.ev p'.life := by
  have hp : p.Lives p.life := ⟨rfl, hb⟩
  have ends (hw : ∀ w, l.ev ≠ .closed w) (ha : Acts cfg (fun _ => True) (fun _ => True) p p') :
      p'.Bare ∧ Life.Step p.life l.ev p'.life := by
    obtain ⟨hl, hb⟩ | ⟨hl, hb⟩ := hp.acts ha
    · exact ⟨hb, hl ▸ .quiet _⟩
    · exact ⟨hb, hl ▸ .stop hw⟩
  obtain ⟨ended, now, ev⟩ := l
  cases ev
  all_goals simp only [step, handle] at h
  case start r =>
    cases h
    obtain ⟨hl, hb⟩ := hp.start r ended
    exact ⟨hb, hl ▸ .start r⟩
  case stop =>
    cases h
    exact ends nofun (.single (.stop p))
  case reconnect r =>
    split_ifs at h with hr
    cases h
    obtain ⟨hl, hb⟩ := hp.reconnect r ended
    exact ⟨hb, hl ▸ .reconnect r hr⟩
  case closed w =>
    split_ifs at h with hc
    cases h
    obtain ⟨hl, hb⟩ := hp.setHandle w .closed
    exact ⟨hb, hl ▸ .closed hc⟩
  case shutdown =>
    cases h
    obtain ⟨hl, hb⟩ := hp.shutdown
    exact ⟨hb, hl ▸ .shutdown⟩
  case localRecv src data ans =>
    split_ifs at h
    cases h
    exact ends nofun (acts_localRecv src data)
  case udpRecv hs s reads ans =>
    split_ifs at h
    cases h
    exact ends nofun (acts_udpRecv (fun _ _ _ => trivial) fun _ _ _ _ _ => trivial)
  case flowSweep =>
    split_ifs at h
    cases h
    exact ends nofun (.single (.sweep now))
  case keepalive ans =>
    split_ifs at h
    cases h
    exact ends nofun acts_keepalive

/-! ## Restarts -/

def App.still (p : App) : Bool :=
  [Which.localUdp, .brokerUdp, .udpTimer, .udpFlowTimer, .reconnectTimer].all
    (p.handle · ≠ .closing)

lemma App.ne_closing_of_still (h : p.still = true) (w : Which) : p.handle w ≠ .closing := by
  simp only [App.still, all_cons, all_nil, and_eq_true, decide_eq_true_eq] at h
  obtain ⟨h₁, h₂, h₃, h₄, h₅, -⟩ := h
  cases w <;> assumption

def StartAns.isOk : StartAns → Bool
  | .ok _ _ => true
  | _ => false

lemma StartAns.eq_ok (h : r.isOk = true) : ∃ addr recs, r = .ok addr recs := by
  cases r
  case ok addr recs => exact ⟨addr, recs, rfl⟩
  all_goals cases h

/-- Nothing but a close callback happens while one is due, nobody but `main` and the reconnect timer
starts a session, and the timer's start succeeds. -/
def restartOk (p : App) : Event → Bool
  | .closed _ => true
  | .start _ => p.still && (p.ssl.isSome || p.shuttingDown)
  | .reconnect r => p.still && (p.shuttingDown || r.isOk)
  | _ => p.still

lemma still_of_restartOk {ev : Event} (h : restartOk p ev = true) (hw : ∀ w, ev ≠ .closed w) :
    p.still = true := by
  cases ev
  case closed w => exact absurd rfl (hw w)
  case start | reconnect => exact (and_eq_true_iff.1 h).1
  all_goals exact h

namespace Life

def Fits (restarted : Prop) (i : Which × Handle) : Prop :=
  i.2 = .closed ∨ (i.1 = .udpTimer ∨ i.1 = .udpFlowTimer) ∧ restarted

structure Ok (restarted : Prop) (x : Life) : Prop where
  fits : ∀ i ∈ x.inits, Fits restarted i
  localUdp : x.handle .localUdp = .live ↔ x.session
  brokerUdp : x.handle .brokerUdp = .live ↔ x.session
  timer : x.session → x.handle .reconnectTimer ≠ .live
  supervised : x.shuttingDown = false → (x.reconnectOn ↔ x.session = false)

variable {x y : Life} {restarted later : Prop}

lemma closed_of_ne {h : Handle} (hl : h ≠ .live) (hc : h ≠ .closing) : h = .closed := by
  cases h
  · rfl
  · exact absurd rfl hl
  · exact absurd rfl hc

namespace Ok

section

variable (h : x.Ok restarted)
include h

lemma mono (hr : restarted → later) : x.Ok later :=
  { h with fits := fun i hi => (h.fits i hi).imp_right (.imp_right hr) }

lemma stop (hp : ∀ w, x.handle w ≠ .closing) : x.stop.Ok restarted := by
  unfold Life.stop
  split
  · rename_i hs
    have hb : ((x.close .brokerUdp).close .localUdp).handle .brokerUdp ≠ .live := by
      rw [handle_close_of_ne (by decide)]
      exact handle_close_ne_live
    have hr : ((x.close .brokerUdp).close .localUdp).handle .reconnectTimer = .closed := by
      rw [handle_close_of_ne (by decide), handle_close_of_ne (by decide)]
      exact closed_of_ne (h.timer hs) (hp _)
    split_ifs with hd
    · exact {
        fits := by simpa using h.fits
        localUdp := by simpa using handle_close_ne_live
        brokerUdp := by simpa using hb
        timer := nofun
        supervised := by simp [hd] }
    · refine ⟨?_, ?_, ?_, nofun, fun _ => iff_of_true rfl rfl⟩
      · have ht : ∀ i ∈ x.inits, Fits restarted i := h.fits
        simpa [Life.init, hr, Fits] using ht
      · simpa [Life.init] using handle_close_ne_live
      · simpa [Life.init] using hb
  · exact h

omit h in
lemma start (hs : (x.session || x.shuttingDown) = false)
    (h : ∀ i ∈ x.inits, Fits restarted i) (hl : x.handle .localUdp = .closed)
    (hb : x.handle .brokerUdp = .closed) (hr : x.handle .reconnectTimer ≠ .live)
    (ht : restarted ∨ ∀ w, x.handle w = .closed) (ho : x.reconnectOn = false) :
    (x.start (.ok addr recs)).Ok restarted := by
  have hf : ∀ w, w = .udpTimer ∨ w = .udpFlowTimer → Fits restarted (w, x.handle w) := by
    intro w hw
    obtain ht | ht := ht
    · exact .inr ⟨hw, ht⟩
    · exact .inl (ht w)
  unfold Life.start
  rw [hs]
  refine ⟨?_, ?_, ?_, fun _ => ?_, fun _ => ?_⟩
  · simpa [Life.init, hl, hb, update_of_ne] using
      ⟨hf _ (.inl rfl), hf _ (.inr rfl), .inl rfl, .inl rfl, fun w v => h (w, v)⟩
  · simp [Life.init]
  · simp [Life.init]
  · simpa [Life.init] using hr
  · simp [Life.init, ho]

lemma reconnect (hp : ∀ w, x.handle w ≠ .closing)
    (ho : x.reconnectOn = true) (ha : x.shuttingDown = false → r.isOk = true) (hr : restarted) :
    (x.reconnect r).Ok restarted := by
  unfold Life.reconnect
  dsimp only
  split_ifs with hd
  · exact { h with supervised := by simp [hd] }
  · rw [not_eq_true] at hd
    have hs : x.session = false := (h.supervised hd).1 ho
    have closed : ∀ w, w ≠ .reconnectTimer → (x.handle w = .live ↔ x.session) →
        ({ x with reconnectOn := false }.close .reconnectTimer).handle w = .closed := by
      intro w hw hi
      rw [handle_close_of_ne hw]
      exact closed_of_ne (by simp [hi, hs]) (hp w)
    obtain ⟨addr, recs, rfl⟩ := StartAns.eq_ok (ha hd)
    exact start (by simp [hs, hd]) (by simpa using h.fits) (closed _ (by decide) h.localUdp)
      (closed _ (by decide) h.brokerUdp) handle_close_ne_live (.inl hr) (by simp)

lemma closed (hw : x.handle w = .closing) :
    Ok restarted { x with handle := update x.handle w .closed } := by
  -- the handle was not live before either
  have live : ∀ v, update x.handle w .closed v = .live ↔ x.handle v = .live := by
    intro v
    by_cases hv : v = w
    · subst hv
      simp [hw]
    · rw [update_of_ne hv]
  exact { h with
    localUdp := (live _).trans h.localUdp
    brokerUdp := (live _).trans h.brokerUdp
    timer := fun hs hl => h.timer hs ((live _).1 hl) }

lemma shutdown (hp : ∀ w, x.handle w ≠ .closing) : x.shutdown.Ok restarted := by
  unfold Life.shutdown
  split_ifs
  · exact h
  · exact stop { h with supervised := nofun } hp

end

end Ok

end Life

lemma ok_step {restarted : Prop} (hb : p.Bare) (h : p.life.Ok restarted)
    (hs : step cfg p l = some p') (ho : restartOk p l.ev = true) :
    p'.life.Ok ((∃ r, l.ev = .reconnect r) ∨ restarted) := by
  obtain ⟨-, hl⟩ := life_step hb hs
  have h' : p.life.Ok ((∃ r, l.ev = .reconnect r) ∨ restarted) := h.mono .inr
  have still : (∀ w, l.ev ≠ .closed w) → ∀ w, p.life.handle w ≠ .closing := fun hw =>
    App.ne_closing_of_still (still_of_restartOk ho hw)
  generalize l.ev = ev at hl ho h' still ⊢
  generalize p'.life = y at hl ⊢
  cases hl with
  | quiet => exact h'
  | stop hw => exact h'.stop (still hw)
  | start r =>
    have hn : (p.life.session || p.life.shuttingDown) = true := (and_eq_true_iff.1 ho).2
    rw [Life.start, if_pos hn]
    exact h'
  | reconnect r hr =>
    refine h'.reconnect (still nofun) hr (fun hd => ?_) (.inl ⟨r, rfl⟩)
    have ha : (p.life.shuttingDown || r.isOk) = true := (and_eq_true_iff.1 ho).2
    rwa [hd, Bool.false_or] at ha
  | closed hw => exact h'.closed hw
  | shutdown => exact h'.shutdown (still nofun)

lemma ok_init (hi : Init (.ok addr recs) p) : p.Bare ∧ p.life.Ok False := by
  obtain ⟨ended, max, clock, rfl⟩ := hi
  obtain ⟨hl, hb⟩ := App.Lives.init (.ok addr recs) ended
    { reconnectMaxDelayMs := max, clock := clock }
  refine ⟨hb, hl ▸ ?_⟩
  refine .start rfl nofun rfl rfl nofun (.inr fun w => ?_) rfl
  cases w <;> rfl

lemma ok_of_trace {tr : List (App × Label)}
    (h : Trace (step cfg) (Init (.ok addr recs)) tr p) : (∀ q ∈ tr, restartOk q.1 q.2.ev = true) →
      p.Bare ∧ p.life.Ok (∃ q ∈ tr, ∃ r, q.2.ev = .reconnect r) := by
  refine h.inv_hist (I := fun tr p => (∀ q ∈ tr, restartOk q.1 q.2.ev = true) →
    p.Bare ∧ p.life.Ok (∃ q ∈ tr, ∃ r, q.2.ev = .reconnect r)) ?_ ?_
  · intro p hi _
    exact ⟨(ok_init hi).1, (ok_init hi).2.mono False.elim⟩
  · intro tr p l p' _ ih hs ho
    rw [forall_mem_cons] at ho
    obtain ⟨hb, hi⟩ := ih ho.2
    refine ⟨(life_step hb hs).1, (ok_step hb hi hs ho.1).mono ?_⟩
    simp

/-- Over every run from a start that succeeds, handles are initialised only when they are closed,
two timers up to the first restart only. -/
theorem restart_typestate (cfg : Cfg) (addr : Addr) (recs : ℕ) {tr : List (App × Label)} {p : App}
    (h : Trace (step cfg) (Init (.ok addr recs)) tr p)
    (ho : ∀ q ∈ tr, restartOk q.1 q.2.ev = true) : (∀ i ∈ p.inits, i.2 = .closed ∨
      (i.1 = .udpTimer ∨ i.1 = .udpFlowTimer) ∧ ∃ q ∈ tr, ∃ r, q.2.ev = .reconnect r) ∧
    (p.shuttingDown = false → p.ssl = none → p.reconnectTimerOn = true) := by
  obtain ⟨-, hok⟩ := ok_of_trace h ho
  refine ⟨hok.fits, fun hd hs => (hok.supervised hd).2 ?_⟩
  rw [App.life, hs]
  rfl

def labelsOf (evs : List Event) : List Label := evs.mapIdx fun i ev => ⟨[], i, ev⟩

def restart (r : StartAns) : List Event :=
  [.stop, .closed .brokerUdp, .closed .localUdp, .reconnect r]

def localAddr : Addr := { family := .inet, ip := [127, 0, 0, 1], port := 40000 }

theorem restart_typestate_twice :
    ∃ tr p, Trace (step { token := [] }) (Init (.ok localAddr 1)) tr p ∧
      (∀ q ∈ tr, restartOk q.1 q.2.ev = true) ∧ p.shuttingDown = false ∧ p.ssl = none ∧
      p.inits.length = 10 ∧ p.reconnectTimerOn = true := by
  obtain ⟨tr, p, h, ho, hd, hs, hi⟩ :=
    exists_trace (step { token := [] }) (Init (.ok localAddr 1)) ⟨[], 0, [], rfl⟩
      (labelsOf (restart (.ok localAddr 1) ++ [.closed .reconnectTimer, .stop]))
      (fun r => (∀ q ∈ r.1, restartOk q.1 q.2.ev = true) ∧ r.2.shuttingDown = false ∧
        r.2.ssl = none ∧ r.2.inits.length = 10) (by decide)
  exact ⟨tr, p, h, ho, hd, hs, hi, (restart_typestate { token := [] } localAddr 1 h ho).2 hd hs⟩

/-- A restart initialises the two timers while they are live, and one that fails leaves nothing that
would try again. -/
theorem restart_reinitialises :
    (∃ tr p, Trace (step { token := [] }) (Init (.ok localAddr 1)) tr p ∧
      (.udpTimer, .live) ∈ p.inits ∧ (.udpFlowTimer, .live) ∈ p.inits) ∧
    (∃ tr p, Trace (step { token := [] }) (Init (.ok localAddr 1)) tr p ∧
      p.shuttingDown = false ∧ p.ssl = none ∧ p.reconnectTimerOn = false) := by
  constructor
  · exact exists_run ⟨[], 0, [], rfl⟩ (labelsOf (restart (.ok localAddr 1))) (by decide)
  · exact exists_run ⟨[], 0, [], rfl⟩ (labelsOf (restart .connectFails)) (by decide)

end TunnelMate.PeerUdp
