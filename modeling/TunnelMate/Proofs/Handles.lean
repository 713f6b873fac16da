import TunnelMate.Proofs.AgentActs
import TunnelMate.Proofs.AgentBind

/-!
# The libuv handles of the agent

A record of a stream is freed when the close callbacks of its three handles have run, and never
again: `closing_refs` counts the handles that are still closing (`Typed`).
-/

namespace TunnelMate.Agent

open List AStream

open Duplex (closing_close)

/-! ## Streams -/

variable {w : Which}

namespace AStream

def waiting (st : AStream) : ℕ :=
  [Which.connectTimer, .localSock, .brokerSock].countP fun w => st.handle w = .closing

@[simp]
lemma relay_setHandle (st : AStream) (w : Which) (x : Handle) :
    (st.setHandle w x).relay = st.relay := by cases w <;> rfl

@[simp]
lemma inits_setHandle (st : AStream) (w : Which) (x : Handle) :
    (st.setHandle w x).inits = st.inits := by cases w <;> rfl

lemma handle_setHandle (st : AStream) (w v : Which) (x : Handle) :
    (st.setHandle w x).handle v = if v = w then x else st.handle v := by
  cases w <;> cases v <;> rfl

variable {st : AStream}

lemma waiting_setHandle (h : st.handle w = .closing) :
    (st.setHandle w .closed).waiting + 1 = st.waiting := by
  cases w <;> simp [waiting, handle_setHandle, h, countP_cons] <;> omega

lemma waiting_pos (h : st.waiting ≠ 0) : ∃ w, st.handle w = .closing := by
  obtain ⟨w, -, hw⟩ := countP_pos_iff.1 (Nat.pos_of_ne_zero h)
  exact ⟨w, by simpa using hw⟩

lemma waiting_zero (h : st.waiting = 0) (w : Which) : st.handle w ≠ .closing := by
  have hall := countP_eq_zero.1 h w (by cases w <;> simp)
  simpa using hall

end AStream

/-- The handles of a stream that is open are active; of one that was closed each is closing or
closed, and `closing_refs` counts. -/
structure Typed (st : AStream) : Prop where
  live : st.relay.s.closing = false → st.closingRefs = 0 ∧ ∀ w, st.handle w = .active
  dead : st.relay.s.closing = true → st.closingRefs = st.waiting ∧
    ∀ w, st.handle w = .closing ∨ st.handle w = .closed
  inits : ∀ i ∈ st.inits, i.2 = .unset ∨ i.2 = .active ∧ i.1 ≠ .connectTimer

section Streams

variable {st st' : AStream} {r : Ref} {sid : ℕ} {secret : Bytes}

lemma Typed.follows (h : Typed st) (hf : Follows st st') : Typed st' := by
  refine ⟨fun hl => ?_, fun hd => ?_, fun i hi => ?_⟩
  · have hc : st.relay.s.closing = false := by
      by_contra hc
      exact absurd (hf.dead (by simpa using hc)).1 (by simp [hl])
    obtain ⟨hn, hh⟩ := h.live hc
    obtain ⟨hn', hh'⟩ := hf.live hc hl
    exact ⟨hn'.trans hn, fun w => (hh' w).elim (fun he => he.trans (hh w)) id⟩
  · cases hc : st.relay.s.closing with
    | true =>
      obtain ⟨-, hn', hh'⟩ := hf.dead hc
      obtain ⟨hn, hh⟩ := h.dead hc
      refine ⟨?_, fun w => hh' w ▸ hh w⟩
      rw [hn', hn]
      simp only [waiting, hh']
    | false =>
      obtain ⟨hn', hh'⟩ := hf.died hc hd
      refine ⟨?_, fun w => .inl (hh' w)⟩
      rw [hn']
      simp [waiting, hh']
  · rcases hf.inits i hi with hi | ⟨hc, hw, hi⟩
    · exact h.inits i hi
    · refine .inr ⟨?_, hw⟩
      rcases hi with hi | hi
      · exact hi.trans ((h.live hc).2 i.1)
      · exact hi

lemma Typed.closed (h : Typed st) (hc : st.relay.s.closing = true) (hw : st.handle w = .closing) :
    Typed { st.setHandle w .closed with closingRefs := st.closingRefs - 1 } := by
  obtain ⟨hn, hh⟩ := h.dead hc
  have hhandle : ∀ v, { st.setHandle w .closed with closingRefs := st.closingRefs - 1 }.handle v
      = if v = w then .closed else st.handle v := fun v => by cases w <;> cases v <;> rfl
  refine ⟨fun hl => ?_, fun _ => ⟨?_, fun v => ?_⟩, ?_⟩
  · rw [relay_setHandle, hc] at hl
    cases hl
  · have hcount := waiting_setHandle hw
    have hsame : { st.setHandle w .closed with closingRefs := st.closingRefs - 1 }.waiting
        = (st.setHandle w .closed).waiting := by
      simp only [waiting, hhandle, handle_setHandle]
    have hrefs : st.closingRefs - 1 = (st.setHandle w .closed).waiting := by omega
    exact hrefs.trans hsame.symm
  · rw [hhandle]
    split_ifs
    · exact .inr rfl
    · exact hh v
  · rw [inits_setHandle]
    exact h.inits

lemma kept_typed (secret : Bytes) : Kept secret fun st => Carried st ∧ Typed st where
  io h := (kept_carried secret).io h.1
  event h he := ⟨(kept_carried secret).event h.1 he,
    h.2.follows (event_follows ((kept_carried secret).io h.1) he)⟩
  close h := ⟨h.1.toHeld.close, h.2.follows (follows_close _)⟩
  closed h hc hw := ⟨(kept_carried secret).closed h.1 hc hw, h.2.closed hc hw⟩

lemma typed_new (r : Ref) (sid : ℕ) : Typed (new r sid) := by
  refine ⟨fun _ => ⟨rfl, fun w => by cases w <;> rfl⟩, fun hc => (by cases hc), fun i hi => ?_⟩
  simp only [new, uvInit, setHandle, handle, mem_cons,
    not_mem_nil, or_false] at hi
  rcases hi with rfl | rfl | rfl <;> exact .inl rfl

def App.FrameAns.connects (ans : App.FrameAns) : Bool :=
  ans.ssl.sslNew && ans.ssl.configured && ans.connect.resolves

variable {ans : App.FrameAns}

lemma twice_of_connects (h : ans.connects = true) :
    (.brokerSock, .active) ∈ ((new r sid).setUp ans.ssl ans.connect).inits := by
  simp only [App.FrameAns.connects, Bool.and_eq_true] at h
  obtain ⟨⟨h1, h2⟩, h3⟩ := h
  cases hu : ans.connect.uv <;>
    simp [setUp, h1, h2, tmTcpConnect, h3, hu, close, new,
      uvInit, setHandle, handle, release]

def Once (st : AStream) : Prop := st.relay.s.closing = true ∧ ∀ i ∈ st.inits, i.2 = .unset

lemma Once.follows (h : Once st) (hf : Follows st st') : Once st' := by
  refine ⟨(hf.dead h.1).1, fun i hi => ?_⟩
  rcases hf.inits i hi with hi | ⟨hc, -⟩
  · exact h.2 i hi
  · exact absurd (hc.symm.trans h.1) (by simp)

lemma kept_once (secret : Bytes) : Kept secret fun st => Carried st ∧ Once st where
  io h := (kept_carried secret).io h.1
  event h he := ⟨(kept_carried secret).event h.1 he,
    h.2.follows (event_follows ((kept_carried secret).io h.1) he)⟩
  close h := ⟨h.1.toHeld.close, h.2.follows (follows_close _)⟩
  closed {st w} h hc hw := by
    refine ⟨(kept_carried secret).closed h.1 hc hw, ?_, ?_⟩
    · rw [relay_setHandle]
      exact hc
    · rw [inits_setHandle]
      exact h.2.2

lemma once_close {st₀ : AStream} (r : Ref) (sid : ℕ) (hi : st₀.inits = (new r sid).inits) :
    Once st₀.close := by
  have hinits : st₀.close.inits = (new r sid).inits := by
    unfold close
    split_ifs
    · exact hi
    · exact hi
  refine ⟨?_, fun i h => ?_⟩
  · unfold close
    split_ifs with hc
    · exact hc
    · exact closing_close
  · rw [hinits] at h
    simp only [new, uvInit, setHandle, handle, mem_cons,
      not_mem_nil, or_false] at h
    rcases h with rfl | rfl | rfl <;> rfl

lemma once_setUp (h : ans.connects = false) (r : Ref) (sid : ℕ) :
    Once ((new r sid).setUp ans.ssl ans.connect) := by
  unfold setUp
  cases h1 : ans.ssl.sslNew
  · exact once_close r sid rfl
  rw [if_neg (by decide)]
  cases h2 : ans.ssl.configured
  · exact once_close r sid rfl
  -- so the address does not resolve
  have h3 : ans.connect.resolves = false := by simpa [App.FrameAns.connects, h1, h2] using h
  simp only [Bool.not_true, Bool.false_eq_true, if_false, tmTcpConnect, h3, Bool.not_false,
    if_true]
  exact once_close r sid rfl

end Streams

/-! ## The control connection -/

section

variable {cfg : Cfg} {a b : App} {tr : List (App × Label)} {ans first : ConnectAns}

/-- A connect does not fail at once in `uv_tcp_connect`. -/
def ConnectAns.Goes (ans : ConnectAns) : Prop := ans.resolves = true → ans.uv = true

lemma tmAgentConnect_cases (cfg : Cfg) (ans : ConnectAns) (a : App) :
    ((a.tmAgentConnect cfg ans).ctlInits = a.ctlInits ∧
      (a.tmAgentConnect cfg ans).ctlSock = a.ctlSock) ∨
    ans.resolves = true ∧ (a.tmAgentConnect cfg ans).ctlInits = a.ctlSock :: a.ctlInits ∧
      (a.tmAgentConnect cfg ans).ctlSock = .active ∧
      ((a.tmAgentConnect cfg ans).reconnectTimer = true ↔
        ans.uv = false ∨ a.reconnectTimer = true) := by
  unfold App.tmAgentConnect
  by_cases hb : (a.shuttingDown || a.connected || a.connecting) = true
  · rw [if_pos hb]
    exact .inl ⟨rfl, rfl⟩
  rw [if_neg hb]
  cases ans.resolves
  · exact .inl ⟨rfl, rfl⟩
  · refine .inr ⟨rfl, ?_⟩
    cases ans.uv <;> simp [App.armReconnect]

def Label.reconnect : Label → Option ConnectAns
  | .reconnectTimer ans => some ans
  | _ => none

/-- No reconnect fails at once, and the timer fires when no close of `ctl_sock` is pending. -/
def CtlOk (a : App) (i : Label) : Prop := ∀ ans ∈ i.reconnect, ans.Goes ∧ a.ctlSock ≠ .closing

instance (ans : ConnectAns) : Decidable ans.Goes :=
  inferInstanceAs (Decidable (_ → _))

instance (a : App) (i : Label) : Decidable (CtlOk a i) :=
  inferInstanceAs (Decidable (∀ ans ∈ i.reconnect, ans.Goes ∧ a.ctlSock ≠ .closing))

/-- `ctl_sock` was initialised only when it was new or closed. -/
structure CtlFit (a : App) : Prop where
  inits : ∀ x ∈ a.ctlInits, x = .unset ∨ x = .closed
  parked : a.Parked

lemma CtlFit.connect (h : CtlFit { a with reconnectTimer := true }) (ht : a.reconnectTimer = false)
    (hg : ans.Goes) (hc : a.ctlSock ≠ .closing) : CtlFit (a.tmAgentConnect cfg ans) := by
  have hna : a.ctlSock ≠ .active := h.parked rfl
  obtain ⟨hi, hs⟩ | ⟨hr, hi, hs, hx⟩ := tmAgentConnect_cases cfg ans a
  · exact ⟨hi ▸ h.inits, fun _ => hs ▸ hna⟩
  · refine ⟨?_, fun hx' => ?_⟩
    · rw [hi]
      refine forall_mem_cons.2 ⟨?_, h.inits⟩
      cases he : a.ctlSock with
      | unset => exact .inl rfl
      | active => exact absurd he hna
      | closing => exact absurd he hc
      | closed => exact .inr rfl
    · obtain hu | hx' := hx.1 hx'
      · exact absurd ((hg hr).symm.trans hu) (by decide)
      · exact absurd (ht.symm.trans hx') (by decide)

lemma CtlFit.of_trace (hf : first.Goes) (h : Trace (step cfg) (Started cfg first) tr a)
    (hok : ∀ p ∈ tr, CtlOk p.1 p.2) : CtlFit a := by
  refine h.inv_of_ok ?_ (fun a i b ha hi hs => ?_) hok
  · rintro _ ⟨samples, rfl⟩
    exact .connect (a := { samples := samples }) ⟨nofun, fun _ => nofun⟩ rfl hf nofun
  · rcases exists_acts hs with ⟨l, hl⟩ | ⟨ans, rfl, rfl⟩
    · exact ⟨hl.keeps.1 ▸ ha.inits, hl.keeps.2.2 ha.parked⟩
    · have ht := (of_guards hs).2.1
      obtain ⟨hg, hc⟩ := hi ans rfl
      exact .connect ⟨ha.inits, fun _ => ha.parked ht⟩ rfl hg hc

end

section Runs

variable {cfg : Cfg} {a : App} {tr : List (App × Label)} {first : ConnectAns}

/-- In every run of the agent each record is freed once, when the close callbacks of all its handles
have run. No handle of a stream is initialised while it is closing; a data connection that is set up
initialises `broker_sock` twice. If no control connect fails at once and the closes of `ctl_sock`
are complete when the reconnect timer fires, it is initialised only when it is new or closed. -/
theorem agent_handles (h : Trace (step cfg) (Started cfg first) tr a) :
    (a.records.map ref).Nodup ∧
    (∀ st ∈ a.freed, ∀ w, st.handle w = .closed) ∧ (∀ st ∈ a.dying, ∃ w, st.handle w = .closing) ∧
    (∀ st ∈ a.records, ∀ i ∈ st.inits, i.2 = .unset ∨ i.2 = .active ∧ i.1 ≠ .connectTimer) ∧
    ((∀ p ∈ tr, ∀ ans ∈ p.2.opens, ans.connects = false) →
      ∀ st ∈ a.records, ∀ i ∈ st.inits, i.2 = .unset) ∧
    (∀ ans : App.FrameAns, ans.connects = true → ∀ r sid,
      (.brokerSock, .active) ∈ ((new r sid).setUp ans.ssl ans.connect).inits) ∧
    (first.Goes → (∀ p ∈ tr, CtlOk p.1 p.2) → ∀ x ∈ a.ctlInits, x = .unset ∨ x = .closed) ∧
    ∀ ans b, step cfg a (.reconnectTimer ans) = some b → b.ctlInits ≠ a.ctlInits →
      b.ctlInits = a.ctlSock :: a.ctlInits ∧
      (ans.uv = false → b.ctlSock = .active ∧ b.reconnectTimer = true) := by
  have h' := h
  replace h := h.mono fun _ h => (⟨first, h⟩ : Init cfg _)
  have hok : Ok (fun st => Carried st ∧ Typed st) a :=
    .of_trace (Q := fun _ => True) (kept_typed _)
      (fun ans _ r sid => ⟨carried_setUp r sid ans.ssl ans.connect,
        (typed_new r sid).follows (setUp_follows rfl ans.ssl ans.connect)⟩) h fun _ _ _ _ => trivial
  refine ⟨hok.fresh.nodup, fun st hst w => ?_, fun st hst => ?_, fun st hst => ?_, fun hQ => ?_,
    fun ans hans r sid => twice_of_connects hans, fun hf ho => (CtlFit.of_trace hf h' ho).inits,
    fun ans b hs hne => ?_⟩
  · obtain ⟨hc, hn⟩ := hok.freed st hst
    obtain ⟨hw, hh⟩ := (hok.all st (by simp [App.records, hst])).2.dead hc
    exact (hh w).resolve_left (waiting_zero (hw.symm.trans hn) w)
  · obtain ⟨hc, hn⟩ := hok.dying st hst
    have hw := ((hok.all st (Ok.mem_dying hst)).2.dead hc).1
    exact waiting_pos (hw ▸ hn)
  · exact (hok.all st hst).2.inits
  · have honce : Ok (fun st => Carried st ∧ Once st) a :=
      .of_trace (Q := fun ans => ans.connects = false) (kept_once _)
        (fun ans hans r sid => ⟨carried_setUp r sid ans.ssl ans.connect, once_setUp hans r sid⟩) h
        hQ
    exact fun st hst => (honce.all st hst).2.2
  · obtain ⟨-, -, rfl⟩ := of_guards hs
    obtain ⟨hi, -⟩ | ⟨-, hi, hs, hx⟩ :=
      tmAgentConnect_cases cfg ans { a with reconnectTimer := false }
    · exact absurd hi hne
    · exact ⟨hi, fun hu => ⟨hs, hx.2 (.inl hu)⟩⟩

def smallCfg : Cfg := { tunnelId := [97], agentSecret := [98] }

def registers : List Label :=
  [.ctlConnected true {}, .ctlRead 0 [1, 2, 0, 0, 0, 0, 0, 0, 0, 0] [],
    .ctlRead 0 [1, 4, 0, 0, 0, 0, 0, 0, 0, 0] []]

theorem agent_handles_freed : ∃ a : App, (a.freed.map sid = [7] ∧ a.ctlInits.length = 2) ∧
    (∀ st ∈ a.freed, ∀ w, st.handle w = .closed) ∧
    (∀ st ∈ a.records, ∀ i ∈ st.inits, i.2 = .unset) ∧
    ∀ x ∈ a.ctlInits, x = .unset ∨ x = .closed := by
  obtain ⟨tr, a, h, hans, hctl, hfreed⟩ := exists_trace
    (step smallCfg) (Started smallCfg {}) ⟨[], rfl⟩
    (registers ++ [.ctlRead 0 [1, 8, 0, 0, 0, 0, 0, 0, 0, 7] [{}], .closed 0 .connectTimer,
      .closed 0 .brokerSock, .closed 0 .localSock, .ctlEnd, .ctlClosed, .reconnectTimer {}])
    (fun r => (∀ p ∈ r.1, ∀ ans ∈ p.2.opens, ans.connects = false) ∧
      (∀ p ∈ r.1, CtlOk p.1 p.2) ∧
      r.2.freed.map sid = [7] ∧ r.2.ctlInits.length = 2) (by decide)
  obtain ⟨-, hclosed, -, -, hinits, -, hctl', -⟩ := agent_handles h
  exact ⟨a, hfreed, hclosed, hinits hans, hctl' (by decide) hctl⟩

/-- A data connection is set up. -/
theorem broker_sock_initialised_twice : ∃ cfg tr a, Trace (step cfg) (Init cfg) tr a ∧
    ∃ st ∈ a.records, (.brokerSock, .active) ∈ st.inits :=
  ⟨smallCfg, exists_run ⟨{}, [], rfl⟩
    (registers ++ [.ctlRead 0 [1, 8, 0, 0, 0, 0, 0, 0, 0, 7] [{ ssl := {} }]]) (by decide)⟩

end Runs

end TunnelMate.Agent
