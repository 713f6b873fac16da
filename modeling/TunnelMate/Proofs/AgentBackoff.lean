import TunnelMate.Proofs.AgentActs

/-!
# The delays of the agent's reconnects

Every disconnect doubles the base up to the maximum, and the registration resets it. What the
reconnect timer is started with is near the base of the moment.
-/

namespace TunnelMate.Agent

open App List

variable {cfg : Cfg} {a b : App} {act : Act} {l m : List Act} {tr : List (App × Label)} {k : ℕ}

/-- The base after `k` disconnects. -/
def base (cfg : Cfg) (k : ℕ) : ℕ := min cfg.reconnectMaxDelayMs (cfg.reconnectDelayMs * 2 ^ k)

lemma base_succ (cfg : Cfg) (k : ℕ) :
    min (base cfg k * 2) cfg.reconnectMaxDelayMs = base cfg (k + 1) := by
  have h : cfg.reconnectDelayMs * 2 ^ (k + 1) = cfg.reconnectDelayMs * 2 ^ k * 2 := by
    rw [pow_succ, mul_assoc]
  rw [base, base, h]
  omega

/-- The delay deviates from the base `x` by at most a fifth, and is not zero. -/
def Near (x delay : ℕ) : Prop := x - x / 5 ≤ delay ∧ delay ≤ x + x / 5 ∧ delay ≠ 0

lemma near_jitter {x : ℕ} (hx : 0 < x) (hm : x < 2 ^ 63) (sample : ℕ) :
    Near x (reconnectWithJitter x sample) := by
  rw [Near, reconnectWithJitter]
  have hs := Nat.mod_lt sample (show 0 < x / 5 * 2 + 1 by omega)
  split_ifs <;> omega

/-- A connect from `a` that made `b` has failed at once, or it has not. -/
def Retried (m : List Act) (a b : App) : Prop :=
  b.armed = m.filterMap Act.armed ++ a.armed ∧ (m = [] ∨ ∃ delay, m = [.retry delay])

/-- The acts of a run, the latest first. -/
inductive Course (cfg : Cfg) : List (App × Label) → App → List Act → Prop
  | start {a : App} {m : List Act} : Init cfg a → Retried m {} a → Course cfg [] a m
  | acts {tr : List (App × Label)} {a b : App} {l m : List Act} {i : Label} : Course cfg tr a l →
      step cfg a i = some b → Acts cfg m a b → Course cfg ((a, i) :: tr) b (m ++ l)
  | connect {tr : List (App × Label)} {a b : App} {l m : List Act} {ans : ConnectAns} :
      Course cfg tr a l → step cfg a (.reconnectTimer ans) = some b → Retried m a b →
      Course cfg ((a, .reconnectTimer ans) :: tr) b (m ++ l)

lemma exists_retried (cfg : Cfg) (ans : ConnectAns) (a : App) :
    ∃ m, Retried m a (a.tmAgentConnect cfg ans) := by
  unfold tmAgentConnect
  generalize (if a.reconnectDelayMs = 0 then _ else _) = delay
  split_ifs
  · exact ⟨[], rfl, .inl rfl⟩
  · exact ⟨_, rfl, .inr ⟨_, rfl⟩⟩
  · exact ⟨_, rfl, .inr ⟨_, rfl⟩⟩
  · exact ⟨[], rfl, .inl rfl⟩

lemma exists_course (h : Trace (step cfg) (Init cfg) tr a) : ∃ l, Course cfg tr a l := by
  induction h with
  | start hi =>
    obtain ⟨ans, samples, rfl⟩ := hi
    obtain ⟨m, hm⟩ := exists_retried cfg ans { samples := samples }
    exact ⟨m, .start ⟨ans, samples, rfl⟩ hm⟩
  | next _ hs ih =>
    obtain ⟨l, hl⟩ := ih
    rcases exists_acts hs with ⟨m, hm⟩ | ⟨ans, rfl, rfl⟩
    · exact ⟨m ++ l, hl.acts hs hm⟩
    · obtain ⟨m, hm⟩ := exists_retried cfg ans _
      exact ⟨m ++ l, hl.connect hs hm⟩

/-- The delay is the base, the delays that were armed are those of the acts, and each is near the
base of its moment. -/
structure Backed (cfg : Cfg) (l : List Act) (a : App) : Prop where
  delay : a.reconnectDelayMs = base cfg (drops l 0)
  armed : a.armed = l.filterMap Act.armed
  near : ∀ act l', act :: l' <:+ l →
    ∀ delay ∈ act.armed, Near (base cfg (drops (act :: l') 0)) delay

section

variable (hd : 0 < cfg.reconnectDelayMs) (hm : cfg.reconnectDelayMs ≤ cfg.reconnectMaxDelayMs)
  (hmax : cfg.reconnectMaxDelayMs < 2 ^ 63)

lemma Backed.cons (h : Backed cfg l a) (hb : b.reconnectDelayMs = base cfg (drops (act :: l) 0))
    (ha : b.armed = act.armed.toList ++ a.armed)
    (hn : ∀ delay ∈ act.armed, Near (base cfg (drops (act :: l) 0)) delay) :
    Backed cfg (act :: l) b where
  delay := hb
  armed := by
    rw [ha, h.armed]
    cases act <;> rfl
  near act' l' hs := by
    obtain he | hs := suffix_cons_iff.1 hs
    · obtain ⟨rfl, rfl⟩ := cons.inj he
      exact hn
    · exact h.near act' l' hs

include hm in
lemma base_zero : base cfg 0 = cfg.reconnectDelayMs := by
  rw [base, pow_zero, mul_one, min_eq_right hm]

include hd hm hmax

lemma near_base (k sample : ℕ) : Near (base cfg k) (reconnectWithJitter (base cfg k) sample) :=
  near_jitter (lt_min (hd.trans_le hm) (Nat.mul_pos hd (Nat.two_pow_pos k)))
    ((min_le_left _ _).trans_lt hmax) sample

lemma Backed.acts (h : Backed cfg l a) (ha : Acts cfg m a b) : Backed cfg (m ++ l) b := by
  induction ha generalizing l with
  | same hb =>
    exact { h with
      delay := (congrArg (·.2.2.1) hb).trans h.delay
      armed := (congrArg (·.2.2.2) hb).trans h.armed }
  | @disconnect a hup hoff =>
    have hb := (tmAgentDisconnect_fields cfg a).2.2 hup hoff
    have hn : a.nextDelay cfg = base cfg (drops l 0 + 1) := by
      rw [nextDelay, h.delay, base_succ]
    refine h.cons ((congrArg (·.2.2.1) hb).trans hn) (congrArg (·.2.2.2) hb) ?_
    rintro _ ⟨⟩
    rw [hn]
    exact near_base hd hm hmax _ _
  | registerOk => exact h.cons (base_zero hm).symm rfl nofun
  | shutdown a =>
    have hb := (tmAgentShutdown_fields a).2
    exact { h with
      delay := (congrArg (·.2.2.1) hb).trans h.delay
      armed := (congrArg (·.2.2.2) hb).trans h.armed }
  | trans _ _ ih ih' =>
    rw [append_assoc]
    exact ih' (ih h)

lemma Backed.connect (h : Backed cfg l a) (ans : ConnectAns)
    (hr : Retried m a (a.tmAgentConnect cfg ans)) :
    Backed cfg (m ++ l) (a.tmAgentConnect cfg ans) := by
  have h0 : a.reconnectDelayMs ≠ 0 := by
    have := (near_base hd hm hmax (drops l 0) 0)
    rw [h.delay]
    rintro he
    rw [he] at this
    exact this.2.2 rfl
  have hb : (a.tmAgentConnect cfg ans).reconnectDelayMs = a.reconnectDelayMs ∧
      ((a.tmAgentConnect cfg ans).armed = a.armed ∨
        (a.tmAgentConnect cfg ans).armed = a.jitter a.reconnectDelayMs :: a.armed) := by
    simp only [tmAgentConnect, if_neg h0]
    split_ifs
    · exact ⟨rfl, .inl rfl⟩
    · exact ⟨rfl, .inr rfl⟩
    · exact ⟨rfl, .inr rfl⟩
    · exact ⟨rfl, .inl rfl⟩
  obtain ⟨hs, rfl | ⟨delay, rfl⟩⟩ := hr
  · exact { h with delay := hb.1.trans h.delay, armed := hs.trans h.armed }
  · refine h.cons (hb.1.trans h.delay) hs ?_
    rintro _ ⟨⟩
    obtain he | he := hb.2
    · simp [he, Act.armed] at hs
    · obtain ⟨rfl, -⟩ := cons.inj (hs.symm.trans he)
      rw [jitter, h.delay]
      exact near_base hd hm hmax _ _

lemma Course.backed (h : Course cfg tr a l) : Backed cfg l a := by
  induction h with
  | @start _ m hi hr =>
    obtain ⟨ans, samples, rfl⟩ := hi
    -- the first connect gives the field its value
    have he : tmAgentConnect cfg ans { samples := samples } =
        .tmAgentConnect cfg ans
          { samples := samples, reconnectDelayMs := cfg.reconnectDelayMs } := by
      simp [tmAgentConnect, hd.ne']
    rw [he] at hr ⊢
    rw [← append_nil m]
    exact .connect hd hm hmax ⟨(base_zero hm).symm, rfl, by simp⟩ ans hr
  | acts _ _ ha ih => exact ih.acts hd hm hmax ha
  | @connect _ a _ _ _ ans _ hs hr ih =>
    cases (Option.ite_none_right_eq_some.1 hs).2
    exact .connect (a := { a with reconnectTimer := false }) hd hm hmax { ih with } ans hr

/-- Over every run the base after `k` disconnects since the start or the last registration is
`min m (d * 2 ^ k)`, every delay the timer is started with deviates from it by at most a fifth and
is never zero, and no number leaves the range of `uint64_t`. -/
theorem agent_backoff (h : Trace (step cfg) (Init cfg) tr a) :
    (∃ l, Course cfg tr a l) ∧ ∀ l, Course cfg tr a l → a.reconnectDelayMs =
        min cfg.reconnectMaxDelayMs (cfg.reconnectDelayMs * 2 ^ drops l 0) ∧
      a.reconnectDelayMs * 2 < 2 ^ 64 ∧
      (∀ sample, Near a.reconnectDelayMs (reconnectWithJitter a.reconnectDelayMs sample)) ∧
      a.armed = l.filterMap Act.armed ∧ ∀ act l', act :: l' <:+ l → ∀ delay ∈ act.armed,
        Near (base cfg (drops (act :: l') 0)) delay := by
  refine ⟨exists_course h, fun l hl => ?_⟩
  have hb := hl.backed hd hm hmax
  have hle : base cfg (drops l 0) ≤ cfg.reconnectMaxDelayMs := min_le_left _ _
  refine ⟨hb.delay, ?_, fun sample => ?_, hb.armed, hb.near⟩
  · rw [hb.delay]
    omega
  · rw [hb.delay]
    exact near_base hd hm hmax _ sample

end

theorem agent_backoff_dropped : ∃ cfg tr a l, Trace (step cfg) (Init cfg) tr a ∧
    Course cfg tr a l ∧ a.reconnectDelayMs = 2000 ∧ a.armed = [1600] ∧
    a.armed = l.filterMap Act.armed := by
  let cfg : Cfg := { tunnelId := [97], agentSecret := [98] }
  obtain ⟨tr, a, h, ha, hd⟩ := exists_trace (step cfg) (Init cfg) ⟨{}, [], rfl⟩
    [.ctlConnected false {}] (fun r => r.2.reconnectDelayMs = 2000 ∧ r.2.armed = [1600]) (by decide)
  obtain ⟨⟨l, hl⟩, hb⟩ := agent_backoff (by decide) (by decide) (by decide) h
  exact ⟨cfg, tr, a, l, h, hl, ha, hd, (hb l hl).2.2.2.1⟩

end TunnelMate.Agent
