import Mathlib.Data.List.Basic

/-!
# Runs of a step function

A system is a step function `step : σ → ι → Option σ`: in state `s` the label `i` is either not
possible, or leads to one next state.
-/

namespace TunnelMate

variable {σ ι : Type*} {step : σ → ι → Option σ} {init : σ → Prop}

/-- `Trace step init tr s`: a run from a state `init` allows reaches `s`, and `tr` lists its steps,
the latest first, each with the state it was taken in. -/
inductive Trace (step : σ → ι → Option σ) (init : σ → Prop) : List (σ × ι) → σ → Prop
  | start {s : σ} : init s → Trace step init [] s
  | next {tr : List (σ × ι)} {s t : σ} {i : ι} :
      Trace step init tr s → step s i = some t → Trace step init ((s, i) :: tr) t

/-- What is known of a guarded step that was taken. -/
lemma of_guard {p : Prop} [Decidable p] {s t : σ} (h : (if p then some s else none) = some t) :
    p ∧ s = t := by
  rwa [Option.ite_none_right_eq_some, Option.some.injEq] at h

lemma of_guards {p q : Bool} {s t : σ} (h : (if p && q then some s else none) = some t) :
    p = true ∧ q = true ∧ s = t := by
  obtain ⟨hg, rfl⟩ := of_guard h
  exact ⟨(Bool.and_eq_true_iff.1 hg).1, (Bool.and_eq_true_iff.1 hg).2, rfl⟩

namespace Trace

variable {tr : List (σ × ι)} {s t : σ}

lemma inv_of_ok {ok : σ → ι → Prop} {I : σ → Prop} (h0 : ∀ s, init s → I s)
    (hs : ∀ s i t, I s → ok s i → step s i = some t → I t) (h : Trace step init tr s)
    (hok : ∀ p ∈ tr, ok p.1 p.2) : I s := by
  induction h with
  | start hi => exact h0 _ hi
  | next _ hst ih =>
    simp only [List.mem_cons, forall_eq_or_imp] at hok
    exact hs _ _ _ (ih hok.2) hok.1 hst

lemma inv_hist {I : List (σ × ι) → σ → Prop} (h0 : ∀ s, init s → I [] s)
    (hs : ∀ tr s i t, Trace step init tr s → I tr s → step s i = some t → I ((s, i) :: tr) t)
    (h : Trace step init tr s) : I tr s := by
  induction h with
  | start hi => exact h0 _ hi
  | next hr hst ih => exact hs _ _ _ _ hr ih hst

lemma mono {init' : σ → Prop} (hi : ∀ s, init s → init' s) (h : Trace step init tr s) :
    Trace step init' tr s :=
  h.inv_hist (fun s hs => .start (hi s hs)) fun _ _ _ _ _ ih hs => ih.next hs

lemma inv {I : σ → Prop} (h0 : ∀ s, init s → I s)
    (hs : ∀ s i t, I s → step s i = some t → I t) (h : Trace step init tr s) : I s :=
  h.inv_hist (I := fun _ => I) h0 fun _ s i t _ => hs s i t

lemma of_mem (h : Trace step init tr s) {p : σ × ι} (hp : p ∈ tr) :
    ∃ tr' t, Trace step init tr' p.1 ∧ step p.1 p.2 = some t ∧ p :: tr' <:+ tr := by
  induction h with
  | start => simp at hp
  | next hr hst ih =>
    rcases List.mem_cons.1 hp with rfl | hp
    · exact ⟨_, _, hr, hst, List.suffix_refl _⟩
    · obtain ⟨tr', t, h1, h2, h3⟩ := ih hp
      exact ⟨tr', t, h1, h2, h3.trans (List.suffix_cons _ _)⟩

end Trace

def replay (step : σ → ι → Option σ) : σ → List ι → List (σ × ι) → Option (List (σ × ι) × σ)
  | s, [], tr => some (tr, s)
  | s, i :: is, tr => (step s i).bind fun t => replay step t is ((s, i) :: tr)

lemma replay_cons {s t : σ} {i : ι} (h : step s i = some t) (is : List ι) (tr : List (σ × ι)) :
    replay step s (i :: is) tr = replay step t is ((s, i) :: tr) := by
  simp [replay, h]

lemma replay_trace : ∀ (is : List ι) {s t : σ} {tr tr' : List (σ × ι)},
    Trace step init tr s → replay step s is tr = some (tr', t) → Trace step init tr' t
  | [], s, t, tr, tr', h, hr => by
    obtain ⟨rfl, rfl⟩ := hr
    exact h
  | i :: is, s, t, tr, tr', h, hr => by
    simp only [replay, Option.bind_eq_some_iff] at hr
    obtain ⟨u, hu, hr⟩ := hr
    exact replay_trace is (h.next hu) hr

lemma exists_replay (step : σ → ι → Option σ) (init : σ → Prop) {s : σ} (hi : init s) (is : List ι)
    (P : List (σ × ι) × σ → Prop) [DecidablePred P]
    (h : (replay step s is []).any (fun r => decide (P r)) = true) :
    ∃ tr t, replay step s is [] = some (tr, t) ∧ Trace step init tr t ∧ P (tr, t) := by
  obtain ⟨⟨tr, t⟩, hr, hp⟩ := (Option.any_eq_true _ _).1 h
  exact ⟨tr, t, hr, replay_trace is (.start hi) hr, of_decide_eq_true hp⟩

/-- A run that is as wanted, found by replaying its labels. -/
lemma exists_trace (step : σ → ι → Option σ) (init : σ → Prop) {s : σ} (hi : init s) (is : List ι)
    (P : List (σ × ι) × σ → Prop) [DecidablePred P]
    (h : (replay step s is []).any (fun r => decide (P r)) = true) :
    ∃ tr t, Trace step init tr t ∧ P (tr, t) := by
  obtain ⟨tr, t, -, h⟩ := exists_replay step init hi is P h
  exact ⟨tr, t, h⟩

lemma exists_run {P : List (σ × ι) → σ → Prop} [∀ r : List (σ × ι) × σ, Decidable (P r.1 r.2)]
    {s : σ} (hi : init s) (is : List ι)
    (h : (replay step s is []).any (fun r => decide (P r.1 r.2)) = true) :
    ∃ tr t, Trace step init tr t ∧ P tr t :=
  exists_trace step init hi is (fun r => P r.1 r.2) h

end TunnelMate
