import TunnelMate.Proofs.RelayIo

/-!
# A clean close is complete

`stream_maybe_close` closes a stream when both legs have ended, nothing is queued, and every leg
that is still there reports drained.
-/

namespace TunnelMate.Duplex

open Option

variable {s s' : Stream} {E : Leg → Prop} {Q : Bytes → Prop} {F : Prop}

lemma Acts.alive (h : Acts E Q F s s') (he : ∀ l, ¬ E l) (hc : s'.closing = false) (m : Leg) :
    (s'.side m).io = (s.side m).io := by
  induction h with
  | refl => rfl
  | @tail s₁ s₂ _ ha ih =>
    have hc₁ : s₁.closing = false := by
      by_contra h₁
      rw [Acts.closing (.single ha) (by simpa using h₁)] at hc
      exact absurd hc (by simp)
    rw [← ih hc₁]
    cases ha with
    | leg l f hf =>
      rcases Leg.eq_or_other l m with rfl | rfl
      · simp [(hf _).1]
      · simp
    | early | count => cases m <;> rfl
    | note l | halfClose l =>
      rcases Leg.eq_or_other l m with rfl | rfl <;> simp [Stream.noteRead]
    | dropLeg l hl => exact absurd hl (he l)
    | close => simp at hc

lemma Acts.cuts (h : Acts E Q F s s') (m : Leg) :
    ∀ k ∈ (s'.side m).cuts, k ∈ (s.side m).cuts ∨ Q k.queue := by
  induction h with
  | refl => exact fun k hk => .inl hk
  | @tail s₁ s₂ _ ha ih =>
    suffices hn : ∀ k ∈ (s₂.side m).cuts, k ∈ (s₁.side m).cuts ∨ Q k.queue by
      intro k hk
      rcases hn k hk with h₁ | h₁
      · exact ih k h₁
      · exact .inr h₁
    intro k hk
    cases ha with
    | leg l f hf =>
      left
      rcases Leg.eq_or_other l m with rfl | rfl
      · simpa [(hf _).2.1] using hk
      · simpa using hk
    | early | count => cases m <;> exact .inl hk
    | note l =>
      rcases Leg.eq_or_other l m with rfl | rfl <;> exact .inl (by simpa [Stream.noteRead] using hk)
    | halfClose l k' hk' =>
      rcases Leg.eq_or_other l m with rfl | rfl
      · simp only [Stream.side_upd, List.mem_cons] at hk
        rcases hk with rfl | hk
        · exact .inr hk'
        · exact .inl hk
      · exact .inl (by simpa using hk)
    | dropLeg l =>
      left
      rcases Leg.eq_or_other l m with rfl | rfl <;> simpa using hk
    | close =>
      left
      by_cases hc : s₁.closing = true
      · simpa [tmStreamClose, hc] using hk
      · simpa [side_close (by simpa using hc)] using hk

lemma closes_maybeClose (hc : s.closing = false) (h : (streamMaybeClose s).closing = true) :
    streamMaybeClose s = tmStreamClose s ∧ s.a.eof = true ∧ s.b.eof = true ∧
      ∀ l, ((s.side l).io ≠ none → (s.side l).drained = true) ∧ s.queue l = [] := by
  unfold streamMaybeClose at h ⊢
  split_ifs at h ⊢ with h1 h2 h3 h4 <;> try simp [hc] at h
  simp only [hc, Bool.false_or, Bool.or_eq_true, Bool.not_eq_true', not_or, Bool.not_eq_false] at h1
  simp only [not_or, not_not] at h4
  refine ⟨rfl, h1.1, h1.2, fun l => ?_⟩
  cases l
  · refine ⟨fun hi => ?_, by simp [Stream.queue, Stream.side, h4]⟩
    simpa [Stream.side, isSome_iff_ne_none.2 (show s.a.io ≠ none from hi)] using h2
  · refine ⟨fun hi => ?_, by simp [Stream.queue, Stream.side, h4]⟩
    simpa [Stream.side, isSome_iff_ne_none.2 (show s.b.io ≠ none from hi)] using h3

end TunnelMate.Duplex

namespace TunnelMate.Relay

open Duplex

variable {s : Stream} {l : Leg} {c c' : Config Tail} {i : Label} {tr : List (Config Tail × Label)}

def maybeCloseOn (c : Config Tail) : Label → Option Stream
  | .eof l =>
    if c.s.closing = false ∧ (c.s.side l.other).io = none then
      some (c.s.upd (fun x => { x with eof := true }) l)
    else none
  | .error l =>
    if c.s.closing = false ∧ (c.s.side l.other).io = none then
      some (c.s.upd (fun x => { x with io := none, eof := true }) l)
    else none
  | .low l => if c.s.closing = false ∧ (c.s.side l).io = none then some c.s else none
  | .run _ =>
    match c.todo with
    | .tail .maybeClose :: _ => some c.s
    | .tail (.ended l) :: _ => if (c.s.side l.other).pend ≠ [] then some c.s else none
    | .tail (.low l) :: _ => if (c.s.side l).pend ≠ [] then some c.s else none
    | _ => none
  | _ => none

lemma legEnded_alone (h : (s.side l.other).io = none) : (legEnded l s).1 = streamMaybeClose s := by
  simp [legEnded, h]

lemma step_maybeCloseOn (hs : step c i = some c') (h : maybeCloseOn c i = some s) :
    c'.s = streamMaybeClose s := by
  cases i <;> simp only [maybeCloseOn] at h
  case eof l =>
    simp only [step] at hs
    split_ifs at hs h with _ hc
    cases hs
    cases h
    simp only [Config.push, relayEof, hc.1]
    exact legEnded_alone (by simpa using hc.2)
  case error l =>
    simp only [step] at hs
    split_ifs at hs h with _ hc
    cases hs
    cases h
    simp only [Config.push, relayError, hc.1]
    exact legEnded_alone (by simpa using hc.2)
  case low l =>
    simp only [step] at hs
    split_ifs at hs h with _ hc
    cases hs
    cases h
    simp [Config.push, relayLow, hc.1, hc.2]
  case run ans =>
    obtain ⟨s₀, t⟩ := c
    dsimp only at h
    split at h
    · cases h
      cases hs
      rfl
    · split_ifs at h with hp
      cases h
      cases hs
      simp [tail, hp]
    · split_ifs at h with hp
      cases h
      cases hs
      simp [tail, hp]
    · simp at h
  all_goals simp at h

lemma queue_of_alive (h : Inv c) (hi : (c.s.side l).io ≠ none) (hp : (c.s.side l).pend = []) :
    c.s.queue l = [] := by
  cases l
  · simp [Stream.queue, hp]
  · simp [Stream.queue, hp, (h.bound (h.isBound hi)).1]

def BothLegs (c : Config Tail) : Prop :=
  c.s.bound = true → c.s.closing = false → ∀ l, (c.s.side l).io ≠ none

lemma bothLegs_step (h : BothLegs c) (hi : ∀ l, i ≠ .error l) (hs : step c i = some c') :
    BothLegs c' := by
  intro hb hc l
  by_cases hat : ∃ io, i = .attach io
  · obtain ⟨io, rfl⟩ := hat
    rcases step_attach_cases hs with he | ⟨-, -, he | he⟩
    · rw [he] at hb hc ⊢
      exact h hb hc l
    · rw [he]
      exact alive_attached io c.s l
    · rw [he] at hc ⊢
      rw [(acts_flushPend (τ := Tail) (E := fun _ => False) (Q := fun _ => False) (F := True)).alive
        (fun _ => id) hc]
      exact alive_attached io c.s l
  · have ha := step_acts (Q := fun _ => True) (fun _ _ _ => trivial) hs fun io h => hat ⟨io, h⟩
    have hc₀ : c.s.closing = false := by
      by_contra h₁
      rw [ha.closing (by simpa using h₁)] at hc
      exact absurd hc (by simp)
    rw [ha.alive hi hc]
    exact h (ha.bound ▸ hb) hc₀ l

lemma cuts_step (h : Inv c) (hc : ∀ l, ∀ k ∈ (c.s.side l).cuts, k.queue = [])
    (hs : step c i = some c') (l : Leg) : ∀ k ∈ (c'.s.side l).cuts, k.queue = [] := by
  intro k hk
  by_cases hat : ∃ io, i = .attach io
  · obtain ⟨io, rfl⟩ := hat
    have hatt : ((attached io c.s).side l).cuts = (c.s.side l).cuts := by
      obtain ⟨x, b, d, he⟩ := side_attached io c.s l
      rw [he]
    rcases step_attach_cases hs with he | ⟨-, -, he | he⟩ <;> rw [he] at hk
    · exact hc l k hk
    · exact hc l k (hatt ▸ hk)
    · have ha := acts_flushPend (s := attached io c.s) (l := .b) (τ := Tail)
        (E := fun _ => False) (Q := fun _ => False) (F := True)
      exact hc l k (hatt ▸ (ha.cuts l k hk).resolve_right id)
  · have ha := step_acts (Q := (· = [])) (fun l => queue_of_alive h) hs fun io h => hat ⟨io, h⟩
    exact (ha.cuts l k hk).elim (hc l k) id

lemma cuts_of_trace (h : Trace step Init tr c) (l : Leg) :
    ∀ k ∈ (c.s.side l).cuts, k.queue = [] := by
  refine h.inv_hist (I := fun _ c => ∀ l, ∀ k ∈ (c.s.side l).cuts, k.queue = []) ?_ ?_ l
  · rintro ⟨s, t⟩ ⟨-, rfl | ⟨conn, rfl⟩⟩ l k hk <;> cases l <;>
      simp [createdOpen, createdClosed, Stream.side] at hk
  · exact fun tr c i c' ht hc hs l => cuts_step (trace_inv ht) hc hs l

lemma bothLegs_of_trace (h : Trace step Init tr c) (herr : ∀ p ∈ tr, ∀ l, p.2 ≠ .error l) :
    BothLegs c := by
  refine h.inv_of_ok (fun c h0 => ?_)
    (fun c i c' hc (hi : ∀ l, i ≠ .error l) hs => bothLegs_step hc hi hs) herr
  obtain ⟨-, h0 | ⟨conn, h0⟩⟩ := h0 <;> intro hb <;> simp [h0, createdOpen, createdClosed] at hb

lemma maybeCloseOn_spec (h : Inv c) (hs : step c i = some c') (hi : ∀ l, i ≠ .error l)
    (hon : maybeCloseOn c i = some s) :
    Inv ⟨s, c.todo⟩ ∧ s.closing = c.s.closing ∧ s.bound = c.s.bound ∧
      ∀ l, (s.side l).io = (c.s.side l).io := by
  cases i <;> simp only [maybeCloseOn] at hon
  case eof l =>
    simp only [step, Bool.and_eq_true, Option.ite_none_right_eq_some] at hs
    split_ifs at hon
    cases hon
    refine ⟨?_, by simp, by simp, fun m => ?_⟩
    · have he : c.s.upd (fun x => { x with eof := true }) l
          = c.s.upd (fun x => { x with io := (c.s.side l).io, eof := true }) l := by
        cases l <;> rfl
      rw [he]
      exact h.ended (h.of_io hs.1.2).2 (.inl rfl)
    · rcases Leg.eq_or_other l m with rfl | rfl <;> simp
  case error l => exact absurd rfl (hi l)
  case low l =>
    split_ifs at hon
    cases hon
    exact ⟨h, rfl, rfl, fun _ => rfl⟩
  case run ans =>
    obtain rfl : c.s = s := by
      split at hon
      · exact Option.some.inj hon
      · split_ifs at hon
        exact Option.some.inj hon
      · split_ifs at hon
        exact Option.some.inj hon
      · simp at hon
    exact ⟨h, rfl, rfl, fun _ => rfl⟩
  all_goals simp at hon

/-- In every run of a stream the half-close of a leg is requested only while nothing is queued for
that leg; and a stream that `stream_maybe_close` closes without an error has passed on every byte.
-/

theorem clean_close (h : Trace step Init ((c, i) :: tr) c') :
    ((∀ p ∈ (c, i) :: tr, ∀ l, p.2 ≠ .error l) → (∀ l, (c'.s.side l).lost = false) →
      ∀ s, maybeCloseOn c i = some s → s.closing = false → c'.s.closing = true →
        c'.s = streamMaybeClose s ∧ ∀ l, (c'.s.side l).acc = (c'.s.side l.other).rd ∧
          (s.side l).io ≠ none ∧ (s.side l).drained = true) ∧
    ∀ l, ∀ k ∈ (c'.s.side l).cuts, k.queue = [] := by
  refine ⟨fun herr hlost s hon hc hc' => ?_, cuts_of_trace h⟩
  obtain ⟨h₀, hs⟩ : Trace step Init tr c ∧ step c i = some c' := by
    cases h with
    | next h₀ hs => exact ⟨h₀, hs⟩
  simp only [List.mem_cons, forall_eq_or_imp] at herr
  have hcl := step_maybeCloseOn hs hon
  obtain ⟨heq, -, heof, hq⟩ := closes_maybeClose hc (hcl ▸ hc')
  obtain ⟨hinv, hsc, hsb, hio⟩ := maybeCloseOn_spec (trace_inv h₀) hs herr.1 hon
  -- the agent leg has ended, so it was attached
  have hb : s.bound = true := by
    by_contra hb
    have hn : s.b.eof = false := (hinv.unbound (by simpa using hb)).2.1
    exact absurd (hn.symm.trans heof) (by simp)
  have hboth : ∀ l, (s.side l).io ≠ none := fun l =>
    hio l ▸ bothLegs_of_trace h₀ herr.2 (hsb ▸ hb) (hsc ▸ hc) l
  have hside : ∀ l, c'.s.side l = { s.side l with io := none } := fun l => by
    rw [hcl, heq, side_close hc]
  refine ⟨hcl, fun l => ⟨?_, hboth l, (hq l).1 (hboth l)⟩⟩
  have hl : (s.side l).lost = false := by simpa [hside] using hlost l
  have hp := (hinv.pipes l).2.2 (by simp [pipe, hc, hl])
  simpa [hside, pipe, (hq l).2] using hp

theorem clean_close_both : ∃ tr c i c', Trace step Init ((c, i) :: tr) c' ∧
    (c'.s.closing = true ∧ c'.s.a.acc = [3] ∧ c'.s.b.acc = [1, 2] ∧ c'.s.b.cuts ≠ []) ∧
    (∀ l, (c'.s.side l).acc = (c'.s.side l.other).rd) ∧
    ∀ l, ∀ k ∈ (c'.s.side l).cuts, k.queue = [] := by
  obtain ⟨tr, c', h, herr, hlost, hcl, hon⟩ := exists_trace step Init
    (s := ⟨createdClosed 0, []⟩) ⟨rfl, .inr ⟨0, rfl⟩⟩
    [.attach (.ssl 1), .run .ok, .read .a [1, 2] .ok, .run .ok, .read .b [3] .ok, .run .ok,
      .eof .a, .run .ok, .run .ok, .run .ok, .run .ok, .eof .b, .run .ok, .run .ok, .run .ok,
      .drain .a true, .drain .b true, .run .ok]
    (fun r => (∀ p ∈ r.1, p.2 ≠ .error .a ∧ p.2 ≠ .error .b) ∧
      (r.2.s.a.lost = false ∧ r.2.s.b.lost = false) ∧
      (r.2.s.closing = true ∧ r.2.s.a.acc = [3] ∧ r.2.s.b.acc = [1, 2] ∧ r.2.s.b.cuts ≠ []) ∧
      (r.1.head?.any fun p => (maybeCloseOn p.1 p.2).any fun s => !s.closing) = true) (by decide)
  cases tr with
  | nil => simp at hon
  | cons p tr =>
    simp only [List.head?_cons, Option.any_some] at hon
    obtain ⟨s, hs, hsc⟩ := (Option.any_eq_true _ _).1 hon
    have hcc := clean_close h
    refine ⟨tr, p.1, p.2, c', h, hcl, fun l => ?_, hcc.2⟩
    refine ((hcc.1 (fun q hq l => ?_) (fun l => ?_) s hs (by simpa using hsc) hcl.1).2 l).1
    · cases l
      · exact (herr q hq).1
      · exact (herr q hq).2
    · cases l
      · exact hlost.1
      · exact hlost.2

end TunnelMate.Relay
