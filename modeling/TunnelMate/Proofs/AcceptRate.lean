import Mathlib.Data.List.Pairwise
import TunnelMate.Broker

/-!
# The table of accept rates

`rate_cleanup` takes an entry for unused if its count is 0, but a count is set back only when the
address of the entry returns.
-/

namespace TunnelMate

open List Table

variable {b b' : Broker} {ip : Addr} {n : ℕ} {rs rs' : List AcceptRate}

def acceptStep (b : Broker) (c : ℕ × Addr) : Option Broker :=
  if b.now ≤ c.1 then some (rateAllow c.2 { b with now := c.1 }).2 else none

lemma tmAddrEqIp_iff {x y : Addr} : tmAddrEqIp x y = true ↔
    x.family = y.family ∧ (x.family = .unspec ∨ x.ip = y.ip) := by
  simp [tmAddrEqIp]

lemma tmAddrEqIp_symm {x y : Addr} (h : tmAddrEqIp x y = true) : tmAddrEqIp y x = true := by
  rw [tmAddrEqIp_iff] at h ⊢
  exact ⟨h.1.symm, h.2.imp (h.1 ▸ ·) .symm⟩

lemma tmAddrEqIp_trans {x y z : Addr} (h : tmAddrEqIp x y = true) (h' : tmAddrEqIp y z = true) :
    tmAddrEqIp x z = true := by
  rw [tmAddrEqIp_iff] at h h' ⊢
  refine ⟨h.1.trans h'.1, ?_⟩
  rcases h.2 with hu | he
  · exact .inl hu
  · exact h'.2.imp (h.1 ▸ ·) he.trans

structure Spread (n : ℕ) (rs : List AcceptRate) : Prop where
  fresh : Table.Fresh n rs
  apart : (rs.map AcceptRate.ip).Pairwise fun x y => ¬ tmAddrEqIp x y = true

lemma Spread.sublist (h : Spread n rs) (hs : rs'.Sublist rs) : Spread n rs' :=
  ⟨h.fresh.sublist hs, h.apart.sublist (hs.map _)⟩

lemma Spread.upd {k : Ref} {f : AcceptRate → AcceptRate} (h : Spread n rs)
    (hf : ∀ r ∈ rs, r.ref = k → (f r).ref = k ∧ (f r).ip = r.ip) : Spread n (upd k f rs) := by
  refine ⟨h.fresh.upd fun r hr he => (hf r hr he).1, ?_⟩
  rw [map_upd fun r hr he => (hf r hr he).2]
  exact h.apart

lemma rateFind_cases (h : Spread b.nextRef b.acceptRates) (ip : Addr) :
    ∃ r b₀, rateFind ip b = (r, b₀) ∧ Spread b₀.nextRef b₀.acceptRates ∧ b₀.now = b.now ∧
      r ∈ b₀.acceptRates ∧ tmAddrEqIp r.ip ip = true ∧
      (r.ip = ip ∧ r.winStart = b.now ∨ r ∈ b.acceptRates) ∧
      ∀ x ∈ b₀.acceptRates, x.ref ≠ r.ref → x ∈ b.acceptRates := by
  unfold rateFind
  split
  · rename_i r hr
    have hm := mem_of_find?_eq_some hr
    exact ⟨r, b, rfl, h, rfl, hm, by simpa using find?_some hr, .inr hm, fun _ hx _ => hx⟩
  · rename_i hn
    rw [find?_eq_none] at hn
    refine ⟨_, _, rfl, ⟨h.fresh.cons rfl, ?_⟩, rfl, mem_cons_self, by simp [tmAddrEqIp],
      .inl ⟨rfl, rfl⟩, fun x hx hne => (mem_cons.1 hx).resolve_left fun he => hne (by rw [he])⟩
    refine pairwise_cons.2 ⟨fun y hy he => ?_, h.apart⟩
    obtain ⟨r, hr, rfl⟩ := mem_map.1 hy
    exact hn r hr (tmAddrEqIp_symm he)

/-- An entry of the table after a call of `ip` has a window that began with the call, or is one from
before, whose window is not over if it is that of `ip`. -/
lemma rateAllow_spec (h : Spread b.nextRef b.acceptRates) (ip : Addr) :
    Spread (rateAllow ip b).2.nextRef (rateAllow ip b).2.acceptRates ∧
    (rateAllow ip b).2.now = b.now ∧ ∀ r ∈ (rateAllow ip b).2.acceptRates,
      (r.winStart = b.now ∧ (r.ip = ip ∨ ∃ x ∈ b.acceptRates, x.ip = r.ip)) ∨
      ∃ x ∈ b.acceptRates, x.ip = r.ip ∧ x.winStart = r.winStart ∧
        (tmAddrEqIp x.ip ip = true → b.now < x.winStart + 1000) := by
  obtain ⟨r₀, b₀, hfind, hs, hnow, hr₀, heq, hold, hother⟩ := rateFind_cases h ip
  unfold rateAllow
  rw [hfind]
  dsimp only
  generalize hr : (if b₀.now - r₀.winStart ≥ 1000 then
    ({ r₀ with winStart := b₀.now, count := 0 } : AcceptRate) else r₀) = r'
  have hr' : r'.ref = r₀.ref ∧ r'.ip = r₀.ip ∧ (r'.winStart = b.now ∨
      r₀ ∈ b.acceptRates ∧ r₀.winStart = r'.winStart ∧ b.now < r₀.winStart + 1000) := by
    rw [← hr]
    split_ifs
    · exact ⟨rfl, rfl, .inl hnow⟩
    · refine ⟨rfl, rfl, hold.imp (fun hf => hf.2) fun hm => ⟨hm, rfl, by omega⟩⟩
  have hone {r : AcceptRate} (hr : r ∈ b₀.acceptRates) (he : r.ref = r₀.ref) : r = r₀ :=
    eq_of_key hs.fresh.nodup hr hr₀ he
  have hs₁ : Spread b₀.nextRef (upd r₀.ref (fun _ => r') b₀.acceptRates) := by
    refine hs.upd fun r hr he => ⟨hr'.1, ?_⟩
    rw [hone hr he, hr'.2.1]
  -- what an entry of the table is, once that of the address has been counted
  let P (r : AcceptRate) : Prop := (r.ip = r'.ip ∧ r.winStart = r'.winStart) ∨
    (r ∈ b₀.acceptRates ∧ r.ref ≠ r₀.ref)
  have h₁ : ∀ r ∈ upd r₀.ref (fun _ => r') b₀.acceptRates, P r :=
    forall_upd (fun r hr hne => .inr ⟨hr, hne⟩) fun _ _ _ => .inl ⟨rfl, rfl⟩
  have h₂ : ∀ r ∈ upd r₀.ref (fun r => { r with count := r.count + 1 })
      (upd r₀.ref (fun _ => r') b₀.acceptRates), P r :=
    forall_upd (fun r hr _ => h₁ r hr) fun r hr he =>
      .inl ((h₁ r hr).resolve_right fun hx => hx.2 he)
  have hP {r : AcceptRate} (hp : P r) :
      (r.winStart = b.now ∧ (r.ip = ip ∨ ∃ x ∈ b.acceptRates, x.ip = r.ip)) ∨
      ∃ x ∈ b.acceptRates, x.ip = r.ip ∧ x.winStart = r.winStart ∧
        (tmAddrEqIp x.ip ip = true → b.now < x.winStart + 1000) := by
    rcases hp with ⟨hi, hw⟩ | ⟨hm, hne⟩
    · rw [hi, hw, hr'.2.1]
      exact hr'.2.2.imp (fun hn => ⟨hn, hold.imp And.left fun hm => ⟨r₀, hm, rfl⟩⟩)
        fun ⟨hm, hw, hlt⟩ => ⟨r₀, hm, rfl, hw, fun _ => hlt⟩
    · refine .inr ⟨r, hother r hm hne, rfl, rfl, fun he => ?_⟩
      have : Std.Symm fun x y : AcceptRate => ¬ tmAddrEqIp x.ip y.ip = true :=
        ⟨fun _ _ h h' => h (tmAddrEqIp_symm h')⟩
      have hap := (pairwise_map.1 hs.apart).forall hm hr₀ fun he => hne (by rw [he])
      exact absurd (tmAddrEqIp_trans he (tmAddrEqIp_symm heq)) hap
  split_ifs
  · exact ⟨hs₁, hnow, fun r hr => hP (h₁ r hr)⟩
  · have hs₂ : Spread b₀.nextRef (upd r₀.ref (fun r => { r with count := r.count + 1 })
        (upd r₀.ref (fun _ => r') b₀.acceptRates)) := hs₁.upd fun _ _ he => ⟨he, rfl⟩
    exact ⟨(hs₂.sublist filter_sublist : Spread _ (.filter _ _)), hnow,
      fun r hr => hP (h₂ r (mem_filter.1 hr).1)⟩

/-- The call begins a window: its address has no entry, or one whose window is over. -/
def OpensWindow (c : Broker × ℕ × Addr) : Prop :=
  ∀ r ∈ c.1.acceptRates, tmAddrEqIp r.ip c.2.2 = true → r.winStart + 1000 ≤ c.2.1

instance : DecidablePred OpensWindow := fun c =>
  inferInstanceAs (Decidable (∀ r ∈ c.1.acceptRates, _))

structure Rates (tr : List (Broker × ℕ × Addr)) (b : Broker) : Prop where
  spread : Spread b.nextRef b.acceptRates
  past : ∀ c ∈ tr, c.2.1 ≤ b.now
  made : ∀ r ∈ b.acceptRates, ∃ c ∈ tr, c.2.2 = r.ip
  recent : ∀ r ∈ b.acceptRates, ∀ c ∈ tr, tmAddrEqIp r.ip c.2.2 = true → OpensWindow c →
    c.2.1 ≤ r.winStart

lemma Rates.step {tr : List (Broker × ℕ × Addr)} {c : ℕ × Addr} (h : Rates tr b)
    (hs : acceptStep b c = some b') : Rates ((b, c) :: tr) b' := by
  obtain ⟨hle, rfl⟩ : b.now ≤ c.1 ∧ (rateAllow c.2 { b with now := c.1 }).2 = b' := by
    simpa [acceptStep] using hs
  obtain ⟨hsp, hnow, hr⟩ := rateAllow_spec (b := { b with now := c.1 }) h.spread c.2
  have hpast : ∀ e ∈ (b, c) :: tr, e.2.1 ≤ c.1 :=
    forall_mem_cons.2 ⟨le_rfl, fun e he => (h.past e he).trans hle⟩
  have hmade {r x : AcceptRate} (hx : x ∈ b.acceptRates) (hi : x.ip = r.ip) :
      ∃ e ∈ (b, c) :: tr, e.2.2 = r.ip := by
    obtain ⟨e, he, hi'⟩ := h.made x hx
    exact ⟨e, mem_cons_of_mem _ he, hi'.trans hi⟩
  refine ⟨hsp, fun e he => hnow ▸ hpast e he, fun r hm => ?_, fun r hm e he heq ho => ?_⟩
  · rcases hr r hm with ⟨-, hi | ⟨x, hx, hi⟩⟩ | ⟨x, hx, hi, -⟩
    · exact ⟨_, mem_cons_self, hi.symm⟩
    · exact hmade hx hi
    · exact hmade hx hi
  · rcases hr r hm with ⟨hw, -⟩ | ⟨x, hx, hi, hw, hlt⟩
    · exact hw ▸ hpast e he
    · rw [← hi] at heq
      rw [← hw]
      rcases mem_cons.1 he with rfl | he
      · exact absurd (ho x hx heq) (Nat.not_le.2 (hlt heq))
      · exact h.recent x hx e he heq ho

/-- If each address there was began a window in the last minute, so did every entry. -/
theorem accept_rates_recent {tr : List (Broker × ℕ × Addr)}
    (h : Trace acceptStep (·.acceptRates = []) tr b) (hr : ∀ c ∈ tr, ∃ e ∈ tr,
      tmAddrEqIp c.2.2 e.2.2 = true ∧ OpensWindow e ∧ b.now ≤ e.2.1 + 60000) :
    ∀ r ∈ b.acceptRates, b.now - r.winStart ≤ 60000 := by
  have hi : Rates tr b := by
    refine h.inv_hist (I := Rates) (fun b hb => ?_) fun tr b c b' _ hi hs => hi.step hs
    exact ⟨hb ▸ ⟨.nil, .nil⟩, by simp, by simp [hb], by simp [hb]⟩
  intro r hm
  obtain ⟨c, hc, hip⟩ := hi.made r hm
  obtain ⟨e, he, heq, ho, hle⟩ := hr c hc
  have := hi.recent r hm e he (hip ▸ heq) ho
  omega

theorem accept_rates_recent_again : ∃ tr b, Trace acceptStep (·.acceptRates = []) tr b ∧
    b.now = 120000 ∧ b.acceptRates.length = 2 ∧
    ∀ r ∈ b.acceptRates, b.now - r.winStart ≤ 60000 := by
  let a : Addr := { family := .inet, ip := [10, 0, 0, 1], port := 1 }
  obtain ⟨tr, b, h, hr, hn, hl⟩ := exists_trace acceptStep (·.acceptRates = [])
    (s := { cfg := {}, ports := { tcp := [], udp := [] } }) rfl
    [(0, a), (60000, a), (120000, { a with ip := [10, 0, 0, 2] })]
    (fun r => (∀ c ∈ r.1, ∃ e ∈ r.1,
        tmAddrEqIp c.2.2 e.2.2 = true ∧ OpensWindow e ∧ r.2.now ≤ e.2.1 + 60000) ∧
      r.2.now = 120000 ∧ r.2.acceptRates.length = 2) (by decide)
  exact ⟨tr, b, h, hn, hl, accept_rates_recent h hr⟩

/-- An address calls once. More than a minute later another one is admitted, and the entry is still
there. -/
theorem accept_rate_stays : ∃ tr b, Trace acceptStep (·.acceptRates = []) tr b ∧
    ∃ ip, (rateAllow ip { b with now := 70000 }).1 = true ∧
      ∃ r ∈ (rateAllow ip { b with now := 70000 }).2.acceptRates, 70000 - r.winStart > 60000 := by
  let a : Addr := { family := .inet, ip := [10, 0, 0, 1], port := 1 }
  obtain ⟨tr, b, h, hok, hr⟩ := exists_trace acceptStep (·.acceptRates = [])
    (s := { cfg := {}, ports := { tcp := [], udp := [] } }) rfl [(0, a)]
    (fun r => (rateAllow { a with ip := [10, 0, 0, 2] } { r.2 with now := 70000 }).1 = true ∧
      ∃ x ∈ (rateAllow { a with ip := [10, 0, 0, 2] } { r.2 with now := 70000 }).2.acceptRates,
        70000 - x.winStart > 60000) (by decide)
  exact ⟨tr, b, h, _, hok, hr⟩

end TunnelMate
