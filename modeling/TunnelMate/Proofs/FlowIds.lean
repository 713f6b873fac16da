import Mathlib.Combinatorics.Pigeonhole
import TunnelMate.Proofs.UdpClients

/-!
# The ids of new flows in the peer
-/

namespace TunnelMate.PeerUdp

open List

variable {flows : List Flow} {n : ℕ}

/-- The loop of `flow_id_new` ends with `r`, the id and the counter behind it. -/
inductive FlowIdNew (flows : List Flow) : ℕ → ℕ × ℕ → Prop
  | done {n : ℕ} : (∀ f ∈ flows, f.flowId ≠ (nextId n).1) → FlowIdNew flows n (nextId n)
  | again {n : ℕ} {r : ℕ × ℕ} : (∃ f ∈ flows, f.flowId = (nextId n).1) →
      FlowIdNew flows (nextId n).2 r → FlowIdNew flows n r

lemma FlowIdNew.fresh {r : ℕ × ℕ} (h : FlowIdNew flows n r) : ∀ f ∈ flows, f.flowId ≠ r.1 := by
  induction h with
  | done h => exact h
  | again _ _ ih => exact ih

/-- The id of the turn `j` of the loop; the ids go round without 0. -/
def idAt (n j : ℕ) : ℕ := ((nextId n).1 - 1 + j) % (2 ^ 64 - 1) + 1

lemma idAt_zero (h : n < 2 ^ 64) : idAt n 0 = (nextId n).1 := by
  obtain ⟨h0, hlt, -⟩ := nextId_lt h
  unfold idAt
  omega

lemma idAt_next (h : n < 2 ^ 64) (j : ℕ) : idAt (nextId n).2 j = idAt n (j + 1) := by
  have hn : (nextId (nextId n).2).1 =
      if (nextId n).1 + 1 = 2 ^ 64 then 1 else (nextId n).1 + 1 := by
    unfold nextId
    dsimp only
    split_ifs <;> omega
  obtain ⟨h0, hlt, -⟩ := nextId_lt h
  unfold idAt
  rw [hn]
  split_ifs <;> omega

/-- A loop that meets only ids in use would meet one of them twice, but the ids of `2 ^ 64 - 1`
turns are distinct. -/
lemma exists_unused (h : ((flows.map (·.flowId)).toFinset.erase 0).card < 2 ^ 64 - 1) :
    ∃ j ≤ flows.length, ∀ f ∈ flows, f.flowId ≠ idAt n j := by
  by_contra hno
  push Not at hno
  have hle : ((flows.map (·.flowId)).toFinset.erase 0).card ≤ flows.length := by
    refine (Finset.card_erase_le).trans ((toFinset_card_le _).trans ?_)
    rw [length_map]
  obtain ⟨i, hi, j, hj, hne, he⟩ := Finset.exists_ne_map_eq_of_card_lt_of_maps_to
    (s := .range (((flows.map (·.flowId)).toFinset.erase 0).card + 1))
    (t := (flows.map (·.flowId)).toFinset.erase 0) (f := idAt n) (by simp) fun k hk => by
      obtain ⟨f, hf, hid⟩ := hno k (by have := Finset.mem_range.1 hk; omega)
      have h0 : idAt n k ≠ 0 := Nat.succ_ne_zero _
      simpa [h0] using ⟨f, hf, hid⟩
  rw [Finset.mem_range] at hi hj
  unfold idAt at he
  omega

lemma flowIdNew_ends {j k : ℕ} (hjk : j ≤ k) (hn : n < 2 ^ 64)
    (hj : ∀ f ∈ flows, f.flowId ≠ idAt n j) : FlowIdNew flows n (flowIdNew flows k n) := by
  induction k generalizing n j with
  | zero =>
    obtain rfl : j = 0 := by omega
    rw [idAt_zero hn] at hj
    exact .done hj
  | succ k ih =>
    unfold flowIdNew
    dsimp only
    split_ifs with hu
    · have hu : ∃ f ∈ flows, f.flowId = (nextId n).1 := by simpa using hu
      rcases j with _ | j
      · obtain ⟨f, hf, he⟩ := hu
        rw [idAt_zero hn] at hj
        exact absurd he (hj f hf)
      · rw [← idAt_next hn] at hj
        exact .again hu (ih (by omega) (nextId_lt hn).2.2 hj)
    · exact .done (by simpa using hu)

/-- The loop of `flow_id_new` ends, within as many turns as there are flows, with an id that is not
0 and not in use. -/
theorem flow_id_new_fresh (flows : List Flow) (n : ℕ)
    (h : ((flows.map (·.flowId)).toFinset.erase 0).card < 2 ^ 64 - 1) (hn : n < 2 ^ 64) :
    ∃ r, FlowIdNew flows n r ∧ r = flowIdNew flows flows.length n ∧
      r.1 ≠ 0 ∧ ∀ f ∈ flows, f.flowId ≠ r.1 := by
  obtain ⟨j, hle, hj⟩ := exists_unused (n := n) h
  have he := flowIdNew_ends hle hn hj
  exact ⟨_, he, rfl, (flowIdNew_lt flows _ hn).1, he.fresh⟩

/-- The counter is at the last id, which is in use, and wraps. -/
theorem flow_id_new_fresh_wraps : let flows : List Flow := [⟨2 ^ 64 - 1, {}, 0⟩]
    ∃ r, FlowIdNew flows (2 ^ 64 - 1) r ∧ r.1 ≠ 0 ∧ ∀ f ∈ flows, f.flowId ≠ r.1 := by
  obtain ⟨r, h, -, hr⟩ := flow_id_new_fresh [⟨2 ^ 64 - 1, {}, 0⟩] (2 ^ 64 - 1) (by decide)
    (by decide)
  exact ⟨r, h, hr⟩

end TunnelMate.PeerUdp
