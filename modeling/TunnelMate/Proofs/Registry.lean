import Mathlib.Data.List.Pairwise
import TunnelMate.Proofs.Steps

/-!
# The registry

The tunnels of the registry have distinct ids, are counted, hold distinct ports of their protocol,
and the port tables mark just those ports.
-/

namespace TunnelMate

open List Table Bool Broker Nat Tunnel

variable {digest : Bytes → Digest} {b₀ b b' : Broker} {e : BrokerEvent} {cfg : BrokerCfg}
  {proto q : Proto} {p p' : Ports} {i j n port : ℕ}

/-! ## Ports -/

def portCount (cfg : BrokerCfg) : ℕ := cfg.publicPortEnd - cfg.publicPortStart + 1

variable {used cursor : ℕ}

namespace Ports

def Marked (cfg : BrokerCfg) (p : Ports) (proto : Proto) (port : ℕ) : Prop :=
  ∃ i < portCount cfg, port = cfg.publicPortStart + i ∧ (p.table proto).getD i false = true

def Sized (cfg : BrokerCfg) (p : Ports) : Prop := ∀ proto, (p.table proto).length = portCount cfg

lemma table_set (v : Bool) :
    (p.set proto i v).table q = if q = proto then (p.table q).set i v else p.table q := by
  cases proto <;> cases q <;> rfl

lemma Sized.set {v : Bool} (h : p.Sized cfg) :
    Sized cfg { p.set proto i v with used := used, cursor := cursor } := by
  intro q
  change ((p.set proto i v).table q).length = _
  rw [table_set]
  split_ifs
  · rw [length_set, h q]
  · exact h q

lemma getD_set {v : Bool} (h : p.Sized cfg) (hi : i < portCount cfg) :
    (({ p.set proto i v with used := used, cursor := cursor } : Ports).table q).getD j false =
      if q = proto ∧ j = i then v else (p.table q).getD j false := by
  change ((p.set proto i v).table q).getD j false = _
  rw [← h q] at hi
  rw [table_set]
  by_cases hq : q = proto
  · by_cases hj : j = i
    · simp [hq, hj] at hi ⊢
      simp [hi]
    · simp [hq, hj, getElem?_set_ne (Ne.symm hj)]
  · simp [hq]

end Ports

lemma exists_mod_eq (c : ℕ) {j n : ℕ} (hj : j < n) : ∃ i < n, (c + i) % n = j := by
  have hc := mod_lt c (zero_lt_of_lt hj)
  refine ⟨(j + (n - c % n)) % n, mod_lt _ (zero_lt_of_lt hj), ?_⟩
  have h : c + (j + (n - c % n)) = j + n * (c / n + 1) := by
    have := div_add_mod c n
    rw [mul_add]
    omega
  rw [add_mod_mod, h, add_mul_mod_self_left, mod_eq_of_lt hj]

lemma tmPortAlloc_cases (cfg : BrokerCfg) (proto : Proto) (n : ℕ) (p : Ports) :
    (tmPortAlloc cfg proto n p = (0, p) ∧ (portCount cfg * 2 ≤ p.used ∨
      ∀ i < portCount cfg, (p.table proto).getD i false = true)) ∨
    ∃ i cursor, i < portCount cfg ∧ (p.table proto).getD i false = false ∧
      tmPortAlloc cfg proto n p = (cfg.publicPortStart + i,
        { p.set proto i true with used := (p.used + 1) % 2 ^ 16, cursor := cursor }) := by
  unfold tmPortAlloc
  dsimp only
  split
  · exact .inl ⟨rfl, .inl ‹_›⟩
  split
  · rename_i hp
    simp only [tmPortInRange, and_eq_true, decide_eq_true_eq, not_eq_eq_eq_not, Bool.not_true] at hp
    have hi : n - cfg.publicPortStart < portCount cfg := by
      rw [portCount]
      omega
    refine .inr ⟨_, (p.set proto (n - cfg.publicPortStart) true).cursor, hi, hp.2, ?_⟩
    rw [Nat.add_sub_cancel' hp.1.2.1]
  split
  · rename_i hf
    refine .inl ⟨rfl, .inr fun j hj => ?_⟩
    obtain ⟨i, hi, rfl⟩ := exists_mod_eq p.cursor hj
    simpa [portCount] using find?_eq_none.1 hf _ (mem_map_of_mem (mem_range.2 hi))
  · rename_i i hi
    have hf := find?_some hi
    obtain ⟨k, -, rfl⟩ := mem_map.1 (mem_of_find?_eq_some hi)
    refine .inr ⟨_, _, mod_lt _ (succ_pos _), ?_, rfl⟩
    rwa [not_eq_eq_eq_not, Bool.not_true] at hf

lemma tmPortAlloc_prefer (hn : n ≠ 0) (hr : tmPortInRange cfg n = true)
    (hf : ¬ p.Marked cfg proto n) (h0 : (tmPortAlloc cfg proto n p).1 ≠ 0) :
    (tmPortAlloc cfg proto n p).1 = n := by
  have hr' := hr
  simp only [tmPortInRange, and_eq_true, decide_eq_true_eq] at hr'
  have hfree : (p.table proto).getD (n - cfg.publicPortStart) false = false := by
    by_contra hm
    refine hf ⟨n - cfg.publicPortStart, ?_, by omega, by simpa using hm⟩
    rw [portCount]
    omega
  unfold tmPortAlloc at h0 ⊢
  dsimp only at h0 ⊢
  split_ifs at h0 ⊢ with h1 h2
  · exact absurd rfl h0
  · rfl
  · rw [hr, hfree] at h2
    simp [hn] at h2

lemma Ports.Marked.alloc (hz : p.Sized cfg) (hi : i < portCount cfg) :
    Marked cfg { p.set proto i true with used := used, cursor := cursor } q port ↔
      (q = proto ∧ port = cfg.publicPortStart + i) ∨ p.Marked cfg q port := by
  constructor
  · rintro ⟨j, hj, rfl, hm⟩
    rw [getD_set hz hi] at hm
    split_ifs at hm with he
    · exact .inl ⟨he.1, by rw [he.2]⟩
    · exact .inr ⟨j, hj, rfl, hm⟩
  · rintro (⟨rfl, rfl⟩ | ⟨j, hj, rfl, hm⟩)
    · exact ⟨i, hi, rfl, by rw [getD_set hz hi, if_pos ⟨rfl, rfl⟩]⟩
    · refine ⟨j, hj, rfl, ?_⟩
      rw [getD_set hz hi]
      split_ifs
      · rfl
      · exact hm

lemma Ports.Sized.free (hz : p.Sized cfg) : (tmPortFree cfg proto n p).Sized cfg := by
  unfold tmPortFree
  split
  · exact hz
  · exact hz.set

lemma Ports.Marked.free (hr : cfg.publicPortStart ≤ cfg.publicPortEnd) (hz : p.Sized cfg) :
    Marked cfg (tmPortFree cfg proto n p) q port ↔
      p.Marked cfg q port ∧ ¬ (q = proto ∧ port = n) := by
  unfold tmPortFree
  split
  · rename_i ho
    refine ⟨fun h => ⟨h, ?_⟩, And.left⟩
    rintro ⟨-, rfl⟩
    obtain ⟨i, hi, rfl, -⟩ := h
    simp only [tmPortInRange, portCount, not_eq_eq_eq_not, Bool.not_true,
      and_eq_false_iff, decide_eq_false_iff_not] at ho hi
    omega
  · rename_i ho
    simp only [tmPortInRange, not_eq_eq_eq_not, Bool.not_true, not_eq_false,
      and_eq_true, decide_eq_true_eq] at ho
    have hi : n - cfg.publicPortStart < portCount cfg := by
      rw [portCount]
      omega
    constructor
    · rintro ⟨j, hj, rfl, hm⟩
      rw [getD_set hz hi] at hm
      split_ifs at hm with he
      refine ⟨⟨j, hj, rfl, hm⟩, fun h => he ⟨h.1, ?_⟩⟩
      omega
    · rintro ⟨⟨j, hj, rfl, hm⟩, hn⟩
      refine ⟨j, hj, rfl, ?_⟩
      rw [getD_set hz hi, if_neg]
      · exact hm
      · exact fun h => hn ⟨h.1, by omega⟩

/-! ## Runs of the allocator -/

inductive PortOp
  | alloc (proto : Proto) (prefer : ℕ)
  | free (proto : Proto) (port : ℕ)

def portStep (cfg : BrokerCfg) (p : Ports) : PortOp → Option Ports
  | .alloc proto prefer => some (tmPortAlloc cfg proto prefer p).2
  | .free proto port => some (tmPortFree cfg proto port p)

def PortInit (cfg : BrokerCfg) (p : Ports) : Prop :=
  (∀ proto, p.table proto = .replicate (portCount cfg) false) ∧ p.used = 0

structure Ports.Counted (cfg : BrokerCfg) (p : Ports) : Prop where
  sized : p.Sized cfg
  used : p.used = ((p.table .tcp).count true + (p.table .udp).count true) % 2 ^ 16

namespace Ports.Counted

lemma count_set (xs : List Bool) (hi : i < xs.length) (v : Bool) :
    (xs.set i v).count true + (xs.getD i false).toNat = xs.count true + v.toNat := by
  have hg : xs.getD i false = xs[i] := by simp [hi]
  have hp : xs[i] = true → 0 < xs.count true := fun h => count_pos_iff.2 (h ▸ getElem_mem hi)
  rw [List.count_set hi, hg]
  cases hx : xs[i] with
  | false => cases v <;> simp
  | true =>
    have := hp hx
    cases v <;> simp <;> omega

lemma count_table (proto : Proto) (h : p.Sized cfg) (hi : i < portCount cfg) (v : Bool) :
    ((p.set proto i v).table .tcp).count true + ((p.set proto i v).table .udp).count true +
        ((p.table proto).getD i false).toNat =
      (p.table .tcp).count true + (p.table .udp).count true + v.toNat := by
  have hc := count_set (p.table proto) (i := i) (by rwa [h proto]) v
  simp only [table_set]
  cases proto <;> simp <;> simp only [getD_eq_getElem?_getD] at hc <;> omega

lemma alloc (h : p.Counted cfg) : (tmPortAlloc cfg proto n p).2.Counted cfg := by
  obtain ⟨he, -⟩ | ⟨i, cursor, hi, hfree, he⟩ := tmPortAlloc_cases cfg proto n p <;> rw [he]
  · exact h
  refine ⟨h.sized.set, ?_⟩
  have hc := count_table proto h.sized hi true
  rw [hfree] at hc
  rw [h.used, mod_add_mod]
  exact congrArg (· % 2 ^ 16) hc.symm

lemma free (h : p.Counted cfg) : (tmPortFree cfg proto n p).Counted cfg := by
  refine ⟨h.sized.free, ?_⟩
  unfold tmPortFree
  split
  · exact h.used
  rename_i ho
  simp only [tmPortInRange, not_eq_eq_eq_not, Bool.not_true, not_eq_false,
    and_eq_true, decide_eq_true_eq] at ho
  have hc := count_table proto h.sized (i := n - cfg.publicPortStart)
    (by rw [portCount]; omega) false
  have hu := h.used
  change (if (p.table proto).getD (n - cfg.publicPortStart) false = true
      then (p.used + 2 ^ 16 - 1) % 2 ^ 16 else p.used) =
    (((p.set proto (n - cfg.publicPortStart) false).table .tcp).count true +
      ((p.set proto (n - cfg.publicPortStart) false).table .udp).count true) % 2 ^ 16
  split_ifs with hm
  · rw [hm] at hc
    simp only [toNat_true, toNat_false] at hc
    omega
  · simp only [not_eq_true] at hm
    rw [hm] at hc
    omega

lemma used_lt (h : p.Counted cfg) (hi : i < portCount cfg)
    (hf : (p.table proto).getD i false = false) : p.used < portCount cfg * 2 := by
  have hle (q : Proto) : (p.table q).count true ≤ portCount cfg := h.sized q ▸ count_le_length
  have hlt : (p.table proto).count true < portCount cfg := by
    have hc := count_set (p.table proto) (i := i) (by rwa [h.sized proto]) true
    have hl := count_le_length (a := true) (l := (p.table proto).set i true)
    rw [hf] at hc
    rw [length_set, h.sized proto] at hl
    simp only [toNat_true, toNat_false] at hc
    omega
  have ht := hle .tcp
  have hu := hle .udp
  rw [h.used]
  cases proto <;> omega

lemma of_trace {tr : List (Ports × PortOp)} (h : Trace (portStep cfg) (PortInit cfg) tr p) :
    p.Counted cfg := by
  refine h.inv (fun p hi => ⟨fun q => ?_, ?_⟩) fun p op p' hi hs => ?_
  · rw [hi.1 q, length_replicate]
  · simp [hi.1, hi.2, count_replicate]
  · cases op <;> cases hs
    · exact hi.alloc
    · exact hi.free

end Ports.Counted

/-- An allocation fails exactly if all ports of the protocol are in use. Otherwise it marks one port
that was free, and the preferred one if that is free. -/
theorem port_alloc {tr : List (Ports × PortOp)} (h1 : 1 ≤ cfg.publicPortStart)
    (hr : cfg.publicPortStart ≤ cfg.publicPortEnd)
    (h : Trace (portStep cfg) (PortInit cfg) tr p) (proto : Proto) (prefer : ℕ) :
    let r := tmPortAlloc cfg proto prefer p
    (r.1 = 0 ↔ ∀ port, tmPortInRange cfg port = true → p.Marked cfg proto port) ∧
    (r.1 ≠ 0 → tmPortInRange cfg r.1 = true ∧ ¬ p.Marked cfg proto r.1) ∧
    (∀ q port, r.2.Marked cfg q port ↔ (r.1 ≠ 0 ∧ q = proto ∧ port = r.1) ∨ p.Marked cfg q port) ∧
    (tmPortInRange cfg prefer = true → ¬ p.Marked cfg proto prefer → r.1 = prefer) := by
  have hc := Ports.Counted.of_trace h
  have hin (i : ℕ) (hi : i < portCount cfg) :
      tmPortInRange cfg (cfg.publicPortStart + i) = true := by
    simp only [tmPortInRange, portCount, and_eq_true, decide_eq_true_eq] at hi ⊢
    omega
  have hfail : (tmPortAlloc cfg proto prefer p).1 = 0 →
      ∀ i < portCount cfg, (p.table proto).getD i false = true := by
    intro h0 i hi
    obtain ⟨-, hu | ha⟩ | ⟨j, cursor, -, -, he⟩ := tmPortAlloc_cases cfg proto prefer p
    · by_contra hf
      have := hc.used_lt hi (by simpa using hf)
      omega
    · exact ha i hi
    · rw [he] at h0
      omega
  refine ⟨⟨fun h0 port hp => ?_, fun ha => ?_⟩, ?_, ?_, fun hp hm => ?_⟩
  · simp only [tmPortInRange, and_eq_true, decide_eq_true_eq] at hp
    have hi : port - cfg.publicPortStart < portCount cfg := by
      rw [portCount]
      omega
    exact ⟨_, hi, by omega, hfail h0 _ hi⟩
  · obtain ⟨he, -⟩ | ⟨i, cursor, hi, hf, -⟩ := tmPortAlloc_cases cfg proto prefer p
    · rw [he]
    · obtain ⟨j, -, hj, hm⟩ := ha _ (hin i hi)
      obtain rfl : j = i := by omega
      rw [hf] at hm
      cases hm
  · obtain ⟨he, -⟩ | ⟨i, cursor, hi, hf, he⟩ := tmPortAlloc_cases cfg proto prefer p
    · rw [he]
      exact fun h => absurd rfl h
    · rw [he]
      refine fun _ => ⟨hin i hi, ?_⟩
      rintro ⟨j, -, hj, hm⟩
      obtain rfl : j = i := by omega
      rw [hf] at hm
      cases hm
  · intro q port
    obtain ⟨he, -⟩ | ⟨i, cursor, hi, -, he⟩ := tmPortAlloc_cases cfg proto prefer p <;> rw [he]
    · simp
    · rw [Ports.Marked.alloc hc.sized hi]
      have : cfg.publicPortStart + i ≠ 0 := by omega
      exact or_congr_left ⟨fun h => ⟨this, h⟩, .right⟩
  · refine tmPortAlloc_prefer (by rintro rfl; simp [tmPortInRange] at hp; omega) hp hm fun h0 => ?_
    simp only [tmPortInRange, and_eq_true, decide_eq_true_eq] at hp
    have hi : prefer - cfg.publicPortStart < portCount cfg := by
      rw [portCount]
      omega
    exact hm ⟨_, hi, by omega, hfail h0 _ hi⟩

theorem port_alloc_freed : ∃ tr p, ∃ cfg : BrokerCfg, Trace (portStep cfg) (PortInit cfg) tr p ∧
    p.tcp = [true, false] ∧ (tmPortAlloc cfg .tcp 2 p).1 = 2 := by
  let cfg : BrokerCfg := { publicPortStart := 1, publicPortEnd := 2 }
  obtain ⟨tr, p, h, hp⟩ := exists_trace (portStep cfg) (PortInit cfg)
    (s := { tcp := [false, false], udp := [false, false] }) ⟨by rintro (_ | _) <;> rfl, rfl⟩
    [.alloc .tcp 2, .alloc .udp 2, .alloc .tcp 0, .free .tcp 2] (fun r => r.2.tcp = [true, false])
    (by decide)
  have hp : p.tcp = [true, false] := hp
  refine ⟨tr, p, cfg, h, hp, (port_alloc (by decide) (by decide) h .tcp 2).2.2.2 (by decide) ?_⟩
  rintro ⟨i, -, he, hm⟩
  obtain rfl : i = 1 := (add_left_cancel (he : 1 + 1 = 1 + i)).symm
  simp [Ports.table, hp] at hm

/-! ## Entries -/

structure Entry where
  ref : Ref
  id : Bytes
  proto : Proto
  closed : Bool
  port : ℕ

def Tunnel.entry (t : Tunnel) : Entry := ⟨t.ref, t.id, t.proto, t.closed, t.publicPort⟩

def Tunnel.held (t : Tunnel) : Option Entry := if t.registered then some t.entry else none

def Broker.registry (b : Broker) : List Tunnel := b.tunnels.filter (·.registered)

def Broker.entries (b : Broker) : List Entry := b.tunnels.filterMap held

lemma Broker.entries_eq (b : Broker) : b.entries = b.registry.map entry := by
  rw [entries, registry, ← filterMap_eq_map, filterMap_filter]
  rfl

lemma Tunnel.Same.held {t t' : Tunnel} (h : t.Same t') : t'.held = t.held := by
  unfold Tunnel.held entry
  rw [h.registered, h.ref, h.id, h.proto, h.closed, h.port]

structure RegistryInv (cfg : BrokerCfg) (p : Ports) (k : ℤ) (es : List Entry) : Prop where
  range : cfg.publicPortStart ≤ cfg.publicPortEnd
  sized : p.Sized cfg
  ids : (es.map Entry.id).Nodup
  count : k = es.length
  limit : k ≤ max 0 cfg.maxTunnels
  ports : es.Pairwise fun x y => x.proto = y.proto → x.port = y.port → x.port = 0
  zero : ∀ x ∈ es, x.port = 0 ↔ x.closed = true ∧ x.proto = .tcp
  marked : ∀ proto port, p.Marked cfg proto port ↔
    port ≠ 0 ∧ ∃ x ∈ es, x.proto = proto ∧ x.port = port

namespace RegistryInv

variable {k : ℤ} {es : List Entry} {x : Entry}

section

variable (h : RegistryInv cfg p k es)
include h

lemma add (hid : ∀ y ∈ es, y.id ≠ x.id) (hk : k < cfg.maxTunnels)
    (hp : if x.closed = true ∧ x.proto = .tcp then x.port = 0 ∧ p' = p
      else x.port ≠ 0 ∧ ∃ n, tmPortAlloc cfg x.proto n p = (x.port, p')) :
    RegistryInv cfg p' (k + 1) (x :: es) := by
  have hids : ((x :: es).map Entry.id).Nodup := by
    rw [map_cons, nodup_cons]
    refine ⟨fun hm => ?_, h.ids⟩
    obtain ⟨y, hy, he⟩ := mem_map.1 hm
    exact hid y hy he
  have hcount : k + 1 = ((x :: es).length : ℤ) := by
    rw [h.count, length_cons]
    push_cast
    rfl
  have hlimit : k + 1 ≤ max 0 cfg.maxTunnels := by omega
  split_ifs at hp with hcl
  · obtain ⟨h0, rfl⟩ := hp
    refine ⟨h.range, h.sized, hids, hcount, hlimit, ?_, ?_, fun proto port => ?_⟩
    · exact pairwise_cons.2 ⟨fun _ _ _ _ => h0, h.ports⟩
    · exact forall_mem_cons.2 ⟨⟨fun _ => hcl, fun _ => h0⟩, h.zero⟩
    · rw [h.marked, exists_mem_cons_iff]
      refine and_congr_right fun hne => ⟨.inr, ?_⟩
      rintro (⟨-, he⟩ | he)
      · exact absurd (he.symm.trans h0) hne
      · exact he
  · obtain ⟨h0, n, ha⟩ := hp
    obtain ⟨hz, -⟩ | ⟨i, cursor, hi, hfree, hal⟩ := tmPortAlloc_cases cfg x.proto n p
    · exact absurd (Prod.mk.inj (ha.symm.trans hz)).1 h0
    obtain ⟨hport, rfl⟩ := Prod.mk.inj (ha.symm.trans hal)
    have hold : ¬ p.Marked cfg x.proto x.port := by
      rintro ⟨j, -, he, hm⟩
      obtain rfl : j = i := by omega
      rw [hfree] at hm
      cases hm
    refine ⟨h.range, h.sized.set, hids, hcount, hlimit, ?_, ?_, fun proto port => ?_⟩
    · refine pairwise_cons.2 ⟨fun y hy hpr hpo => ?_, h.ports⟩
      exact absurd ((h.marked _ _).2 ⟨h0, y, hy, hpr.symm, hpo.symm⟩) hold
    · exact forall_mem_cons.2 ⟨⟨fun h => absurd h h0, fun h => absurd h hcl⟩, h.zero⟩
    · rw [Ports.Marked.alloc h.sized hi, h.marked, exists_mem_cons_iff, ← hport]
      constructor
      · rintro (⟨rfl, rfl⟩ | ⟨hne, he⟩)
        · exact ⟨h0, .inl ⟨rfl, rfl⟩⟩
        · exact ⟨hne, .inr he⟩
      · rintro ⟨hne, ⟨rfl, rfl⟩ | he⟩
        · exact .inl ⟨rfl, rfl⟩
        · exact .inr ⟨hne, he⟩

lemma port_eq {y : Entry} (hy : y ∈ es) (hx : x ∈ es) (hne : y ≠ x)
    (hpr : y.proto = x.proto) (hpo : y.port = x.port) : y.port = 0 := by
  have hsymm : Std.Symm fun x y : Entry => x.proto = y.proto → x.port = y.port → x.port = 0 :=
    ⟨fun _ _ h hpr hpo => hpo.trans (h hpr.symm hpo.symm)⟩
  exact h.ports.forall hy hx hne hpr hpo

lemma remove (hn : (es.map Entry.ref).Nodup) (hx : x ∈ es) :
    RegistryInv cfg (tmPortFree cfg x.proto x.port p) (k - 1) (es.filter (·.ref ≠ x.ref)) := by
  have hmem : ∀ y, y ∈ es.filter (·.ref ≠ x.ref) ↔ y ∈ es ∧ y ≠ x := fun y => by
    rw [mem_filter, decide_eq_true_eq]
    refine and_congr_right fun hy => not_congr ⟨fun he => ?_, fun he => he ▸ rfl⟩
    exact inj_on_of_nodup_map hn hy hx he
  have hsub : (es.filter (·.ref ≠ x.ref)).Sublist es := filter_sublist
  have hlen : (es.filter (·.ref ≠ x.ref)).length + 1 = es.length := by
    have h1 := count_eq_one_of_mem hn (mem_map_of_mem hx)
    have h2 := length_eq_countP_add_countP (fun y : Entry => decide (y.ref ≠ x.ref)) (l := es)
    rw [List.count, countP_map] at h1
    rw [h2, countP_eq_length_filter, ← h1]
    congr 1
    refine countP_congr fun y _ => ?_
    simp
  refine ⟨h.range, h.sized.free,
    h.ids.sublist (hsub.map _), ?_, ?_, h.ports.sublist hsub, fun y hy => ?_, fun proto port => ?_⟩
  · have := h.count
    omega
  · have := h.limit
    omega
  · exact h.zero y ((hmem y).1 hy).1
  · rw [Ports.Marked.free h.range h.sized, h.marked]
    constructor
    · rintro ⟨⟨hne, y, hy, rfl, rfl⟩, hno⟩
      exact ⟨hne, y, (hmem y).2 ⟨hy, fun he => hno ⟨by rw [he], by rw [he]⟩⟩, rfl, rfl⟩
    · rintro ⟨hne, y, hy, rfl, rfl⟩
      obtain ⟨hy, hyx⟩ := (hmem y).1 hy
      exact ⟨⟨hne, y, hy, rfl, rfl⟩, fun he => hne (h.port_eq hy hx hyx he.1 he.2)⟩

end

end RegistryInv

/-! ## Moves -/

def Broker.RegistryInv (b : Broker) : Prop :=
  TunnelMate.RegistryInv b.cfg b.ports b.tunnelCount b.entries

lemma entries_updTun {T : Ref} {f : Tunnel → Tunnel}
    (hf : ∀ t ∈ b.tunnels, t.ref = T → (f t).held = t.held) : (b.updTun T f).entries = b.entries :=
  filterMap_upd hf

lemma mem_entries {x : Entry} :
    x ∈ b.entries ↔ ∃ t ∈ b.tunnels, t.registered = true ∧ t.entry = x := by
  simp [entries, held]

lemma Wf.entry_refs (hw : Wf b) : (b.entries.map Entry.ref).Nodup := by
  have hs : (b.entries.map Entry.ref).Sublist (b.tunnels.map ref) := by
    rw [entries_eq, map_map]
    exact filter_sublist.map _
  exact hw.tunnels.nodup.sublist hs

lemma tmTunnelFind_none {id : Bytes} :
    tmTunnelFind id b = none ↔ ∀ t ∈ b.tunnels, t.registered = true → t.id ≠ id := by
  simp [tmTunnelFind]

lemma tmPortAlloc_zero (h1 : 1 ≤ cfg.publicPortStart) (h0 : (tmPortAlloc cfg proto n p).1 = 0) :
    (tmPortAlloc cfg proto n p).2 = p := by
  obtain ⟨h, -⟩ | ⟨i, cursor, -, -, h⟩ := tmPortAlloc_cases cfg proto n p
  · rw [h]
  · rw [h] at h0
    omega

section

variable (hm : Move digest b₀ e b b')
include hm

lemma Move.cfg_eq : b'.cfg = b.cfg := by
  cases hm with
  | misc hc => exact (core_eq.1 hc).1
  | _ => rfl

omit hm in
/-- What a move can do to the registry: nothing but an allocation that fails, a creation, or the end
of a tunnel, which only a deletion counts. -/
inductive Move.OnRegistry (e : BrokerEvent) (b b' : Broker) : Prop
  | same : b'.tunnelCount = b.tunnelCount → b'.entries = b.entries → b'.ports = b.ports →
      OnRegistry e b b'
  | noPort {proto : Proto} {n : ℕ} : b'.tunnelCount = b.tunnelCount → b'.entries = b.entries →
      (tmPortAlloc b.cfg proto n b.ports).1 = 0 →
      b'.ports = (tmPortAlloc b.cfg proto n b.ports).2 → OnRegistry e b b'
  | add {t : Tunnel} : Creates b t b'.ports → b'.tunnelCount = b.tunnelCount + 1 →
      b'.entries = t.entry :: b.entries → OnRegistry e b b'
  | remove {t : Tunnel} : t ∈ b.tunnels → b'.entries = b.entries.filter (·.ref ≠ t.entry.ref) →
      b'.ports = tmPortFree b.cfg t.proto t.publicPort b.ports →
      (t.registered = true ∧ b'.tunnelCount = b.tunnelCount - 1 ∨
        e = .cleanup ∧ b'.tunnelCount = b.tunnelCount) → OnRegistry e b b'

lemma Move.onRegistry (hw : Wf b) : Move.OnRegistry e b b' := by
  cases hm with
  | misc hc =>
    obtain ⟨-, hp, ht, -, -, -, hn, -⟩ := core_eq.1 hc
    exact .same hn (by rw [entries, ht]; rfl) hp
  | tunnel hf => exact .same rfl (entries_updTun fun t ht he => (hf t ht he).toSame.held) rfl
  | dropAgent | addAgent | openStream | peerStream | closeStream =>
    exact .same rfl (entries_updTun fun _ _ _ => rfl) rfl
  | noPort h0 => exact .noPort rfl rfl h0 rfl
  | addTunnel hc =>
    refine .add hc rfl ?_
    rw [entries, filterMap_cons, held, if_pos hc.registered]
    rfl
  | unregister d ht _ _ _ hg =>
    refine .remove ht ?_ rfl ?_
    · refine filterMap_upd_none (fun _ _ _ => rfl) fun x _ y hy => ?_
      unfold held at hy
      split_ifs at hy
      cases hy
      exact decide_eq_true_iff
    · obtain ⟨rfl, hr, -⟩ | ⟨rfl, hcl, -⟩ := hg
      · exact .inl ⟨hr, rfl⟩
      · exact .inr ⟨hcl, rfl⟩
  | free ht hd =>
    refine .same rfl (filterMap_del fun x hx he => ?_) rfl
    rw [hw.tunnel_eq ht hx he, held, (hw.ok _ ht).deleting hd]
    rfl
  | _ =>
    exact .same rfl rfl rfl

lemma Move.registryInv (hw : Wf b) (he : e ≠ .cleanup)
    (h1 : 1 ≤ b.cfg.publicPortStart) (h : b.RegistryInv) : b'.RegistryInv := by
  unfold Broker.RegistryInv at h ⊢
  rw [hm.cfg_eq]
  cases hm.onRegistry hw with
  | same hn hes hp =>
    rw [hn, hes, hp]
    exact h
  | noPort hn hes h0 hp =>
    rw [hn, hes, hp, tmPortAlloc_zero h1 h0]
    exact h
  | add hc hn hes =>
    rw [hn, hes]
    refine h.add (fun y hy => ?_) hc.count hc.port
    obtain ⟨u, hu, hur, rfl⟩ := mem_entries.1 hy
    exact tmTunnelFind_none.1 hc.id u hu hur
  | remove ht hes hp hg =>
    obtain ⟨hr, hn⟩ | ⟨hcl, -⟩ := hg
    · rw [hn, hes, hp]
      exact h.remove hw.entry_refs (mem_entries.2 ⟨_, ht, hr, rfl⟩)
    · exact absurd hcl he

end

lemma Broker.RegistryInv.init (h : BrokerInit b) : b.RegistryInv := by
  obtain ⟨cfg, hr, rfl⟩ := h
  refine ⟨hr, fun proto => ?_, .nil, rfl, by simp, .nil, fun x hx => ?_, fun proto port => ⟨?_, ?_⟩⟩
  · cases proto <;> simp [Ports.table, portCount]
  · cases hx
  · rintro ⟨i, -, -, hm⟩
    cases proto <;> simp only [Ports.table, getD_eq_getElem?_getD, getElem?_replicate] at hm
    all_goals split_ifs at hm <;> cases hm
  · rintro ⟨-, x, hx, -⟩
    cases hx

structure RegistryOk (b : Broker) : Prop where
  ids : (b.registry.map Tunnel.id).Nodup
  count : b.tunnelCount = b.registry.length
  limit : b.tunnelCount ≤ max 0 b.cfg.maxTunnels
  ports : b.registry.Pairwise fun t u =>
    t.proto = u.proto → t.publicPort = u.publicPort → t.publicPort = 0
  zero : ∀ t ∈ b.registry, t.publicPort = 0 ↔ t.closed = true ∧ t.proto = .tcp
  marked : ∀ proto port, b.ports.Marked b.cfg proto port ↔
    port ≠ 0 ∧ ∃ t ∈ b.registry, t.proto = proto ∧ t.publicPort = port

lemma Broker.RegistryInv.ok (h : b.RegistryInv) : RegistryOk b := by
  obtain ⟨-, -, h1, h2, h3, h4, h5, h6⟩ := h
  rw [entries_eq] at h1 h2 h4 h5 h6
  rw [map_map] at h1
  rw [length_map] at h2
  rw [pairwise_map] at h4
  refine ⟨h1, h2, h3, h4, fun t ht => h5 _ (mem_map_of_mem ht), fun proto port => ?_⟩
  rw [h6]
  simp only [mem_map, exists_exists_and_eq_and]
  rfl

lemma Broker.RegistryInv.of_trace {tr : List (Broker × BrokerEvent)}
    (h : Trace (brokerStep digest) BrokerInit tr b) (hok : ∀ p ∈ tr, p.2 ≠ .cleanup) :
    1 ≤ b.cfg.publicPortStart → b.RegistryInv := by
  refine inv_of_moves (I := fun b => 1 ≤ b.cfg.publicPortStart → b.RegistryInv)
    (fun _ hi _ => .init hi) (fun _ e b b' (hok : e ≠ .cleanup) hw hm hi h1 => ?_) h hok
  rw [hm.cfg_eq] at h1
  exact hm.registryInv hw hok h1 (hi h1)

/-- In every run before the broker shuts down, the registry is in order, and a creation that fails
leaves the broker as it was. -/
theorem registry_ok {tr : List (Broker × BrokerEvent)}
    (h : Trace (brokerStep digest) BrokerInit tr b) (hok : ∀ p ∈ tr, p.2 ≠ .cleanup)
    (h1 : 1 ≤ b.cfg.publicPortStart) : RegistryOk b ∧ ∀ id proto closed ah th n bound,
      (tmTunnelCreate id proto closed ah th n bound b).1 = none →
      (tmTunnelCreate id proto closed ah th n bound b).2 = b := by
  refine ⟨(Broker.RegistryInv.of_trace h hok h1).ok, fun id proto closed ah th n bound hn => ?_⟩
  obtain h | ⟨h0, h⟩ | ⟨t, ports, -, -, -, -, -, -, -, -, h⟩ :=
    tmTunnelCreate_cases (rfl : tmTunnelCreate id proto closed ah th n bound b = _)
  · rw [h]
  · rw [h, tmPortAlloc_zero h1 h0]
  · rw [h] at hn
    cases hn

theorem registry_ok_three : ∃ tr b, Trace (brokerStep padDigest) BrokerInit tr b ∧
    b.registry.map publicPort = [1, 0] ∧ RegistryOk b := by
  let udp (id : Bytes) : BrokerEvent := .ipc (.createTunnel
    { tunnelId := id, proto := .udp, closed := false, preferPort := 1 } [] [] true)
  obtain ⟨tr, b, h, hok, h1, hp⟩ := smallBroker_trace
    [creates [65] false, creates [66] true, udp [67], .ipc (.disableTunnel [65]),
      .ipc (.deleteTunnel [65])]
    (fun r => (∀ p ∈ r.1, p.2 ≠ .cleanup) ∧ 1 ≤ r.2.cfg.publicPortStart ∧
      r.2.registry.map publicPort = [1, 0]) (by decide)
  exact ⟨tr, b, h, hp, (registry_ok h hok h1).1⟩

/-- With a negative limit even the empty registry is above it. -/
theorem registry_above_limit : ∃ tr b, Trace (brokerStep padDigest) BrokerInit tr b ∧
    1 ≤ b.cfg.publicPortStart ∧ b.registry = [] ∧ b.cfg.maxTunnels < b.tunnelCount := by
  let cfg : BrokerCfg := { publicPortStart := 1, publicPortEnd := 2, maxTunnels := -1 }
  let b : Broker := { cfg := cfg, ports := { tcp := [false, false], udp := [false, false] } }
  have hi : BrokerInit b := ⟨cfg, by decide, rfl⟩
  exact ⟨[], b, .start hi, by decide, rfl, by decide⟩

end TunnelMate
