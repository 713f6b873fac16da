import Mathlib.Algebra.Order.BigOperators.Group.List
import Mathlib.Algebra.Order.Group.Nat
import TunnelMate.Outq
import TunnelMate.Proofs.UdpWire

/-!
# A UDP send queue is a FIFO of whole envelopes

`Outq.Holds` says which envelopes the bytes of a queue stand for.
-/

namespace TunnelMate

open Bool hiding not_or
open List Nat Outq

open Udp (SslAns uint32Max)

variable {side : OutqSide} {q q' : Outq} {live : List Bytes} {data : Bytes}

/-! ## Growing -/

lemma le_growCap (need : ℕ) : ∀ k cap, need ≤ cap * 2 ^ k → need ≤ Tls.growCap need k cap
  | 0, cap, h => by simpa [Tls.growCap] using h
  | k + 1, cap, h => by
    rw [Tls.growCap]
    split
    · exact le_growCap need k _ (by rwa [mul_assoc, ← pow_succ'])
    · omega

lemma growCap_le (need : ℕ) : ∀ k cap, Tls.growCap need k cap ≤ max cap (2 * need)
  | 0, _ => le_max_left _ _
  | k + 1, cap => by
    rw [Tls.growCap]
    split
    · have := growCap_le need k (cap * 2)
      omega
    · exact le_max_left _ _

lemma OutqSide.maxBytes_lt : side.maxBytes < 2 ^ 64 := by
  cases side <;> exact mod_lt _ (by decide)

/-! ## What the bytes stand for -/

def outqRecord (env : Bytes) : Bytes := wrU32 env.length ++ env

lemma length_outqRecord (env : Bytes) : (outqRecord env).length = 4 + env.length := by
  simp [outqRecord, wrU32, wrU16]
  omega

variable {n : ℕ} {l : OutqLabel}

namespace Outq

structure Holds (q : Outq) (live : List Bytes) : Prop where
  bytes : q.mem.drop q.off = live.flatMap outqRecord
  count : live.length = q.packets
  off_le : q.off ≤ q.mem.length
  len_le : q.mem.length ≤ q.cap
  lens : ∀ env ∈ live, env.length ≤ uint32Max
  written : q.written ++ live <+: q.accepted
  all : q.closing = false → q.accepted = q.written ++ live

namespace Holds

variable {env : Bytes}

lemma front (h : q.Holds (env :: live)) : q.front = some env := by
  have hb : q.mem.drop q.off = wrU32 env.length ++ (env ++ live.flatMap outqRecord) := by
    rw [h.bytes, flatMap_cons, outqRecord, append_assoc]
  have h4 : (wrU32 env.length).length = 4 := by simp [wrU32, wrU16]
  have hl := congrArg length hb
  simp only [length_drop, length_append, h4] at hl
  have he := h.lens env mem_cons_self
  have hr : rdU32 (q.mem.drop q.off) = env.length := by
    rw [hb, rdU32_wrU32_mod, mod_eq_of_lt (by simp only [uint32Max] at he; omega)]
  unfold Outq.front
  rw [hr, if_neg (by omega), if_neg (by omega), ← drop_drop, hb,
    drop_append_of_le_length h4.ge, ← h4, drop_length, nil_append,
    take_left]

lemma reset (h : q.Holds live) : q.reset.Holds live := by
  unfold Outq.reset
  split_ifs with he
  · have hb := h.bytes
    rw [he, drop_length] at hb
    exact { h with bytes := hb, off_le := le_rfl, len_le := zero_le _ }
  · exact h

lemma advance (h : q.Holds (env :: live)) : (q.advance env).Holds live := by
  have hb := congrArg (drop (outqRecord env).length) h.bytes
  rw [drop_drop, flatMap_cons, drop_left, length_outqRecord] at hb
  have hl := congrArg length h.bytes
  rw [length_drop, flatMap_cons, length_append, length_outqRecord] at hl
  exact {
    bytes := hb
    count := by rw [Outq.advance, ← h.count, length_cons, Nat.add_sub_cancel]
    off_le := by simp only [Outq.advance]; omega
    len_le := h.len_le
    lens := fun e he => h.lens e (mem_cons_of_mem _ he)
    written := by simpa [Outq.advance] using h.written
    all := by simpa [Outq.advance] using h.all }

lemma compact (h : q.Holds live) : q.compact.Holds live ∧ q.compact.off = 0 := by
  unfold Outq.compact
  split_ifs with ho
  · refine ⟨{ h with off_le := zero_le _, len_le := ?_, bytes := h.bytes }, rfl⟩
    exact (length_drop ▸ sub_le _ _ : (q.mem.drop q.off).length ≤ _).trans h.len_le
  · exact ⟨h, not_not.1 ho⟩

lemma length_live (h : q.Holds live) :
    q.mem.length - q.off = (live.map fun env => 4 + env.length).sum := by
  rw [← length_drop, h.bytes, length_flatMap]
  simp only [length_outqRecord]

end Holds

lemma compact_same : q.compact.cap = q.cap ∧ q.compact.packets = q.packets ∧
    q.compact.accepted = q.accepted ∧ q.compact.closing = q.closing := by
  unfold compact
  split_ifs <;> exact ⟨rfl, rfl, rfl, rfl⟩

lemma reserve_spec (h : q.Holds live) (hn : q.mem.length - q.off + n ≤ side.maxBytes) :
    (q.reserve n).Holds live ∧ (q.reserve n).mem.length + n ≤ (q.reserve n).cap ∧
    (q.reserve n).cap ≤ max q.cap (max 4096 (2 * side.maxBytes)) ∧
    (q.reserve n).packets = q.packets ∧ (q.reserve n).accepted = q.accepted ∧
    (q.reserve n).closing = q.closing := by
  obtain ⟨hc, ho⟩ := h.compact
  obtain ⟨he, hsame⟩ := compact_same (q := q)
  have hlen : q.compact.mem.length = q.mem.length - q.off := by
    rw [h.length_live, ← hc.length_live, ho, Nat.sub_zero]
  unfold reserve
  dsimp only
  generalize hg : (if q.compact.cap ≠ 0 then q.compact.cap * 2 else 4096) = cap
  split_ifs with h1
  · have h64 := side.maxBytes_lt
    have hcap : 1 ≤ cap ∧ q.cap ≤ cap ∧ cap ≤ max 4096 (2 * q.cap) := by
      rw [← hg, he]
      split_ifs <;> omega
    have hle := le_growCap (q.compact.mem.length + n) 64 cap (by omega)
    have hge := growCap_le (q.compact.mem.length + n) 64 cap
    refine ⟨{ hc with len_le := (le_add_right _ _).trans hle }, hle, ?_, hsame⟩
    change Tls.growCap _ 64 _ ≤ _
    omega
  · exact ⟨hc, by omega, he ▸ le_max_left _ _, hsame⟩
  · exact ⟨h, by omega, le_max_left _ _, rfl, rfl, rfl⟩

lemma put_spec (h : q.Holds live) (hc : q.closing = false) (hr : q.rejects side data = false) :
    (q.put data).Holds (live ++ [data]) ∧
    (q.put data).cap ≤ max q.cap (max 4096 (2 * side.maxBytes)) ∧
    (q.put data).packets = q.packets + 1 ∧ (q.put data).accepted = q.accepted ++ [data] := by
  simp only [rejects, or_eq_false_iff, decide_eq_false_iff_not] at hr
  have hn : q.mem.length - q.off + (4 + data.length) ≤ side.maxBytes := by omega
  obtain ⟨hs, hroom, hcap, hp, ha, hcl⟩ := reserve_spec h hn
  have hall : (q.put data).accepted = (q.put data).written ++ (live ++ [data]) := by
    change _ ++ [data] = _
    rw [hs.all (hcl.trans hc), append_assoc]
    rfl
  have hlen := length_outqRecord data
  refine ⟨?_, hcap, congrArg (· + 1) hp, congrArg (· ++ [data]) ha⟩
  exact {
    bytes := by
      rw [put, drop_append_of_le_length hs.off_le, hs.bytes, flatMap_append,
        flatMap_singleton, outqRecord]
    count := by
      rw [length_append, hs.count]
      rfl
    off_le := hs.off_le.trans (by simp [put])
    len_le := by
      rw [outqRecord] at hlen
      rw [put, length_append, hlen]
      exact hroom
    lens := fun env he => by
      rcases mem_append.1 he with he | he
      · exact hs.lens env he
      · rw [mem_singleton.1 he]
        omega
    written := hall ▸ prefix_refl _
    all := fun _ => hall }

/-! ## Pumps -/

structure Sinks (q q' : Outq) : Prop where
  cap : q'.cap ≤ q.cap
  packets : q'.packets ≤ q.packets
  accepted : q'.accepted = q.accepted

lemma Sinks.refl : Sinks q q := ⟨le_rfl, le_rfl, rfl⟩

lemma Sinks.trans {q'' : Outq} (h : Sinks q q') (h' : Sinks q' q'') : Sinks q q'' :=
  ⟨h'.cap.trans h.cap, h'.packets.trans h.packets, h'.accepted.trans h.accepted⟩

lemma Sinks.reset : Sinks q q.reset := by
  unfold Outq.reset
  split_ifs <;> exact ⟨le_rfl, le_rfl, rfl⟩

lemma Sinks.advance (env : Bytes) : Sinks q (q.advance env).reset := by
  have h : Sinks q (q.advance env) := ⟨le_rfl, sub_le _ _, rfl⟩
  exact h.trans .reset

lemma Holds.uncons (h : q.Holds live) (hlt : q.off < q.mem.length) :
    ∃ env rest, live = env :: rest ∧ q.front = some env := by
  cases live with
  | nil =>
    have := congrArg length h.bytes
    rw [length_drop] at this
    simp only [flatMap_nil, length_nil] at this
    omega
  | cons env rest => exact ⟨env, rest, rfl, h.front⟩

lemma pumpOut_spec (h : q.Holds live) (ans : SslAns) (bio : Bool) :
    (∃ live', (q.pumpOut ans bio).Holds live') ∧ Sinks q (q.pumpOut ans bio) := by
  have hsend {q' : Outq} {live' : List Bytes} (h' : q'.Holds live') :
      ({ q' with inflight := bio } : Outq).Holds live' := { h' with bytes := h'.bytes }
  have hrest {q' : Outq} (h' : Sinks q q') : Sinks q { q' with inflight := bio } := { h' with }
  unfold pumpOut
  split_ifs with hc hlt
  · exact ⟨⟨live, h⟩, .refl⟩
  · obtain ⟨env, rest, rfl, hf⟩ := h.uncons hlt
    rw [hf]
    cases ans with
    | whole => exact ⟨⟨rest, hsend h.advance.reset⟩, hrest (.advance env)⟩
    | want => exact ⟨⟨_, hsend h.reset⟩, hrest .reset⟩
    | fail => exact ⟨⟨_, h⟩, .refl⟩
  · exact ⟨⟨live, hsend h.reset⟩, hrest .reset⟩

lemma stop_spec (h : q.Holds live) : q.stop.Holds [] ∧ Sinks q q.stop :=
  ⟨⟨rfl, rfl, le_rfl, le_rfl, by simp,
    by simpa [stop] using (prefix_append _ _).trans h.written, by simp [stop]⟩,
    zero_le _, zero_le _, rfl⟩

lemma pumpAll_spec (ans : List SslAns) (h : q.Holds live) :
    (∃ live', (pumpAll ans q).Holds live') ∧ Sinks q (pumpAll ans q) := by
  -- one answer for each envelope that is written
  induction ans generalizing q live with
  | nil =>
    unfold pumpAll
    split_ifs with hc hlt
    · exact ⟨⟨live, h⟩, .refl⟩
    · obtain ⟨env, rest, rfl, hf⟩ := h.uncons hlt
      rw [hf]
      exact ⟨⟨_, h⟩, .refl⟩
    · exact ⟨⟨live, h⟩, .refl⟩
  | cons a ans ih =>
    unfold pumpAll
    split_ifs with hc hlt
    · exact ⟨⟨live, h⟩, .refl⟩
    · obtain ⟨env, rest, rfl, hf⟩ := h.uncons hlt
      rw [hf]
      cases a with
      | whole =>
        obtain ⟨hl, hs⟩ := ih h.advance.reset
        exact ⟨hl, (Sinks.advance env).trans hs⟩
      | want => exact ⟨⟨_, h⟩, .refl⟩
      | fail => exact ⟨⟨[], (stop_spec h).1⟩, (stop_spec h).2⟩
    · exact ⟨⟨live, h⟩, .refl⟩

lemma pump_spec (side : OutqSide) (h : q.Holds live) (ans : List SslAns) (bio : Bool) :
    (∃ live', (q.pump side ans bio).Holds live') ∧ Sinks q (q.pump side ans bio) := by
  cases side with
  | broker => exact pumpOut_spec h _ bio
  | client => exact pumpAll_spec ans h

/-! ## Runs -/

lemma step_spec (h : q.Holds live) (hs : outqStep side q l = some q') :
    (∃ live', q'.Holds live') ∧ (Sinks q q' ∨ ∃ data ans bio, l = .enqueue data ans bio ∧
      q.closing = false ∧ q.rejects side data = false ∧ Sinks (q.put data) q') := by
  cases l with
  | enqueue data ans bio =>
    cases hs
    unfold enqueue
    split_ifs with hc
    · exact ⟨⟨live, h⟩, .inl .refl⟩
    · simp only [or_eq_true, not_or, not_eq_true] at hc
      obtain ⟨hl, hk⟩ := pump_spec side (put_spec h hc.1 hc.2).1 ans bio
      exact ⟨hl, .inr ⟨data, ans, bio, rfl, hc.1, hc.2, hk⟩⟩
  | pump ans bio =>
    cases hs
    exact (pump_spec side h ans bio).imp_right .inl
  | sendDone ans bio =>
    simp only [outqStep, Option.ite_none_right_eq_some] at hs
    cases hs.2
    have h' : ({ q with inflight := false } : Outq).Holds live := { h with bytes := h.bytes }
    obtain ⟨hl, hk⟩ := pump_spec side h' ans bio
    exact ⟨hl, .inl { hk with }⟩
  | close =>
    cases side with
    | broker =>
      cases hs
      exact ⟨⟨live, { h with bytes := h.bytes, all := by simp }⟩, .inl ⟨le_rfl, le_rfl, rfl⟩⟩
    | client =>
      cases hs
      exact ⟨⟨[], (stop_spec h).1⟩, .inl (stop_spec h).2⟩

lemma Holds.of_trace {tr : List (Outq × OutqLabel)}
    (h : Trace (outqStep side) (· = {}) tr q) : ∃ live, q.Holds live := by
  refine h.inv (I := fun q => ∃ live, q.Holds live) ?_ fun q l q' ⟨_, hq⟩ hs => (step_spec hq hs).1
  rintro q rfl
  exact ⟨[], rfl, rfl, le_rfl, le_rfl, by simp, prefix_refl _, fun _ => rfl⟩

end Outq

theorem outq_fifo {tr : List (Outq × OutqLabel)} (h : Trace (outqStep side) (· = {}) tr q) :
    q.off ≤ q.mem.length ∧ q.mem.length ≤ q.cap ∧
    ∃ live, q.mem.drop q.off = live.flatMap outqRecord ∧ live.length = q.packets ∧
      q.written ++ live <+: q.accepted ∧ (q.closing = false → q.accepted = q.written ++ live) := by
  obtain ⟨live, hq⟩ := Outq.Holds.of_trace h
  exact ⟨hq.off_le, hq.len_le, live, hq.bytes, hq.count, hq.written, hq.all⟩

theorem outq_fifo_two : ∃ tr q, Trace (outqStep (.client 1400)) (· = {}) tr q ∧
    q.accepted = [[1], [2, 3]] ∧ q.written = [[1]] ∧ q.mem.length ≤ q.cap := by
  obtain ⟨tr, q, h, ha, hw⟩ := exists_trace (outqStep (.client 1400)) (· = {}) rfl
    [.enqueue [1] [.want] false, .enqueue [2, 3] [] false, .pump [.whole] true]
    (fun r => r.2.accepted = [[1], [2, 3]] ∧ r.2.written = [[1]]) (by decide)
  exact ⟨tr, q, h, ha, hw, (outq_fifo h).2.1⟩

/-! ## Bounds -/

section Bounds

variable {cfg : BrokerCfg}

def EnvFits (cfg : BrokerCfg) (data : Bytes) : Prop :=
  (data.length : ℤ) ≤ tmEnvHdrLen + cfg.udpMaxDatagramSize ∧ data.length ≤ uint32Max

def OutqLabel.Fits (cfg : BrokerCfg) : OutqLabel → Prop
  | .enqueue data _ _ => EnvFits cfg data
  | _ => True

lemma toU64_natCast (h : n < 2 ^ 64) : toU64 n = n := by
  unfold toU64
  omega

lemma broker_limits {d : ℕ} (hn : cfg.udpQueuePackets = n) (hd : cfg.udpMaxDatagramSize = d)
    (h1 : 1 ≤ n) (hm : n * (d + 15) < 2 ^ 64) :
    (OutqSide.broker cfg).maxPackets = n ∧ (OutqSide.broker cfg).maxBytes = n * (d + 15) := by
  have hn' : n < 2 ^ 64 := (Nat.le_mul_of_pos_right n (by omega)).trans_lt hm
  have hd' : d + 15 < 2 ^ 64 := (Nat.le_mul_of_pos_left _ h1).trans_lt hm
  rw [OutqSide.maxPackets, OutqSide.maxBytes, hn, hd, toU64_natCast hn', toU64_natCast (by omega)]
  exact ⟨rfl, mod_eq_of_lt hm⟩

structure OutqBounded (cfg : BrokerCfg) (q : Outq) : Prop where
  packets : q.packets ≤ (OutqSide.broker cfg).maxPackets
  cap : q.cap ≤ max 4096 (2 * (OutqSide.broker cfg).maxBytes)
  fits : ∀ env ∈ q.accepted, EnvFits cfg env

lemma OutqBounded.sinks (h : OutqBounded cfg q) (hs : q.Sinks q') : OutqBounded cfg q' :=
  ⟨hs.packets.trans h.packets, hs.cap.trans h.cap, hs.accepted ▸ h.fits⟩

lemma OutqBounded.step (h : OutqBounded cfg q) (hq : q.Holds live)
    (hl : l.Fits cfg) (hs : outqStep (.broker cfg) q l = some q') : OutqBounded cfg q' := by
  obtain ⟨-, hk | ⟨data, ans, bio, rfl, hc, hr, hk⟩⟩ := step_spec hq hs
  · exact h.sinks hk
  obtain ⟨-, hcap, hp, ha⟩ := put_spec hq hc hr
  simp only [rejects, or_eq_false_iff, decide_eq_false_iff_not] at hr
  refine .sinks ⟨by omega, ?_, ?_⟩ hk
  · exact hcap.trans (max_le h.cap le_rfl)
  · rw [ha]
    intro env he
    rcases mem_append.1 he with he | he
    · exact h.fits env he
    · exact mem_singleton.1 he ▸ hl

lemma Outq.Holds.length_le {m : ℕ} (h : q.Holds live) (hl : ∀ env ∈ live, 4 + env.length ≤ m) :
    q.mem.length - q.off ≤ q.packets * m := by
  rw [h.length_live, ← h.count, ← length_map (fun env : Bytes => 4 + env.length)]
  refine sum_le_card_nsmul _ _ fun x hx => ?_
  obtain ⟨env, he, rfl⟩ := mem_map.1 hx
  exact hl env he

theorem outq_bounds {tr : List (Outq × OutqLabel)}
    (h : Trace (outqStep (.broker cfg)) (· = {}) tr q) (hf : ∀ p ∈ tr, p.2.Fits cfg)
    (hq : 1 ≤ cfg.udpQueuePackets) (hd : 0 ≤ cfg.udpMaxDatagramSize)
    (hm : cfg.udpQueuePackets * (cfg.udpMaxDatagramSize + 15) < 2 ^ 64) :
    (∀ data, EnvFits cfg data →
      (q.rejects (.broker cfg) data = true ↔ (q.packets : ℤ) = cfg.udpQueuePackets)) ∧
    (q.cap : ℤ) ≤ max 4096 (2 * cfg.udpQueuePackets * (cfg.udpMaxDatagramSize + 15)) := by
  obtain ⟨n, hn⟩ := Int.eq_ofNat_of_zero_le (by omega : 0 ≤ cfg.udpQueuePackets)
  obtain ⟨d, hd⟩ := Int.eq_ofNat_of_zero_le hd
  rw [hn, hd] at hm
  obtain ⟨hpk, hby⟩ := broker_limits hn hd (by omega) (by exact_mod_cast hm)
  obtain ⟨⟨live, hl⟩, hb⟩ : (∃ live, q.Holds live) ∧ OutqBounded cfg q := by
    have hstep (q : Outq) (l : OutqLabel) (q' : Outq) (hi : (∃ live, q.Holds live) ∧
        OutqBounded cfg q) (hfit : l.Fits cfg) (hs : outqStep (.broker cfg) q l = some q') :
        (∃ live, q'.Holds live) ∧ OutqBounded cfg q' := by
      obtain ⟨⟨live, hl⟩, hb⟩ := hi
      exact ⟨(step_spec hl hs).1, hb.step hl hfit hs⟩
    refine h.inv_of_ok (I := fun q => (∃ live, q.Holds live) ∧ OutqBounded cfg q) ?_ hstep hf
    rintro q rfl
    have h0 : Trace (outqStep (.broker cfg)) (· = {}) [] {} := .start rfl
    exact ⟨Outq.Holds.of_trace h0, zero_le _, zero_le _, by simp⟩
  have hpack := hb.packets
  refine ⟨fun data hdata => ?_, ?_⟩
  · have hfits {env : Bytes} (he : EnvFits cfg env) : 4 + env.length ≤ d + 15 := by
      have := he.1
      rw [hd, tmEnvHdrLen] at this
      omega
    have hlen := hl.length_le (m := d + 15) fun env he =>
      hfits (hb.fits env (hl.written.subset (mem_append_right _ he)))
    have hthis := hfits hdata
    have hsmall := hdata.2
    simp only [rejects, hpk, hby, hn, or_eq_true, decide_eq_true_eq]
    constructor
    · rintro ((hr | hr) | hr)
      · omega
      · omega
      · by_contra hne
        have : (q.packets + 1) * (d + 15) ≤ n * (d + 15) := mul_le_mul_right _ (by omega)
        rw [succ_mul] at this
        omega
    · intro he
      exact .inl (.inl (by omega))
  · have hcap := hb.cap
    have hcast : (2 : ℤ) * (n * (d + 15)) = (2 * (n * (d + 15)) : ℕ) := by push_cast; rfl
    rw [hn, hd, mul_assoc, hcast]
    omega

theorem outq_bounds_one : ∃ tr q, ∃ cfg : BrokerCfg,
    Trace (outqStep (.broker cfg)) (· = {}) tr q ∧ cfg.udpQueuePackets = 1 ∧
    q.rejects (.broker cfg) (tmEnvEncode 1 0 [5]) = true := by
  let cfg : BrokerCfg := { udpQueuePackets := 1, udpMaxDatagramSize := 1 }
  have h0 : Trace (outqStep (.broker cfg)) (· = {}) [] {} := .start rfl
  have h := h0.next (i := .enqueue (tmEnvEncode 1 0 [4]) [] false) rfl
  have hf : ∀ p ∈ [(({} : Outq), OutqLabel.enqueue (tmEnvEncode 1 0 [4]) [] false)],
      p.2.Fits cfg := by
    rintro p hp
    rw [mem_singleton.1 hp]
    exact ⟨by decide, by decide⟩
  exact ⟨_, _, cfg, h, rfl, ((outq_bounds h hf (by decide) (by decide) (by decide)).1 _
    ⟨by decide, by decide⟩).2 rfl⟩

theorem outq_refuses : ∃ cfg : BrokerCfg, ∃ q, Trace (outqStep (.broker cfg)) (· = {}) [] q ∧
    1 ≤ cfg.udpQueuePackets ∧ 0 ≤ cfg.udpMaxDatagramSize ∧ q.packets = 0 ∧
    q.rejects (.broker cfg) (tmEnvEncode 1 0 [5]) = true :=
  ⟨{ udpQueuePackets := 2 ^ 60, udpMaxDatagramSize := 1 }, {}, .start rfl, by decide, by decide,
    rfl, by decide⟩

end Bounds

end TunnelMate
