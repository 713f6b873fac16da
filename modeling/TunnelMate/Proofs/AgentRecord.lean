import Mathlib.Data.List.TakeDrop
import TunnelMate.Proofs.ClientMoves

/-!
# Datagrams in the agent's record buffers

`udp_recv_cb` and `pump_out` read records into buffers of a fixed size, whatever
`udp_max_datagram_size` is.
-/

namespace TunnelMate.AgentUdp

open List

open Udp

lemma Reads.head {r : Bytes} {rs : List Bytes} (h : Reads r rs) (h0 : r ≠ []) :
    ∃ rs', rs = r.take recordBuf :: rs' := by
  cases h with
  | none => exact absurd rfl h0
  | lost => exact ⟨_, rfl⟩
  | left => exact ⟨_, rfl⟩

/-- A record comes whole if and only if the buffer holds it. -/
lemma Reads.whole_iff {r : Bytes} {rs : List Bytes} (h : Reads r rs) (h0 : r ≠ []) :
    rs = [r] ↔ r.length ≤ recordBuf := by
  constructor
  · rintro rfl
    obtain ⟨rs', he⟩ := h.head h0
    exact (take_eq_self_iff r).1 (cons.inj he).1.symm
  intro hl
  cases h with
  | none => exact absurd rfl h0
  | lost => rw [take_of_length_le hl]
  | left _ hr =>
    rw [drop_of_length_le hl] at hr
    rw [take_of_length_le hl]
    cases hr with
    | none => rfl
    | lost _ hn | left hn => exact absurd rfl hn

lemma take_tmEnvEncode (flowId : ℕ) (p : Bytes) : (tmEnvEncode flowId 0 p).take recordBuf =
    tmEnvEncode flowId 0 (p.take (recordBuf - tmEnvHdrLen)) := rfl

/-- The envelopes of the queue are written one by one, each as a record of its own. -/
lemma sent_pumpLoop (q : List Bytes) {a : App} {x : Ssl} (hx : a.ssl = some x)
    (hw : x.wbio = []) : (pumpLoop q (replicate q.length .whole) a).sent =
      (q.map some).reverse ++ a.sent := by
  induction q generalizing a x with
  | nil => simp [pumpLoop, flush, hx, hw]
  | cons env q ih =>
    simp only [pumpLoop, length_cons, replicate_succ, headD_cons, tail_cons]
    rw [ih (x := { x with wbio := [] }) (by simp [flush, hx]) rfl]
    simp [flush, hx, hw]

section

variable {cfg : Cfg} {a : App} {x : Ssl} {flowId now : ℕ} {payload : Bytes}

lemma Pump.toLocal {a' : App} (h : Pump a a') : a'.toLocal = a.toLocal := by
  cases h with
  | stop =>
    unfold udpStop
    split_ifs <;> rfl
  | flush | write => rfl

lemma toLocal_pumpOut (ans : List SslAns) : (pumpOut ans a).toLocal = a.toLocal := by
  have h : Relation.ReflTransGen Pump a (pumpOut ans a) := pumps_pumpOut
  generalize pumpOut ans a = a' at h ⊢
  induction h with
  | refl => rfl
  | tail _ hp ih => exact hp.toLocal.trans ih

variable {ok : Bool} {ans : List SslAns}

/-- There is a local socket for the flow: it has one, or one more can be made. -/
def App.Reaches (cfg : Cfg) (a : App) (flowId : ℕ) (ok : Bool) : Prop :=
  (a.udpFlows.find? (·.flowId = flowId)).isSome = true ∨
    (a.udpFlows.length : ℤ) < cfg.udpMaxFlows ∧ ok = true

lemma toLocal_handleBrokerEnv (h0 : flowId ≠ 0)
    (hp : payload.length ≤ toU32 cfg.udpMaxDatagramSize) (hf : a.Reaches cfg flowId ok) :
    (handleBrokerEnv cfg ⟨flowId, 0, payload⟩ ok now a).toLocal =
      (flowId, payload) :: a.toLocal := by
  unfold handleBrokerEnv
  rw [if_neg h0, if_neg (Nat.not_lt.2 hp)]
  cases hfind : a.udpFlows.find? (·.flowId = flowId) with
  | some => simp
  | none =>
    obtain ⟨hlt, rfl⟩ := hf.resolve_left (by simp [hfind])
    rw [if_neg (by omega)]
    rfl

/-- Nothing that was handed to the local socket is taken back. -/
lemma Acts.toLocal_suffix {S : Bytes → Prop} {B : Ref → Prop} {a' : App} (h : Acts S B a a') :
    a.toLocal <:+ a'.toLocal := by
  induction h with
  | refl => exact suffix_rfl
  | tail _ ha ih =>
    refine ih.trans ?_
    cases ha with
    | pump hp => exact hp.toLocal ▸ suffix_rfl
    | queue | shake | auth => exact suffix_rfl
    | flows _ hl => exact hl

lemma udpRecv_established {hs : HsAns} {s : Ref} (reads : List (Bytes × Bool))
    (hx : a.ssl = some x) (hfin : x.initFinished = true) :
    udpRecv cfg hs s reads now ans a = readLoop cfg now ans reads a := by
  rw [udpRecv, hx]
  exact if_pos hfin

lemma readLoop_envelope (hi : flowId < 2 ^ 64) (reads : List (Bytes × Bool)) :
    readLoop cfg now ans ((tmEnvEncode flowId 0 payload, ok) :: reads) a =
      readLoop cfg now ans reads (handleBrokerEnv cfg ⟨flowId, 0, payload⟩ ok now a) := by
  rw [readLoop, decode_encode 0 payload hi, if_neg (by decide)]
  simp only []
  rw [if_neg (by decide), if_neg (by decide), if_pos trivial]

/-- An envelope goes to the local socket as a whole if and only if the buffer holds it. -/
lemma toLocal_readLoop {rs : List Bytes} (hx : a.ssl = some x) (hfin : x.initFinished = true)
    (hi : flowId < 2 ^ 64) (h0 : flowId ≠ 0)
    (hp : payload.length ≤ toU32 cfg.udpMaxDatagramSize) (hf : a.Reaches cfg flowId ok)
    (hr : Reads (tmEnvEncode flowId 0 payload) rs) :
    (readLoop cfg now ans (rs.map (·, ok)) a).toLocal = (flowId, payload) :: a.toLocal ↔
      tmEnvHdrLen + payload.length ≤ recordBuf := by
  have hne : tmEnvEncode flowId 0 payload ≠ [] := by simp [tmEnvEncode]
  rw [← length_tmEnvEncode flowId 0 payload, ← hr.whole_iff hne]
  constructor
  · intro h
    obtain ⟨rs', rfl⟩ := hr.head hne
    rw [map_cons, take_tmEnvEncode, readLoop_envelope hi] at h
    have hs : (handleBrokerEnv cfg ⟨flowId, 0, payload.take (recordBuf - tmEnvHdrLen)⟩ ok now
        a).toLocal <:+ (flowId, payload) :: a.toLocal := by
      rw [← h]
      exact (acts_readLoop (S := fun _ => True) (B := fun _ => True) _
        ((ssl_handleBrokerEnv _ ok).trans hx) hfin).toLocal_suffix
    rw [toLocal_handleBrokerEnv h0 ((length_take_le' _ _).trans hp) hf] at hs
    have he := (cons.inj (hs.eq_of_length (by simp))).1
    rw [hr.whole_iff hne, ← take_eq_self_iff, take_tmEnvEncode, (Prod.mk.inj he).2]
  · rintro rfl
    rw [map_singleton, readLoop_envelope hi, readLoop, toLocal_pumpOut,
      toLocal_handleBrokerEnv h0 hp hf]

/-- A payload is handed to the local socket whole and once if and only if the read buffer holds its
envelope; what the service sends leaves as one record, and in one datagram if and only if the buffer
of `pump_out` holds that record. -/
theorem datagrams_whole {record : Bytes → Bytes} (hx : a.ssl = some x)
    (hfin : x.initFinished = true) (hauth : a.udpAuthed = true) (hrec : ∀ p, record p ≠ [])
    (hD : cfg.udpMaxDatagramSize ≤ 65507) (hi : flowId < 2 ^ 64)
    (hp : (payload.length : ℤ) ≤ cfg.udpMaxDatagramSize) :
    (∀ rs ok hs s ans, flowId ≠ 0 → Reads (tmEnvEncode flowId 0 payload) rs →
      a.Reaches cfg flowId ok →
      ((udpRecv cfg hs s (rs.map (·, ok)) now ans a).toLocal = (flowId, payload) :: a.toLocal ↔
        tmEnvHdrLen + payload.length ≤ recordBuf)) ∧
    (∀ f, a.udpFlows.find? (·.flowId = flowId) = some f → x.wbio = [] →
      0 < cfg.udpMaxPacketsPerFlow →
      (f.pktWin.count < cfg.udpMaxPacketsPerFlow ∨ now - f.pktWin.start ≥ 1000) →
      a.udpOutq.length < 256 →
      (a.udpOutq.map fun e => 4 + e.length).sum + 4 + (tmEnvHdrLen + payload.length) ≤
        256 * (toU64 cfg.udpMaxDatagramSize + 15) →
      (flowRecv cfg flowId payload now (replicate (a.udpOutq.length + 1) .whole) a).sent =
        some (tmEnvEncode flowId 0 payload) :: ((a.udpOutq.map some).reverse ++ a.sent)) ∧
    ∀ ds, Reads (record (tmEnvEncode flowId 0 payload)) ds →
      (ds = [record (tmEnvEncode flowId 0 payload)] ↔
        (record (tmEnvEncode flowId 0 payload)).length ≤ recordBuf) := by
  obtain ⟨d, hd⟩ := Int.eq_ofNat_of_zero_le (by omega : 0 ≤ cfg.udpMaxDatagramSize)
  have hlen := length_tmEnvEncode flowId 0 payload
  simp only [tmEnvHdrLen] at hlen
  refine ⟨fun rs ok hs s ans h0 hr hf => ?_, fun f hf hw h0 hc hq hb => ?_, fun ds hr =>
    hr.whole_iff (hrec _)⟩
  · rw [udpRecv_established _ hx hfin]
    refine toLocal_readLoop hx hfin hi h0 ?_ hf hr
    rw [hd, toU32]
    omega
  · have hcount : ¬ (if now - f.pktWin.start ≥ 1000 then { start := now, count := 0 }
        else f.pktWin : Window).count ≥ cfg.udpMaxPacketsPerFlow := by
      split_ifs
      · change ¬ (0 : ℤ) ≥ _
        omega
      · omega
    have hd64 : toU64 cfg.udpMaxDatagramSize = d := by
      rw [hd, toU64]
      omega
    rw [hd64, tmEnvHdrLen] at hb
    have hroom : ¬ (a.udpOutq.length ≥ 256 ∨ (tmEnvEncode flowId 0 payload).length > uint32Max ∨
        (a.udpOutq.map fun e => 4 + e.length).sum + 4 + (tmEnvEncode flowId 0 payload).length >
          256 * (d + 15) % 2 ^ 64) := by
      rw [uint32Max]
      omega
    unfold flowRecv
    rw [hf]
    simp only [hauth, Bool.not_true, Bool.false_eq_true, if_false]
    rw [if_neg hcount, if_neg (by omega), udpQueue, if_neg (by simp [hx]), hd64, if_neg hroom,
      pumpOut, if_neg (by simp [hx])]
    have hn : a.udpOutq.length + 1 = (a.udpOutq ++ [tmEnvEncode flowId 0 payload]).length := by
      simp
    rw [hn]
    refine (sent_pumpLoop _ (x := x) ?_ hw).trans ?_
    · exact hx
    · rw [map_append, reverse_append]
      rfl

/-- One byte from the broker, and the default limit. -/
theorem datagrams_whole_one : Reads (tmEnvEncode 1 0 [5]) [tmEnvEncode 1 0 [5]] ∧
    (udpRecv { agentSecret := [] } (.want 0) 0 [(tmEnvEncode 1 0 [5], true)] 0 []
      { ssl := some { initFinished := true }, udpAuthed := true }).toLocal = [(1, [5])] := by
  have hr : Reads (tmEnvEncode 1 0 [5]) [tmEnvEncode 1 0 [5]] := .lost _ (by decide)
  exact ⟨hr, ((datagrams_whole (x := { initFinished := true }) rfl rfl rfl (cons_ne_nil 0)
    (by decide) (by decide) (by decide)).1 _ true _ _ _ (by decide) hr (.inr (by decide))).2
    (by decide)⟩

/-- With a limit of 65507, a payload of 2414 bytes is cut. -/
theorem datagram_cut : ∃ cfg : Cfg, cfg.udpMaxDatagramSize = 65507 ∧ ∃ (a : App) (rs : List Bytes),
    Reads (tmEnvEncode 1 0 (replicate 2414 5)) rs ∧
    (udpRecv cfg (.want 0) 0 (rs.map (·, true)) 0 [] a).toLocal = [(1, replicate 2413 5)] := by
  refine ⟨{ agentSecret := [], udpMaxDatagramSize := 65507 }, rfl,
    { ssl := some { initFinished := true }, udpAuthed := true }, _,
    .lost _ (cons_ne_nil _ _), ?_⟩
  rw [take_tmEnvEncode, take_replicate, udpRecv_established _ rfl rfl, map_singleton,
    readLoop_envelope (by decide), readLoop, toLocal_pumpOut,
    toLocal_handleBrokerEnv (by decide) _ (.inr (by decide))]
  · rfl
  · rw [length_replicate]
    decide

end

end TunnelMate.AgentUdp
