import TunnelMate.Proofs.Steps

/-!
# Stream ids

`tm_stream_create_open` and `tm_stream_create_closed` number their streams with a counter each, both
from 1, modulo 2^31 and with 1 for 0.
-/

namespace TunnelMate

open List Option

variable {b b' : Broker}

inductive StreamOp
  | createOpen (t : Ref)
  | createClosed (t c : Ref)
  | close (st : Ref)

def streamStep (b : Broker) : StreamOp → Option Broker
  | .createOpen t =>
    (Table.get t b.tunnels).map fun t => ((tmStreamCreateOpen t b).map Prod.snd).getD b
  | .createClosed t c =>
    (Table.get t b.tunnels).map fun t => ((tmStreamCreateClosed t c b).map Prod.snd).getD b
  | .close st => some (tmStreamClose st b)

def StreamInit (b : Broker) : Prop := b.streams = [] ∧ b.sidCounter = 1 ∧ b.sidCounter2 = 1

def IdsUnique (b : Broker) : Prop :=
  (b.streams.map Stream.id).Nodup ∧ ∀ st ∈ b.streams, st.id ≠ 0

def CounterFree (counter : ℕ) (b : Broker) : Prop :=
  ∀ st ∈ b.streams, st.id ≠ counter % 2 ^ 31 ∧ (counter % 2 ^ 31 = 0 → st.id ≠ 1)

def CreateOk (b : Broker) : StreamOp → Prop
  | .createOpen t => ∀ x ∈ Table.get t b.tunnels, streamsFull x b = false →
    CounterFree b.sidCounter b
  | .createClosed t _ => ∀ x ∈ Table.get t b.tunnels, streamsFull x b = false →
    CounterFree b.sidCounter2 b
  | .close _ => True

lemma sidOf_eq (n : ℕ) : sidOf n = if n % 2 ^ 31 = 0 then 1 else n % 2 ^ 31 := by
  have h : n &&& 0x7FFFFFFF = n % 2 ^ 31 := Nat.and_two_pow_sub_one_eq_mod n 31
  rw [sidOf, h]

lemma sidOf_ne_zero (n : ℕ) : sidOf n ≠ 0 := by
  rw [sidOf_eq]
  split_ifs with h
  · exact Nat.one_ne_zero
  · exact h

lemma counterFree_iff {n : ℕ} (h : ∀ st ∈ b.streams, st.id ≠ 0) :
    CounterFree n b ↔ ∀ st ∈ b.streams, st.id ≠ sidOf n := by
  refine forall_congr' fun st => forall_congr' fun hst => ?_
  rw [sidOf_eq]
  split_ifs with h0
  · rw [h0]
    exact ⟨fun hs => hs.2 rfl, fun hs => ⟨h st hst, fun _ => hs⟩⟩
  · exact ⟨fun hs => hs.1, fun hs => ⟨hs, fun hz => absurd hz h0⟩⟩

section

variable (hu : IdsUnique b)
include hu

lemma idsUnique_new {st : Stream} {n : ℕ} (hs : b'.streams = st :: b.streams)
    (hid : st.id = sidOf n) : IdsUnique b' ↔ CounterFree n b := by
  rw [counterFree_iff hu.2, ← hid]
  unfold IdsUnique
  simp only [hs, map_cons, nodup_cons, List.mem_map, not_exists, not_and, forall_mem_cons]
  exact ⟨fun h => h.1.1, fun h => ⟨⟨h, hu.1⟩, hid ▸ sidOf_ne_zero n, hu.2⟩⟩

lemma IdsUnique.of_sublist (hs : b'.streams.Sublist b.streams) : IdsUnique b' :=
  ⟨hu.1.sublist (hs.map _), fun st hst => hu.2 st (hs.subset hst)⟩

lemma IdsUnique.close (st : Ref) : IdsUnique (tmStreamClose st b) :=
  tmStreamClose_rule hu fun _ _ _ => hu.of_sublist filter_sublist

lemma idsUnique_createOpen (t : Tunnel) :
    IdsUnique (((tmStreamCreateOpen t b).map Prod.snd).getD b) ↔
      (streamsFull t b = false → CounterFree b.sidCounter b) := by
  cases hc : tmStreamCreateOpen t b with
  | none =>
    have hf : streamsFull t b = true := by simpa [tmStreamCreateOpen] using hc
    simp [hf, hu]
  | some =>
    obtain ⟨hf, hr⟩ := tmStreamCreateOpen_eq hc
    rw [map_some, getD_some, idsUnique_new hu (by rw [hr]; rfl) rfl]
    simp [hf]

lemma idsUnique_createClosed (t : Tunnel) (c : Ref) :
    IdsUnique (((tmStreamCreateClosed t c b).map Prod.snd).getD b) ↔
      (streamsFull t b = false → CounterFree b.sidCounter2 b) := by
  cases hc : tmStreamCreateClosed t c b with
  | none =>
    have hf : streamsFull t b = true := by simpa [tmStreamCreateClosed] using hc
    simp [hf, hu]
  | some r =>
    obtain ⟨hf, hr⟩ := tmStreamCreateClosed_eq hc
    rw [map_some, getD_some, idsUnique_new hu (by rw [hr]; rfl) rfl]
    simp [hf]

lemma IdsUnique.step {op : StreamOp} (hs : streamStep b op = some b') :
    IdsUnique b' ↔ CreateOk b op := by
  cases op with
  | createOpen t =>
    obtain ⟨x, hx, rfl⟩ := map_eq_some_iff.1 hs
    rw [idsUnique_createOpen hu]
    simp [CreateOk, hx]
  | createClosed t c =>
    obtain ⟨x, hx, rfl⟩ := map_eq_some_iff.1 hs
    rw [idsUnique_createClosed hu]
    simp [CreateOk, hx]
  | close st =>
    cases hs
    exact ⟨fun _ => trivial, fun _ => hu.close st⟩

lemma IdsUnique.findStream {id : ℕ} {st st' : Stream}
    (hf : findStream id b = some st) (hst : st' ∈ b.streams) (hid : st'.id = id) : st' = st := by
  obtain ⟨hm, he, -⟩ := mem_findStream hf
  exact inj_on_of_nodup_map hu.1 hst hm (hid.trans he.symm)

end

lemma IdsUnique.init (h : b.streams = []) : IdsUnique b := by
  simp [IdsUnique, h]

/-- In a run that makes a stream only while its counter is free, live ids are unique and not 0; the
first creation with the counter in use breaks that. -/
theorem stream_ids_unique {tr : List (Broker × StreamOp)} (h : Trace streamStep StreamInit tr b)
    (hok : ∀ p ∈ tr, CreateOk p.1 p.2) :
    IdsUnique b ∧ (∀ id st, findStream id b = some st → ∀ st' ∈ b.streams, st'.id = id → st' = st) ∧
      ∀ op b', streamStep b op = some b' → (IdsUnique b' ↔ CreateOk b op) := by
  have hu : IdsUnique b := h.inv_of_ok (fun _ hi => .init hi.1) (fun _ _ _ hu hok hs =>
    (hu.step hs).2 hok) hok
  exact ⟨hu, fun _ _ hf _ hst hid => hu.findStream hf hst hid, fun _ _ hs => hu.step hs⟩

def plainTunnel (ref : Ref) (closed : Bool) : Tunnel where
  ref := ref
  id := [65 + ref.toUInt8]
  proto := .tcp
  closed := closed
  publicPort := 0
  agentSecretHmac := []
  sharedTokenHmac := []

def twoTunnels : Broker :=
  { smallBroker with tunnels := [plainTunnel 1 true, plainTunnel 0 false], nextRef := 2 }

instance (n : ℕ) : Decidable (CounterFree n b) := by
  unfold CounterFree
  infer_instance

instance (op : StreamOp) : Decidable (CreateOk b op) := by
  cases op <;> unfold CreateOk <;> infer_instance

instance : Decidable (IdsUnique b) := by
  unfold IdsUnique
  infer_instance

theorem stream_ids_unique_open : ∃ tr b, Trace streamStep StreamInit tr b ∧
    b.streams.length = 2 ∧ IdsUnique b := by
  obtain ⟨tr, b, h, hok, hl⟩ := exists_trace streamStep StreamInit (s := twoTunnels)
    ⟨rfl, rfl, rfl⟩ [.createOpen 0, .createOpen 0, .close 2, .createOpen 0]
    (fun r => (∀ p ∈ r.1, CreateOk p.1 p.2) ∧ r.2.streams.length = 2) (by decide)
  exact ⟨tr, b, h, hl, (stream_ids_unique h hok).1⟩

/-- The first stream of either kind has the id 1. -/
theorem stream_ids_collide : ∃ tr b, Trace streamStep StreamInit tr b ∧
    b.streams.map Stream.id = [1, 1] ∧ ¬ IdsUnique b :=
  exists_run (s := twoTunnels) ⟨rfl, rfl, rfl⟩ [.createOpen 0, .createClosed 1 9] (by decide)

end TunnelMate
