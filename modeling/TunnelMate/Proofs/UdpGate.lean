import Mathlib.Data.List.Count
import TunnelMate.Proofs.UdpFlows

/-!
# The send gate of a UDP session

`pump_out` sets `inflight` whenever it has a record to send, whether or not `udp_send_raw` hands it
over.
-/

namespace TunnelMate.Udp

open List Option Table Nat

variable {cfg : BrokerCfg} {digest : Bytes → Digest} {ev : Event} {o : Option Ref}
  {p₀ p p' : Plane} {s : Ref} {a : PumpAns}

/-! ## Runs of `pump_out` -/

namespace Pump

variable (cfg : BrokerCfg) (q : Pump)

def record : Option (Option Queued) := (encrypt q.ans.ssl q.session).bind (·.wbio.head?)

def Taken : Prop :=
  q.record ≠ none → q.udpRawInflight < toU64 cfg.udpQueuePackets ∧ q.ans.send = true

def Whole : Prop := q.session.outq ≠ [] → q.ans.ssl = .whole

instance : Decidable (q.Taken cfg) := inferInstanceAs (Decidable (_ → _))

instance : Decidable q.Whole := inferInstanceAs (Decidable (_ → _))

end Pump

variable {x : Session} {v : Bool}

lemma pumpOut_cases (cfg : BrokerCfg) (s : Ref) (a : PumpAns)
    (hn : (p.sessions.map Keyed.key).Nodup) :
    (pumpOut cfg s a p = p ∧ ∀ x ∈ p.sessions, x.ref = s → x.inflight = true) ∨
    ∃ x ∈ p.sessions, x.ref = s ∧ x.inflight = false ∧ let q : Pump := ⟨x, p.udpRawInflight, a⟩
      (q.Taken cfg ∧ (q.Whole → x.outq = []) ∧
        pumpOut cfg s a p = { p with pumps := q :: p.pumps }) ∨
      ∃ y, y.ref = s ∧ y.inflight = true ∧
        let p₁ := { p.upd s (fun _ => y) with pumps := q :: p.pumps }
        (q.Taken cfg ∧ ∃ o, pumpOut cfg s a p = { p₁ with
          udpRawInflight := p.udpRawInflight + 1
          pending := some s :: p.pending
          sent := o :: p.sent }) ∨
        ¬ q.Taken cfg ∧ ∃ c, pumpOut cfg s a p = { p₁ with ctr := c } := by
  unfold pumpOut
  split
  · rename_i hx
    exact .inl ⟨rfl, fun x hm he => absurd he (get_none.1 hx x hm)⟩
  rename_i x hx
  have hm := mem_of_get hx
  have hs : x.ref = s := key_of_get hx
  split_ifs with hi
  · refine .inl ⟨rfl, fun y hy he => ?_⟩
    rw [eq_of_key hn hy hm (he.trans hs.symm)]
    exact hi
  refine .inr ⟨x, hm, hs, by simpa using hi, ?_⟩
  dsimp only
  have hself : p.upd s (fun _ => x) = p := by
    rw [Plane.upd, ← hs, show x.ref = Keyed.key x from rfl, upd_self hn hm]
  split
  · rename_i he
    refine .inl ⟨by simp [Pump.Taken, Pump.record, he], fun hw => ?_, rfl⟩
    by_contra hq
    have hwh : a.ssl = .whole := hw hq
    unfold encrypt at he
    rw [hwh] at he
    split at he <;> cases he
  rename_i y hy
  split
  · rename_i hb
    obtain ⟨rfl, hw⟩ | ⟨q, rest, -, rfl⟩ := encrypt_cases hy
    · refine .inl ⟨by simp [Pump.Taken, Pump.record, hy, hb], fun hwh => ?_, ?_⟩
      · by_contra hq
        exact hw hq (hwh hq)
      · rw [Plane.upd] at hself ⊢
        rw [show upd s (fun _ => y) p.sessions = p.sessions from
          congrArg Plane.sessions hself]
    · simp at hb
  · rename_i r rest hb
    have hrec : (⟨x, p.udpRawInflight, a⟩ : Pump).record = some r := by
      simp [Pump.record, hy, hb]
    have hkeep : y.ref = x.ref := by
      obtain ⟨rfl, -⟩ | ⟨q, rest, -, rfl⟩ := encrypt_cases hy <;> rfl
    refine .inr ⟨{ y with wbio := rest, inflight := true }, hkeep.trans hs, rfl, ?_⟩
    unfold udpSendRaw
    split_ifs with hcap hsend
    · refine .inr ⟨fun ht => ?_, _, rfl⟩
      exact absurd hcap (not_le.2 (ht (by simp [hrec])).1)
    · exact .inl ⟨fun _ => ⟨not_le.1 hcap, hsend⟩, _, rfl⟩
    · exact .inr ⟨fun ht => hsend (ht (by simp [hrec])).2, _, rfl⟩

/-! ## Flags and sends -/

structure Gauge where
  ref : Ref
  inflight : Bool

instance : Keyed Gauge := ⟨Gauge.ref⟩

def Session.gauge (x : Session) : Gauge := ⟨x.ref, x.inflight⟩

def Closing.gauge (x : Closing) : Gauge := ⟨x.ref, x.inflight⟩

def Plane.gauges (p : Plane) : List Gauge :=
  p.sessions.map Session.gauge ++ p.closing.map Closing.gauge

structure GateInv (cfg : BrokerCfg) (n : Ref) (gs : List Gauge) (pending : List (Option Ref))
    (raw : ℕ) (pumps : List Pump) : Prop where
  fresh : Table.Fresh n gs
  raw : raw = pending.length
  pend : ∀ s, some s ∈ pending → ⟨s, true⟩ ∈ gs ∧ pending.count (some s) = 1
  lost : ∀ q ∈ pumps, ¬ q.Taken cfg → ⟨q.session.ref, true⟩ ∈ gs ∧ some q.session.ref ∉ pending
  held : ∀ s, ⟨s, true⟩ ∈ gs → some s ∈ pending ∨ ∃ q ∈ pumps, ¬ q.Taken cfg ∧ q.session.ref = s

namespace GateInv

variable {n m : Ref} {gs gs' : List Gauge} {pending : List (Option Ref)} {raw : ℕ}
  {pumps : List Pump} {q : Pump}

lemma mem_set {t : Ref} {w : Bool} (hs : ∃ g ∈ gs, g.ref = s) :
    (⟨t, v⟩ : Gauge) ∈ upd s (fun _ => ⟨s, w⟩) gs ↔
      (t = s ∧ v = w) ∨ (t ≠ s ∧ ⟨t, v⟩ ∈ gs) := by
  rw [mem_upd]
  constructor
  · rintro ⟨g, hg, he⟩
    split_ifs at he with hk
    · exact .inl ⟨congrArg Gauge.ref he, congrArg Gauge.inflight he⟩
    · rw [← he] at hg hk
      exact .inr ⟨hk, hg⟩
  · rintro (⟨rfl, rfl⟩ | ⟨hne, hg⟩)
    · obtain ⟨g, hg, hk⟩ := hs
      exact ⟨g, hg, (if_pos hk).symm⟩
    · exact ⟨_, hg, (if_neg hne).symm⟩

section

variable (h : GateInv cfg n gs pending raw pumps)
include h

lemma perm (hp : gs'.Perm gs) : GateInv cfg n gs' pending raw pumps where
  fresh := h.fresh.perm hp
  raw := h.raw
  pend s hs := ⟨hp.mem_iff.2 (h.pend s hs).1, (h.pend s hs).2⟩
  lost q hq hn := ⟨hp.mem_iff.2 (h.lost q hq hn).1, (h.lost q hq hn).2⟩
  held s hs := h.held s (hp.mem_iff.1 hs)

lemma mono (hn : n ≤ m) : GateInv cfg m gs pending raw pumps :=
  { h with fresh := h.fresh.mono hn }

lemma clear (hg : ⟨s, false⟩ ∈ gs) :
    some s ∉ pending ∧ ∀ q ∈ pumps, ¬ q.Taken cfg → q.session.ref ≠ s := by
  have hno : (⟨s, true⟩ : Gauge) ∉ gs := fun ht => by
    have := eq_of_key h.fresh.nodup ht hg rfl
    simp at this
  refine ⟨fun hs => hno (h.pend s hs).1, fun q hq hn he => hno ?_⟩
  rw [← he]
  exact (h.lost q hq hn).1

lemma sendNone : GateInv cfg n gs (none :: pending) (raw + 1) pumps where
  fresh := h.fresh
  raw := by rw [h.raw, length_cons]
  pend s hs := by
    have hs : some s ∈ pending := by simpa using hs
    exact ⟨(h.pend s hs).1, by rw [count_cons_of_ne (by simp), (h.pend s hs).2]⟩
  lost q hq hn := ⟨(h.lost q hq hn).1, by simpa using (h.lost q hq hn).2⟩
  held s hs := (h.held s hs).imp_left (mem_cons_of_mem _)

lemma pumpNone (hq : q.Taken cfg) : GateInv cfg n gs pending raw (q :: pumps) where
  fresh := h.fresh
  raw := h.raw
  pend := h.pend
  lost q' hq' hn := by
    rcases mem_cons.1 hq' with rfl | hq'
    · exact absurd hq hn
    · exact h.lost q' hq' hn
  held s hs := by
    refine (h.held s hs).imp_right ?_
    rintro ⟨q', hq', hr⟩
    exact ⟨q', mem_cons_of_mem _ hq', hr⟩

lemma freshSet : Table.Fresh n (upd s (fun _ => ⟨s, v⟩) gs) :=
  h.fresh.upd fun _ _ _ => rfl

lemma send (hg : ⟨s, false⟩ ∈ gs) (hq : q.Taken cfg) :
    GateInv cfg n (upd s (fun _ => ⟨s, true⟩) gs) (some s :: pending) (raw + 1)
      (q :: pumps) := by
  have hs : ∃ g ∈ gs, g.ref = s := ⟨_, hg, rfl⟩
  obtain ⟨hno, hne⟩ := h.clear hg
  refine ⟨h.freshSet, by rw [h.raw, length_cons], fun t ht => ?_, fun q' hq' hn => ?_,
    fun t ht => ?_⟩
  · by_cases he : t = s
    · rw [he, count_cons_self, count_eq_zero_of_not_mem hno]
      exact ⟨(mem_set hs).2 (.inl ⟨rfl, rfl⟩), rfl⟩
    · have ht : some t ∈ pending := by simpa [he] using ht
      refine ⟨(mem_set hs).2 (.inr ⟨he, (h.pend t ht).1⟩), ?_⟩
      rw [count_cons_of_ne (by simpa using Ne.symm he), (h.pend t ht).2]
  · rcases mem_cons.1 hq' with rfl | hq'
    · exact absurd hq hn
    · have hr := hne q' hq' hn
      exact ⟨(mem_set hs).2 (.inr ⟨hr, (h.lost q' hq' hn).1⟩),
        by simpa [hr] using (h.lost q' hq' hn).2⟩
  · obtain ⟨rfl, -⟩ | ⟨-, ht⟩ := (mem_set hs).1 ht
    · exact .inl mem_cons_self
    · refine (h.held t ht).imp (mem_cons_of_mem _) ?_
      rintro ⟨q', hq', hr⟩
      exact ⟨q', mem_cons_of_mem _ hq', hr⟩

lemma lose (hg : ⟨s, false⟩ ∈ gs) (hq : ¬ q.Taken cfg) (hr : q.session.ref = s) :
    GateInv cfg n (upd s (fun _ => ⟨s, true⟩) gs) pending raw (q :: pumps) := by
  have hs : ∃ g ∈ gs, g.ref = s := ⟨_, hg, rfl⟩
  obtain ⟨hno, hne⟩ := h.clear hg
  refine ⟨h.freshSet, h.raw, fun t ht => ?_, fun q' hq' hn => ?_, fun t ht => ?_⟩
  · have he : t ≠ s := fun he => hno (he ▸ ht)
    exact ⟨(mem_set hs).2 (.inr ⟨he, (h.pend t ht).1⟩), (h.pend t ht).2⟩
  · rcases mem_cons.1 hq' with rfl | hq'
    · rw [hr]
      exact ⟨(mem_set hs).2 (.inl ⟨rfl, rfl⟩), hno⟩
    · exact ⟨(mem_set hs).2 (.inr ⟨hne q' hq' hn, (h.lost q' hq' hn).1⟩), (h.lost q' hq' hn).2⟩
  · obtain ⟨rfl, -⟩ | ⟨-, ht⟩ := (mem_set hs).1 ht
    · exact .inr ⟨q, mem_cons_self, hq, hr⟩
    · refine (h.held t ht).imp_right ?_
      rintro ⟨q', hq', hr⟩
      exact ⟨q', mem_cons_of_mem _ hq', hr⟩

lemma doneNone (hs : none ∈ pending) : GateInv cfg n gs (pending.erase none) (raw - 1) pumps where
  fresh := h.fresh
  raw := by rw [h.raw, length_erase_of_mem hs]
  pend s hs := by
    have hs := (h.pend s (mem_of_mem_erase hs))
    exact ⟨hs.1, by rw [count_erase_of_ne (by simp), hs.2]⟩
  lost q hq hn := ⟨(h.lost q hq hn).1, fun he => (h.lost q hq hn).2 (mem_of_mem_erase he)⟩
  held s hs := (h.held s hs).imp_left fun hs => (mem_erase_of_ne (by simp)).2 hs

lemma done (hs : some s ∈ pending) :
    GateInv cfg n (upd s (fun _ => ⟨s, false⟩) gs) (pending.erase (some s)) (raw - 1)
      pumps := by
  have hg : ∃ g ∈ gs, g.ref = s := ⟨_, (h.pend s hs).1, rfl⟩
  have hno : some s ∉ pending.erase (some s) := by
    rw [← count_eq_zero, count_erase_self, (h.pend s hs).2]
  refine ⟨h.freshSet, by rw [h.raw, length_erase_of_mem hs], fun t ht => ?_,
    fun q hq hn => ?_, fun t ht => ?_⟩
  · have he : t ≠ s := fun he => hno (he ▸ ht)
    have ht := h.pend t (mem_of_mem_erase ht)
    refine ⟨(mem_set hg).2 (.inr ⟨he, ht.1⟩), ?_⟩
    rw [count_erase_of_ne (by simpa using he), ht.2]
  · obtain ⟨hl, hp⟩ := h.lost q hq hn
    have he : q.session.ref ≠ s := fun he => hp (he ▸ hs)
    exact ⟨(mem_set hg).2 (.inr ⟨he, hl⟩), fun hm => hp (mem_of_mem_erase hm)⟩
  · obtain ⟨-, he⟩ | ⟨he, ht⟩ := (mem_set hg).1 ht
    · cases he
    · exact (h.held t ht).imp_left fun hm => (mem_erase_of_ne (by simpa using he)).2 hm

lemma free (hg : ⟨s, false⟩ ∈ gs) : GateInv cfg n (del s gs) pending raw pumps := by
  obtain ⟨hno, hne⟩ := h.clear hg
  refine ⟨h.fresh.del, h.raw, fun t ht => ⟨?_, (h.pend t ht).2⟩, fun q hq hn => ⟨?_, ?_⟩,
    fun t ht => h.held t (mem_del.1 ht).1⟩
  · exact mem_del.2 ⟨(h.pend t ht).1, fun he => hno (he ▸ ht)⟩
  · exact mem_del.2 ⟨(h.lost q hq hn).1, hne q hq hn⟩
  · exact (h.lost q hq hn).2

lemma create : GateInv cfg (n + 1) (⟨n, false⟩ :: gs) pending raw pumps where
  fresh := h.fresh.cons rfl
  raw := h.raw
  pend s hs := ⟨mem_cons_of_mem _ (h.pend s hs).1, (h.pend s hs).2⟩
  lost q hq hn := ⟨mem_cons_of_mem _ (h.lost q hq hn).1, (h.lost q hq hn).2⟩
  held s hs := h.held s (by simpa using hs)

end

end GateInv

/-! ## The moves -/

variable {f : Session → Session}

section Gauges

lemma gauges_upd (hf : ∀ x, (f x).ref = x.ref)
    (hi : ∀ x, (f x).inflight = x.inflight) : (p.upd s f).gauges = p.gauges := by
  have h : (upd s f p.sessions).map Session.gauge = p.sessions.map Session.gauge :=
    map_upd fun x _ _ => by simp [Session.gauge, hf, hi]
  simp [Plane.gauges, Plane.upd, h]

lemma map_gauge_upd {α : Type*} [Keyed α] {g : α → Gauge} (hg : ∀ x, (g x).ref = Keyed.key x)
    {f : α → α} (xs : List α) (hf : ∀ x ∈ xs, Keyed.key x = s → g (f x) = ⟨s, v⟩) :
    (Table.upd s f xs).map g = Table.upd s (fun _ => ⟨s, v⟩) (xs.map g) := by
  rw [Table.upd, Table.upd, List.map_map, List.map_map]
  refine map_congr_left fun x hx => ?_
  have hk : Keyed.key (g x) = Keyed.key x := hg x
  by_cases he : Keyed.key x = s
  · simp [hk, he, hf x hx he]
  · simp [hk, he]

variable {n : Ref} (hf : Table.Fresh n p.gauges)

include hf

lemma nodup_sessions : (p.sessions.map Keyed.key).Nodup := by
  have := hf.nodup
  rw [Plane.gauges, map_append, List.map_map] at this
  exact this.of_append_left

lemma nodup_closing : (p.closing.map Keyed.key).Nodup := by
  have := hf.nodup
  rw [Plane.gauges, map_append, List.map_map, List.map_map] at this
  exact this.of_append_right

variable {y : Closing}

lemma ref_ne (hx : x ∈ p.sessions) (hy : y ∈ p.closing) : x.ref ≠ y.ref := by
  have := hf.nodup
  rw [Plane.gauges, map_append, nodup_append] at this
  exact this.2.2 _ (mem_map_of_mem (mem_map_of_mem hx)) _ (mem_map_of_mem (mem_map_of_mem hy))

lemma gauges_set (hx : x ∈ p.sessions)
    (hs : x.ref = s) (hv : ∀ x, x.ref = s → (f x).gauge = ⟨s, v⟩) :
    (p.upd s f).gauges = upd s (fun _ => ⟨s, v⟩) p.gauges := by
  have h1 := map_gauge_upd (s := s) (g := Session.gauge) (fun _ => rfl) (f := f) (v := v) p.sessions
    fun x _ he => hv x he
  have h2 : upd s (fun _ => ⟨s, v⟩) (p.closing.map Closing.gauge) =
      p.closing.map Closing.gauge := by
    refine upd_of_ne fun g hg he => ?_
    obtain ⟨y, hy, rfl⟩ := mem_map.1 hg
    exact ref_ne hf hx hy (hs.trans he.symm)
  change (upd s f p.sessions).map Session.gauge ++ p.closing.map Closing.gauge = _
  rw [h1, Plane.gauges]
  nth_rewrite 1 [← h2]
  rw [upd, upd, upd, map_append]

lemma gauges_setClosing {f : Closing → Closing} (hy : y ∈ p.closing)
    (hs : y.ref = s) (hv : ∀ y ∈ p.closing, y.ref = s → (f y).gauge = ⟨s, v⟩) :
    ({ p with closing := upd s f p.closing } : Plane).gauges =
      upd s (fun _ => ⟨s, v⟩) p.gauges := by
  have h1 := map_gauge_upd (s := s) (g := Closing.gauge) (fun _ => rfl) (f := f) (v := v) p.closing
    hv
  have h2 : upd s (fun _ => ⟨s, v⟩) (p.sessions.map Session.gauge) = p.sessions.map Session.gauge := by
    refine upd_of_ne fun g hg he => ?_
    obtain ⟨x, hx, rfl⟩ := mem_map.1 hg
    exact ref_ne hf hx hy (.trans he hs.symm)
  change p.sessions.map Session.gauge ++ (upd s f p.closing).map Closing.gauge = _
  rw [h1, Plane.gauges]
  nth_rewrite 1 [← h2]
  rw [upd, upd, upd, map_append]

lemma gauges_delClosing (hy : y ∈ p.closing) (hs : y.ref = s) :
    ({ p with closing := del s p.closing } : Plane).gauges = del s p.gauges := by
  have h1 : (del s p.closing).map Closing.gauge =
      del s (p.closing.map Closing.gauge) := by
    rw [Table.del, Table.del, List.filter_map]
    rfl
  have h2 : del s (p.sessions.map Session.gauge) = p.sessions.map Session.gauge := by
    refine del_of_ne fun g hg he => ?_
    obtain ⟨x, hx, rfl⟩ := mem_map.1 hg
    exact ref_ne hf hx hy (.trans he hs.symm)
  change p.sessions.map Session.gauge ++ (del s p.closing).map Closing.gauge = _
  rw [h1, Plane.gauges]
  nth_rewrite 1 [← h2]
  rw [del, del, del, filter_append]

lemma gauges_close : (tmUdpSessionClose s p).gauges.Perm p.gauges := by
  unfold tmUdpSessionClose
  split
  · exact .refl _
  · rename_i x hx
    have hs : x.ref = s := key_of_get hx
    have hp := (perm_del (nodup_sessions hf) (mem_of_get hx)).map Session.gauge
    rw [key_session, hs] at hp
    refine .trans ?_ (hp.append_right _)
    simp only [Plane.gauges, map_cons, Session.gauge, hs, Closing.gauge, cons_append]
    exact perm_middle

end Gauges

def Gated (cfg : BrokerCfg) (p : Plane) : Prop :=
  GateInv cfg p.nextRef p.gauges p.pending p.udpRawInflight p.pumps

def Queues (p : Plane) (s : Option Ref) : Prop :=
  ∀ x ∈ p.sessions, some x.ref ≠ s → x.outq ≠ [] → x.inflight = true ∨ ∃ q ∈ p.pumps, ¬ q.Whole

lemma Queues.upd (h : Queues p none) {o : Option Ref} (hf : ∀ x, (f x).ref = x.ref)
    (hi : o = some s ∨ ∀ x, (f x).inflight = x.inflight ∧ (f x).outq = x.outq) :
    Queues (p.upd s f) o := by
  refine forall_upd (fun x hx _ _ hq => h x hx (by simp) hq) fun x hx he hne hq => ?_
  rcases hi with rfl | hi
  · rw [hf] at hne
    exact absurd (congrArg some he) hne
  · rw [(hi x).2] at hq
    rw [(hi x).1]
    exact h x hx (by simp) hq

section

variable (h : Gated cfg p)
include h

lemma Gated.upd (hf : ∀ x, (f x).ref = x.ref)
    (hi : ∀ x, (f x).inflight = x.inflight) : Gated cfg (p.upd s f) := by
  unfold Gated
  rw [gauges_upd hf hi]
  exact h

lemma Gated.pumpOut (hq : Queues p (some s)) :
    Gated cfg (pumpOut cfg s a p) ∧ Queues (pumpOut cfg s a p) none := by
  have hold : ∀ {x : Session} {q : Pump}, x ∈ p.sessions → x.ref ≠ s → x.outq ≠ [] →
      x.inflight = true ∨ ∃ q' ∈ q :: p.pumps, ¬ q'.Whole := fun hx hr hn => by
    refine (hq _ hx (by simpa using hr) hn).imp_right ?_
    rintro ⟨q', hq', hw⟩
    exact ⟨q', mem_cons_of_mem _ hq', hw⟩
  have hn := nodup_sessions h.fresh
  obtain ⟨he, hi⟩ | ⟨x, hx, hs, hi, hc⟩ := pumpOut_cases cfg s a hn
  · rw [he]
    refine ⟨h, fun x hx _ hne => ?_⟩
    by_cases hr : x.ref = s
    · exact .inl (hi x hx hr)
    · exact hq x hx (by simpa using hr) hne
  dsimp only at hc
  obtain ⟨ht, hw, he⟩ | ⟨y, hr, hy, hc⟩ := hc
  · rw [he]
    refine ⟨.pumpNone h ht, fun z hz _ hne => ?_⟩
    by_cases hzs : z.ref = s
    · obtain rfl : z = x := eq_of_key hn hz hx (hzs.trans hs.symm)
      exact .inr ⟨_, mem_cons_self, fun hwh => hne (hw hwh)⟩
    · exact hold hz hzs hne
  have hg : (⟨s, false⟩ : Gauge) ∈ p.gauges := by
    refine mem_append_left _ (mem_map.2 ⟨x, hx, ?_⟩)
    rw [Session.gauge, hs, hi]
  have hset : (p.upd s fun _ => y).gauges = Table.upd s (fun _ => ⟨s, true⟩) p.gauges :=
    gauges_set h.fresh hx hs fun _ _ => by rw [Session.gauge, hr, hy]
  have hqueue : ∀ z ∈ Table.upd s (fun _ => y) p.sessions, some z.ref ≠ none → z.outq ≠ [] →
      z.inflight = true ∨ ∃ q' ∈ (⟨x, p.udpRawInflight, a⟩ : Pump) :: p.pumps, ¬ q'.Whole :=
    forall_upd (fun z hz hr _ hne => hold hz hr hne) fun _ _ _ _ _ => .inl hy
  obtain ⟨ht, o, he⟩ | ⟨ht, c, he⟩ := hc
  · rw [he]
    refine ⟨?_, hqueue⟩
    change GateInv cfg p.nextRef (p.upd s fun _ => y).gauges _ _ _
    rw [hset]
    exact .send h hg ht
  · rw [he]
    refine ⟨?_, hqueue⟩
    change GateInv cfg p.nextRef (p.upd s fun _ => y).gauges _ _ _
    rw [hset]
    exact .lose h hg ht hs

lemma Gated.close : Gated cfg (tmUdpSessionClose s p) := by
  have hp := GateInv.perm h (gauges_close h.fresh (s := s))
  unfold Gated
  generalize hg : (tmUdpSessionClose s p).gauges = gs at hp ⊢
  unfold tmUdpSessionClose
  split <;> exact hp

omit h in
lemma Queues.close (h : Queues p none) : Queues (tmUdpSessionClose s p) none := by
  unfold tmUdpSessionClose
  split
  · exact h
  · exact fun x hx => h x (mem_del.1 hx).1

lemma Gated.maybeFree : Gated cfg (sessionMaybeFree s p) := by
  unfold sessionMaybeFree
  split
  · exact h
  · rename_i y hy
    have hm := mem_of_get hy
    have hs : y.ref = s := key_of_get hy
    split_ifs with hc
    · exact h
    · have hi : y.inflight = false := by
        cases hyi : y.inflight
        · rfl
        · simp [hyi] at hc
      unfold Gated
      rw [gauges_delClosing h.fresh hm hs]
      refine .free h (mem_append_right _ (mem_map.2 ⟨y, hm, ?_⟩))
      rw [Closing.gauge, hs, hi]

lemma Gated.done (hq : Queues p none) {s : Option Ref} (hs : s ∈ p.pending) :
    Gated cfg (sendDone cfg s a p) ∧ Queues (sendDone cfg s a p) none := by
  unfold sendDone
  dsimp only
  split
  · exact ⟨.doneNone h hs, hq⟩
  rename_i s
  have hd := GateInv.done h hs
  split_ifs with hc
  · obtain ⟨y, hy⟩ := isSome_iff_exists.1 hc
    have hm := mem_of_get hy
    have hr : y.ref = s := key_of_get hy
    refine ⟨.maybeFree ?_, by rw [sessionMaybeFree_eq]; exact hq⟩
    rw [← gauges_setClosing h.fresh hm hr (f := fun x => { x with inflight := false })
      fun y _ he => by rw [Closing.gauge, he]] at hd
    exact hd
  · refine Gated.pumpOut ?_ (Queues.upd hq (fun _ => rfl) (.inl rfl))
    -- the session of a send exists, and it is not closing
    obtain ⟨x, hx, hr⟩ : ∃ x ∈ p.sessions, x.ref = s := by
      rcases mem_append.1 (h.pend s hs).1 with hm | hm
      · obtain ⟨x, hx, he⟩ := mem_map.1 hm
        exact ⟨x, hx, congrArg Gauge.ref he⟩
      · obtain ⟨y, hy, he⟩ := mem_map.1 hm
        have hget := get_of_mem (nodup_closing h.fresh) hy
        rw [show Keyed.key y = s from congrArg Gauge.ref he] at hget
        exact absurd (by rw [hget]; rfl) hc
    rw [← gauges_set h.fresh hx hr (f := fun x => { x with inflight := false })
      fun x he => by rw [Session.gauge, he]] at hd
    exact hd

lemma Gated.timerClosed : Gated cfg (sessionTimerClosed s p) := by
  refine .maybeFree ?_
  have hg : ({ p with closing := Table.upd s (fun x => { x with timerClosed := true }) p.closing } :
      Plane).gauges = p.gauges := by
    have hc : (Table.upd s (fun x : Closing => { x with timerClosed := true }) p.closing).map
        Closing.gauge = p.closing.map Closing.gauge := map_upd fun _ _ _ => rfl
    rw [Plane.gauges, Plane.gauges, hc]
  unfold Gated
  rw [hg]
  exact h

end

lemma Gated.sessionQueue (hg : Gated cfg p) (hq : Queues p none) {q : Queued} :
    Gated cfg (sessionQueue cfg s q a p) ∧ Queues (sessionQueue cfg s q a p) none := by
  refine sessionQueue_rule (I := fun p => Gated cfg p ∧ Queues p none) ⟨hg, hq⟩
    (fun _ => ⟨hg, hq⟩) (Gated.pumpOut ?_ ?_)
  · exact hg.upd (fun _ => rfl) fun _ => rfl
  · exact hq.upd (fun _ => rfl) (.inl rfl)

lemma Turn.gated (ht : Turn cfg p₀ ev o p p') (h : Gated cfg p ∧ Queues p none) :
    Gated cfg p' ∧ Queues p' none := by
  obtain ⟨hg, hq⟩ := h
  cases ht with
  | relay ha =>
    cases ha with
    | count | touch => exact ⟨hg, hq⟩
    | flow => exact ⟨.mono hg (le_succ _), hq⟩
    | toAgent | toPeer => exact hg.sessionQueue hq
    | toClient =>
      unfold udpSendRaw
      split_ifs
      · exact ⟨hg, hq⟩
      · exact ⟨.sendNone hg, hq⟩
      · exact ⟨hg, hq⟩
  | flags hf =>
    exact ⟨hg.upd (fun x => (hf x).1) fun x => (hf x).2.2.1,
      hq.upd (fun x => (hf x).1) (.inr fun x => ⟨(hf x).2.2.1, (hf x).2.2.2.1⟩)⟩
  | pump => exact hg.pumpOut fun x hx _ => hq x hx (by simp)
  | answer => exact hg.sessionQueue hq
  | become | flowIdle => exact ⟨hg, hq⟩
  | replace | expire => exact ⟨hg.close, hq.close⟩
  | create =>
    refine ⟨GateInv.create hg, fun x hx _ hne => ?_⟩
    rcases mem_cons.1 hx with rfl | hx
    · exact absurd rfl hne
    · exact hq x hx (by simp) hne
  | done hs => exact hg.done hq hs
  | timerClosed =>
    refine ⟨hg.timerClosed, ?_⟩
    rw [sessionTimerClosed, sessionMaybeFree_eq]
    exact hq
  | stop =>
    refine ⟨?_, by simp [Queues, tmUdpStop]⟩
    have hgs : (tmUdpStop p).gauges = p.gauges := by
      simp [Plane.gauges, tmUdpStop, Session.gauge, Closing.gauge, Function.comp_def]
    unfold Gated
    rw [hgs]
    exact hg

lemma Gated.init : Gated cfg {} ∧ Queues {} none :=
  ⟨⟨.nil, rfl, by simp, by simp, by simp [Plane.gauges]⟩, by simp [Queues]⟩

lemma Gated.of_trace {tr : List (Plane × Label)} (h : Trace (step cfg digest) Init tr p) :
    Gated cfg p ∧ Queues p none := by
  refine h.inv (I := fun p => Gated cfg p ∧ Queues p none) ?_ ?_
  · rintro _ rfl
    exact Gated.init
  · intro p l q hg hs
    obtain ⟨-, o, ht⟩ := step_turns hs
    exact ht.inv (fun _ _ ht h => ht.gated h) hg

/-! ## The gate -/

def GateOk (p : Plane) : Prop :=
  ∀ x ∈ p.gauges, x.inflight = true ↔ p.pending.count (some x.ref) = 1

instance (p : Plane) : Decidable (GateOk p) :=
  inferInstanceAs (Decidable (∀ x ∈ p.gauges, _))

/-- In every run `udp_raw_inflight` counts the outstanding sends and no session has two; the flags
are right exactly if every record that `pump_out` took was handed over. -/
theorem send_gate {tr : List (Plane × Label)} (h : Trace (step cfg digest) Init tr p) :
    p.udpRawInflight = p.pending.length ∧ (∀ s, p.pending.count (some s) ≤ 1) ∧
    ((∀ q ∈ p.pumps, q.Taken cfg) ↔ GateOk p) ∧ ((∀ q ∈ p.pumps, q.Taken cfg ∧ q.Whole) →
      ∀ x ∈ p.sessions, x.outq ≠ [] → some x.ref ∈ p.pending) := by
  obtain ⟨hg, hq⟩ := Gated.of_trace h
  have hsend : (∀ q ∈ p.pumps, q.Taken cfg) → ∀ s, ⟨s, true⟩ ∈ p.gauges → some s ∈ p.pending := by
    intro ht s hs
    rcases hg.held s hs with hp | ⟨q, hq, hn, -⟩
    · exact hp
    · exact absurd (ht q hq) hn
  refine ⟨hg.raw, fun s => ?_, ⟨fun ht x hx => ⟨fun hi => ?_, fun hc => ?_⟩, fun hok q hq => ?_⟩,
    fun ht x hx hne => ?_⟩
  · by_cases hs : some s ∈ p.pending
    · rw [(hg.pend s hs).2]
    · rw [count_eq_zero_of_not_mem hs]
      exact zero_le _
  · have hx' : (⟨x.ref, true⟩ : Gauge) ∈ p.gauges := by rw [← hi]; exact hx
    exact (hg.pend _ (hsend ht _ hx')).2
  · have hs : some x.ref ∈ p.pending := count_pos_iff.1 (by rw [hc]; exact one_pos)
    rw [eq_of_key hg.fresh.nodup hx (hg.pend _ hs).1 rfl]
  · -- a lost record leaves a flag that no send stands for
    by_contra hn
    obtain ⟨hl, hno⟩ := hg.lost q hq hn
    have := (hok _ hl).1 rfl
    rw [count_eq_zero_of_not_mem hno] at this
    cases this
  · have hx' : (⟨x.ref, x.inflight⟩ : Gauge) ∈ p.gauges := mem_append_left _ (mem_map_of_mem hx)
    rcases hq x hx (by simp) hne with hi | ⟨q, hq, hw⟩
    · rw [hi] at hx'
      exact hsend (fun q hq => (ht q hq).1) _ hx'
    · exact absurd (ht q hq).2 hw

theorem send_gate_two : ∃ tr p, Trace (step {} zeroDigest) Init tr p ∧
    (∀ q ∈ p.pumps, q.Taken {}) ∧ p.pumps.length = 2 ∧ GateOk p := by
  obtain ⟨tr, p, h, ht, hl⟩ := exists_trace (step {} zeroDigest) Init rfl
    [agentSends (tmEnvEncode 0 2 [1]), clientAt 0,
      { now := 0, loop := 0, creds := zeroCreds, ev := .sendDone (some 0) whole }]
    (fun r => (∀ q ∈ r.2.pumps, q.Taken {}) ∧ r.2.pumps.length = 2) (by decide)
  exact ⟨tr, p, h, ht, hl, (send_gate h).2.2.1.1 ht⟩

/-- `uv_udp_send` refuses the answer to the agent, and a client's datagram waits for good; with a
cap of one send, a second session loses its first record. -/
theorem send_gate_lost : (∃ tr p, Trace (step {} zeroDigest) Init tr p ∧ ¬ GateOk p ∧
      ∃ x ∈ p.sessions, x.outq ≠ [] ∧ some x.ref ∉ p.pending) ∧
    ∃ tr p, Trace (step { udpQueuePackets := 1 } zeroDigest) Init tr p ∧ ¬ GateOk p := by
  constructor
  · exact exists_run rfl
      [{ now := 0, loop := 0, creds := zeroCreds,
         ev := .packet { family := .inet, ip := [10, 0, 0, 2], port := 6000 }
           (22 :: 0xfe :: .replicate 11 0xfd) (.done 0)
           [(tmEnvEncode 0 2 [1], { ssl := .whole, send := false })] whole },
       clientAt 0] (by decide)
  · exact exists_run rfl
      [agentSends (tmEnvEncode 0 2 [1]),
       { now := 0, loop := 0, creds := zeroCreds,
         ev := .packet client (22 :: 0xfe :: .replicate 11 0xfd) (.want 1) [] whole }]
      (by decide)

/-- A `send_done` to come finds its session: listed or closing, and waiting for it. -/
theorem send_owned {tr} (h : Trace (step cfg digest) Init tr p) (hs : some s ∈ p.pending) :
    ⟨s, true⟩ ∈ p.gauges :=
  ((Gated.of_trace h).1.pend s hs).1

theorem send_owned_one : ∃ tr p, Trace (step {} zeroDigest) Init tr p ∧
    some 0 ∈ p.pending ∧ ⟨0, true⟩ ∈ p.gauges := by
  obtain ⟨tr, p, h, hs⟩ := exists_trace (step {} zeroDigest) Init rfl
    [agentSends (tmEnvEncode 0 2 [1])] (fun r => some 0 ∈ r.2.pending) (by decide)
  exact ⟨tr, p, h, hs, send_owned h hs⟩

end TunnelMate.Udp
