import Mathlib.Algebra.BigOperators.Group.Finset.Basic
import TunnelMate.Proofs.Steps

/-!
# The counts of streams

`streams_active` of a tunnel counts its streams and `stream_count` all of them.
-/

namespace TunnelMate

open List Table Broker

def Broker.streamsOf (b : Broker) (T : Ref) : ℕ := b.streams.countP (·.tun = T)

structure Counted (b : Broker) : Prop where
  active : ∀ t ∈ b.tunnels, t.streamsActive = b.streamsOf t.ref
  total : b.streamCount = b.streams.length
  activeMax : ∀ t ∈ b.tunnels, t.streamsActive ≤ max 0 b.cfg.maxStreamsPerTunnel
  totalMax : b.streamCount ≤ max 0 b.cfg.maxStreams

variable {T : Ref} {id : ℕ} {s : Duplex.Stream} {sock : Sock}

namespace Counted

variable {digest : Bytes → Digest} {b₀ b b' : Broker} {e : BrokerEvent}

lemma init (h : BrokerInit b) : Counted b := by
  obtain ⟨cfg, -, rfl⟩ := h
  exact ⟨by simp, rfl, by simp, by simp⟩

section

variable (h : Counted b)
include h

lemma of_same (hf : b'.cfg = b.cfg)
    (ht : ∀ t ∈ b'.tunnels, ∃ u ∈ b.tunnels, u.ref = t.ref ∧ u.streamsActive = t.streamsActive)
    (hs : b'.streams.map Stream.tun = b.streams.map Stream.tun)
    (hn : b'.streamCount = b.streamCount) : Counted b' := by
  have hlen : b'.streams.length = b.streams.length := by
    simpa using congrArg length hs
  have hof : ∀ T, b'.streamsOf T = b.streamsOf T := fun T => by
    have := congrArg (countP (· = T)) hs
    rwa [countP_map, countP_map] at this
  refine ⟨fun t hm => ?_, ?_, fun t hm => ?_, ?_⟩
  · obtain ⟨u, hu, hr, ha⟩ := ht t hm
    rw [← ha, ← hr, hof]
    exact h.active u hu
  · rw [hn, hlen]
    exact h.total
  · obtain ⟨u, hu, -, ha⟩ := ht t hm
    rw [← ha, hf]
    exact h.activeMax u hu
  · rw [hn, hf]
    exact h.totalMax

lemma updTun {f : Tunnel → Tunnel}
    (hf : ∀ t ∈ b.tunnels, t.ref = T → (f t).ref = t.ref ∧ (f t).streamsActive = t.streamsActive) :
    Counted (b.updTun T f) := by
  refine h.of_same rfl (fun t ht => ?_) rfl rfl
  obtain ⟨u, hu, rfl⟩ := mem_upd.1 ht
  refine ⟨u, hu, ?_⟩
  split_ifs with he
  · exact ⟨(hf u hu he).1.symm, (hf u hu he).2.symm⟩
  · exact ⟨rfl, rfl⟩

lemma link {t : Tunnel} (hw : Wf b) (ht : t ∈ b.tunnels) (hf : streamsFull t b = false) :
    Counted (streamLink t.ref id sock s b).2 := by
  unfold streamsFull at hf
  rw [Bool.or_eq_false_iff, decide_eq_false_iff_not, decide_eq_false_iff_not] at hf
  obtain ⟨hn, ha⟩ := hf
  have hof : ∀ T, (streamLink t.ref id sock s b).2.streamsOf T =
      b.streamsOf T + if t.ref = T then 1 else 0 := fun T => by
    simp [streamLink, streamsOf, countP_cons]
  refine ⟨?_, ?_, ?_, ?_⟩
  · refine forall_upd (fun u hu hne => ?_) fun u hu he => ?_
    · have hne' : t.ref ≠ u.ref := .symm hne
      rw [hof, if_neg hne', add_zero]
      exact h.active u hu
    · have he' : t.ref = u.ref := .symm he
      rw [hof]
      rw [if_pos he', h.active u hu]
      push_cast
      rfl
  · have := congrArg (· + 1) h.total
    simpa [streamLink] using this
  · refine forall_upd (fun u hu _ => h.activeMax u hu) fun u hu he => ?_
    rw [hw.tunnel_eq ht hu he]
    exact (Int.add_one_le_of_lt (not_le.1 ha)).trans (le_max_right _ _)
  · exact (Int.add_one_le_of_lt (not_le.1 hn)).trans (le_max_right _ _)

lemma closeStream (hw : Wf b) {x : Stream} (hx : x ∈ b.streams) : Counted (b.streamGone x) := by
  have hperm : (x :: del x.ref b.streams).Perm b.streams := perm_del hw.streams.nodup hx
  have hlen := hperm.length_eq
  rw [length_cons] at hlen
  have hof : ∀ T, (del x.ref b.streams).countP (·.tun = T) +
      (if x.tun = T then 1 else 0) = b.streamsOf T := fun T => by
    rw [streamsOf, ← hperm.countP_eq, countP_cons]
    simp
  refine ⟨?_, ?_, ?_, ?_⟩
  · refine forall_upd (fun u hu hne => ?_) fun u hu he => ?_
    · have hne' : x.tun ≠ u.ref := .symm hne
      have hc := hof u.ref
      rw [if_neg hne', add_zero] at hc
      rw [h.active u hu, ← hc]
      rfl
    · have he' : x.tun = u.ref := .symm he
      have hc := hof u.ref
      rw [if_pos he'] at hc
      have ha := h.active u hu
      dsimp only [streamsOf, streamGone] at hc ha ⊢
      omega
  · have := h.total
    dsimp only [streamGone]
    omega
  · refine forall_upd (fun u hu _ => h.activeMax u hu) fun u hu _ => ?_
    refine (sub_le_self _ ?_).trans (h.activeMax u hu)
    split_ifs <;> decide
  · exact (sub_le_self _ zero_le_one).trans h.totalMax

end

lemma move (hm : Move digest b₀ e b b') (hw : Wf b) (h : Counted b) : Counted b' := by
  cases hm with
  | misc he =>
    obtain ⟨hf, -, ht, -, -, hs, -, -, hn, -⟩ := core_eq.1 he
    exact h.of_same hf (fun t hm => ⟨t, ht ▸ hm, rfl, rfl⟩) (by rw [hs]) hn
  | tunnel hf hk => exact h.updTun fun t ht he => ⟨(hf t ht he).ref, (hk t ht he).active⟩
  | @dropAgent x =>
    have h' := h.updTun (T := x.tun) (f := fun t => { t with
      agent := if t.agent = some x.ref then none else t.agent
      agentOnline := if t.agent = some x.ref then false else t.agentOnline })
      fun _ _ _ => ⟨rfl, rfl⟩
    exact { h' with }
  | @addAgent c T =>
    have h' := h.updTun (T := T) (f := fun t =>
      { t with agent := some b.nextRef, agentOnline := true }) fun _ _ _ => ⟨rfl, rfl⟩
    exact { h' with }
  | openStream ht _ _ _ hf => exact h.link hw ht hf
  | peerStream _ _ ht _ _ _ hf =>
    exact (h.link hw ht hf).of_same rfl (fun t ht => ⟨t, ht, rfl, rfl⟩) rfl rfl
  | closeStream hx => exact h.closeStream hw hx
  | relay _ _ _ _ | attach _ _ _ _ =>
    exact h.of_same rfl (fun t ht => ⟨t, ht, rfl, rfl⟩) (map_upd fun _ _ _ => rfl) rfl
  | @addTunnel t ports hc =>
    have h0 : b.streamsOf t.ref = 0 := countP_eq_zero.2 fun st hst hT => by
      obtain ⟨u, hu, -, hr⟩ := hw.streamTun st hst
      have hlt := hw.tunnels.lt u hu
      rw [key_tunnel, hr, of_decide_eq_true hT, hc.ref] at hlt
      exact Nat.lt_irrefl _ hlt
    refine ⟨forall_mem_cons.2 ⟨?_, h.active⟩, h.total,
      forall_mem_cons.2 ⟨?_, h.activeMax⟩, h.totalMax⟩
    · rw [hc.active]
      exact (congrArg Int.ofNat h0).symm
    · rw [hc.active]
      exact le_max_left _ _
  | @unregister t d =>
    have h' := h.updTun (T := t.ref) (f := fun t =>
      { t with deleting := d || t.deleting, registered := false }) fun _ _ _ => ⟨rfl, rfl⟩
    exact { h' with }
  | free => exact h.of_same rfl (fun t ht => ⟨t, (mem_del.1 ht).1, rfl, rfl⟩) rfl rfl
  | _ => exact { h with }

lemma of_trace {tr : List (Broker × BrokerEvent)}
    (h : Trace (brokerStep digest) BrokerInit tr b) : Counted b :=
  inv_of_moves (fun _ => init) (fun _ _ _ _ (_ : True) hw hm hc => hc.move hm hw) h
    fun _ _ => trivial

end Counted

lemma sum_countP_eq_length {α β : Type*} [DecidableEq β] {f : α → β} {ks : List β} {xs : List α}
    (hk : ks.Nodup) (hx : ∀ x ∈ xs, f x ∈ ks) :
    (ks.map fun k => xs.countP (f · = k)).sum = xs.length := by
  have hc : ∀ k, xs.countP (f · = k) = Multiset.count k (xs.map f) := fun k => by
    rw [Multiset.coe_count, count, countP_map]
    rfl
  simp only [hc]
  rw [← sum_toFinset _ hk, Multiset.sum_count_eq_card]
  · simp
  · simpa using hx

/-- In every run a tunnel's count is the number of its streams, the broker's that of all streams,
and both keep to the limits, a negative one counting as 0. -/
theorem streams_counted {digest : Bytes → Digest} {tr : List (Broker × BrokerEvent)} {b : Broker}
    (h : Trace (brokerStep digest) BrokerInit tr b) :
    (∀ t ∈ b.tunnels, t.streamsActive = (b.streams.filter (·.tun = t.ref)).length) ∧
    b.streamCount = b.streams.length ∧
    b.streamCount = ((b.tunnels.filter (·.registered)).map Tunnel.streamsActive).sum ∧
    b.streamCount ≤ max 0 b.cfg.maxStreams ∧
    (∀ t ∈ b.tunnels, t.streamsActive ≤ max 0 b.cfg.maxStreamsPerTunnel) ∧
    ∀ st, tmStreamClose st (tmStreamClose st b) = tmStreamClose st b := by
  have hw := Wf.of_trace h
  have hc := Counted.of_trace h
  refine ⟨fun t ht => ?_, hc.total, ?_, hc.totalMax, hc.activeMax, fun st => ?_⟩
  · rw [hc.active t ht, streamsOf, countP_eq_length_filter]
  · let ks := (b.tunnels.filter (·.registered)).map Tunnel.ref
    have hk : ks.Nodup := hw.tunnels.nodup.sublist (filter_sublist.map _)
    have hx : ∀ st ∈ b.streams, st.tun ∈ ks := fun st hst => by
      obtain ⟨t, ht, hr, he⟩ := hw.streamTun st hst
      exact mem_map.2 ⟨t, mem_filter.2 ⟨ht, hr⟩, he⟩
    have ha : (b.tunnels.filter (·.registered)).map Tunnel.streamsActive =
        (ks.map fun T => b.streams.countP (·.tun = T)).map .ofNat := by
      rw [map_map, map_map]
      exact map_congr_left fun t ht => hc.active t (mem_filter.1 ht).1
    rw [ha, hc.total, ← sum_countP_eq_length hk hx]
    exact map_list_sum (Nat.castRingHom ℤ) _
  · have hn : get st (tmStreamClose st b).streams = none :=
      get_none.2 fun x hx => (mem_tmStreamClose.1 hx).2
    conv_lhs => rw [tmStreamClose, hn]

theorem streams_counted_killed : ∃ tr b, Trace (brokerStep padDigest) BrokerInit tr b ∧
    b.streams.length = 1 ∧ b.streamCount = 1 ∧ b.streamCount ≤ max 0 b.cfg.maxStreams := by
  obtain ⟨tr, b, h, hl⟩ := smallBroker_trace
    (peerOpens ++ [.controlAccept, sends 5 .hello 0 [], sends 5 .auth 0 [0, 1, 65, 2],
      sends 5 .dataBind 0 [], .ipc (.killStream [65] 1)])
    (fun r => r.2.streams.length = 1) (by decide)
  obtain ⟨-, hn, -, hm, -⟩ := streams_counted h
  exact ⟨tr, b, h, hl, by rw [hn, hl]; rfl, hm⟩

/-- With a negative limit a broker without streams is above it. -/
theorem streams_above_limit : ∃ tr b, Trace (brokerStep padDigest) BrokerInit tr b ∧
    b.streams = [] ∧ b.cfg.maxStreams < b.streamCount := by
  let cfg : BrokerCfg := { publicPortStart := 1, publicPortEnd := 2, maxStreams := -1 }
  let b : Broker := { cfg := cfg, ports := { tcp := [false, false], udp := [false, false] } }
  have hi : BrokerInit b := ⟨cfg, by decide, rfl⟩
  exact ⟨[], b, .start hi, rfl, by decide⟩

/-! ## Streams that are not bound -/

def AcceptOk (n : ℤ) (b : Broker) : BrokerEvent → Prop
  | .publicAccept T _ _ => b.pendingOf T < n
  | _ => True

instance (n : ℤ) (b : Broker) (e : BrokerEvent) : Decidable (AcceptOk n b e) :=
  match e with
  | .publicAccept _ _ _ => Int.decLt _ _
  | .tick _ _ | .controlAccept | .connFrame _ _ _ _ | .connEnd _ _ | .agentFrame _ _ _
  | .agentEnd _ | .agentPing _ _ | .relay _ _ | .listenerClosed _ _ | .udpClosed _ | .udp _ _
  | .ipc _ | .shutdown _ | .cleanup => .isTrue trivial

def PendingCapped (n : ℤ) (b : Broker) : Prop :=
  b.cfg.maxPendingStreams = n → ∀ T, b.pendingOf T ≤ n

namespace PendingCapped

variable {digest : Bytes → Digest} {b₀ b b' : Broker} {e : BrokerEvent} {n : ℤ}

lemma of_le (h : PendingCapped n b) (hf : b'.cfg = b.cfg)
    (hp : ∀ T, b'.pendingOf T ≤ b.pendingOf T) : PendingCapped n b' := by
  intro hn T
  have h1 := h (by rw [← hf, hn]) T
  have h2 := hp T
  omega

lemma of_streams (h : PendingCapped n b) (hf : b'.cfg = b.cfg) (hs : b'.streams = b.streams) :
    PendingCapped n b' :=
  h.of_le hf fun T => by rw [pendingOf, hs, pendingOf]

lemma pendingOf_upd {x : Stream} {f : Stream → Stream} (hw : Wf b) (hx : x ∈ b.streams)
    (ht : (f x).tun = x.tun) (hb : x.relay.s.bound = true → (f x).relay.s.bound = true)
    (hs : b'.streams = upd x.ref f b.streams) (T : Ref) : b'.pendingOf T ≤ b.pendingOf T := by
  rw [pendingOf, pendingOf, ← countP_eq_length_filter,
    ← countP_eq_length_filter, hs, upd, countP_map]
  refine countP_mono_left fun y hy hp => ?_
  by_cases he : Keyed.key y = x.ref
  · obtain rfl := eq_of_key hw.streams.nodup hy hx he
    simp only [Function.comp_apply, if_pos he, Bool.and_eq_true, decide_eq_true_eq,
      Bool.not_eq_true', ht] at hp ⊢
    refine ⟨hp.1, ?_⟩
    by_contra hbound
    exact absurd (hb (by simpa using hbound)) (by simp [hp.2])
  · simpa only [Function.comp_apply, if_neg he] using hp

lemma link (h : PendingCapped n b)
    (hT : b.pendingOf T < n) : PendingCapped n (streamLink T id sock s b).2 := by
  intro hn U
  have h1 := h hn U
  have h2 : (streamLink T id sock s b).2.pendingOf U ≤ b.pendingOf U + if T = U then 1 else 0 := by
    simp only [pendingOf, streamLink, ← countP_eq_length_filter, countP_cons]
    by_cases he : T = U
    · split_ifs <;> omega
    · simp [he]
  split_ifs at h2 with he
  · rw [he] at hT
    omega
  · omega

lemma move (hok : AcceptOk n b₀ e) (hm : Move digest b₀ e b b') (hw : Wf b)
    (h : PendingCapped n b) : PendingCapped n b' := by
  cases hm with
  | misc he =>
    obtain ⟨hf, -, -, -, -, hs, -⟩ := core_eq.1 he
    exact h.of_streams hf hs
  | @openStream t _ _ ha hs =>
    obtain ⟨peer, k, rfl⟩ := ha
    have hlt : b₀.pendingOf t.ref < n := hok
    rw [pendingOf, ← hs] at hlt
    exact h.link hlt
  | peerStream _ hlt =>
    intro hn
    exact h.link (hlt.trans_eq hn) hn
  | closeStream => exact h.of_le rfl fun T => (filter_sublist.filter _).length_le
  | relay hx hs hl =>
    exact h.of_le rfl (pendingOf_upd hw hx rfl (fun hb => (Relay.bound_step hs hl).trans hb) rfl)
  | attach hx hb _ _ =>
    obtain ⟨-, -, -, -, -, -, -, hu, -⟩ := hb
    exact h.of_le rfl (pendingOf_upd hw hx rfl (fun hb => absurd (hu.symm.trans hb) (by simp)) rfl)
  | _ => exact h.of_streams rfl rfl

end PendingCapped

/-- In every run in which each connection to a public listener finds fewer streams of its tunnel
unbound than a limit that is not negative, no tunnel has more than that. -/
theorem pending_capped {digest : Bytes → Digest} {tr : List (Broker × BrokerEvent)} {b : Broker}
    (h : Trace (brokerStep digest) BrokerInit tr b) (h0 : 0 ≤ b.cfg.maxPendingStreams)
    (hok : ∀ p ∈ tr, AcceptOk b.cfg.maxPendingStreams p.1 p.2) (T : Ref) :
    (b.streams.filter fun st => st.tun = T && !st.relay.s.bound).length ≤
      b.cfg.maxPendingStreams := by
  refine inv_of_moves (I := PendingCapped b.cfg.maxPendingStreams) ?_
    (fun _ _ _ _ hok hw hm hc => hc.move hok hm hw) h hok rfl T
  rintro b' ⟨cfg, -, rfl⟩ _ U
  simpa [pendingOf] using h0

def oneBroker : Broker :=
  { cfg := { publicPortStart := 1, publicPortEnd := 2, maxPendingStreams := 1 }
    ports := { tcp := [false, false], udp := [false, false] } }

lemma oneBroker_init : BrokerInit oneBroker := ⟨_, by decide, rfl⟩

theorem pending_capped_one : ∃ tr b, Trace (brokerStep padDigest) BrokerInit tr b ∧
    b.cfg.maxPendingStreams = 1 ∧ b.streams.length = 2 ∧
    (b.streams.filter fun st => st.tun = 0 && !st.relay.s.bound).length ≤
      b.cfg.maxPendingStreams := by
  obtain ⟨tr, b, h, hn, hl, hok⟩ := exists_trace (brokerStep padDigest) BrokerInit oneBroker_init
    [creates [65] false, .controlAccept, sends 1 .hello 0 [], sends 1 .register 0 [0, 1, 65, 1],
      .publicAccept 0 {} true, .controlAccept, sends 5 .dataBind 1 [1], .relay 4 (.run .ok),
      .publicAccept 0 {} true]
    (fun r => r.2.cfg.maxPendingStreams = 1 ∧ r.2.streams.length = 2 ∧
      ∀ p ∈ r.1, AcceptOk 1 p.1 p.2) (by decide)
  exact ⟨tr, b, h, hn, hl, pending_capped h (by rw [hn]; decide) (by rw [hn]; exact hok) 0⟩

/-- Two public connections come before the agent has bound either. -/
theorem pending_above_cap : ∃ tr b, Trace (brokerStep padDigest) BrokerInit tr b ∧
    b.cfg.maxPendingStreams = 1 ∧
    (b.streams.filter fun st => st.tun = 0 && !st.relay.s.bound).length = 2 :=
  exists_run oneBroker_init
    [creates [65] false, .controlAccept, sends 1 .hello 0 [], sends 1 .register 0 [0, 1, 65, 1],
      .publicAccept 0 {} true, .publicAccept 0 {} true] (by decide)

end TunnelMate
