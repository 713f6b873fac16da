import TunnelMate.Proofs.Registry
import TunnelMate.Proofs.Sockets

/-!
# The life of a public listener

A tunnel's listener is open while the tunnel is enabled, but for the time it takes to close: a stop
asks for a close, and a start before its callback waits for it.
-/

namespace TunnelMate

open List Option Table Nat Tunnel.Listening Broker

variable {digest : Bytes → Digest} {b₀ b b' c : Broker} {e : BrokerEvent} {T : Ref}

/-! ## Histories -/

def Broker.listens (b : Broker) (T : Ref) : Bool :=
  b.tunnels.any fun t => t.ref = T && t.listenerOpen

section

variable (digest : Bytes → Digest) (T : Ref)

def closesListener (p : Broker × BrokerEvent) : Bool :=
  p.1.listens T && (brokerStep digest p.1 p.2).any fun b' => !b'.listens T

def closeCallback (e : BrokerEvent) : Bool :=
  match e with
  | .listenerClosed t _ => t = T
  | _ => false

def pendingCloses (tr : List (Broker × BrokerEvent)) : ℤ :=
  tr.countP (closesListener digest T) - tr.countP fun p => closeCallback T p.2

end

def BindsOk (b : Broker) : BrokerEvent → Prop
  | .ipc (.createTunnel r _ _ bound) => r.proto = .tcp → bound = true
  | .ipc (.enableTunnel id bound) => ∀ t ∈ tmTunnelFind id b, t.proto = .tcp → bound = true
  | .listenerClosed _ bound => bound = true
  | _ => True

instance : Decidable (BindsOk b e) :=
  match e with
  | .ipc (.createTunnel _ _ _ _) => inferInstanceAs (Decidable (_ → _))
  | .ipc (.enableTunnel id bound) =>
    inferInstanceAs (Decidable (∀ t ∈ tmTunnelFind id b, t.proto = .tcp → bound = true))
  | .listenerClosed _ _ => inferInstanceAs (Decidable (_ = _))
  | .ipc (.deleteTunnel _) | .ipc (.disableTunnel _) | .ipc (.rotateAgentSecret _ _ _)
  | .ipc (.rotateSharedToken _ _ _) | .ipc (.killStream _ _) | .tick _ _ | .controlAccept
  | .connFrame _ _ _ _ | .connEnd _ _ | .agentFrame _ _ _ | .agentEnd _ | .agentPing _ _
  | .publicAccept _ _ _ | .relay _ _ | .udpClosed _ | .udp _ _ | .shutdown _ | .cleanup =>
    .isTrue trivial

/-! ## One tunnel -/

structure Tunnel.Listening.Settled (t : Tunnel.Listening) : Prop where
  refs : t.closeRefs = (if t.listenerClosing then 1 else 0) + t.udpClosing
  tcp : t.proto = .tcp → t.udpOpen = false ∧ t.udpClosing = 0
  shut : t.proto = .udp ∨ t.closed = true →
    t.listenerOpen = false ∧ t.listenerClosing = false ∧ t.listenerRestartPending = false
  one : t.listenerOpen = true → t.listenerClosing = false
  dead : t.deleting = true → t.listenerOpen = false ∧ t.listenerRestartPending = false
  restart : t.listenerRestartPending = true → t.listenerClosing = true ∧ t.enabled = true
  waits : t.listenerClosing = true → t.enabled = true → t.deleting = false →
    t.listenerRestartPending = true
  opened : t.proto = .tcp → t.closed = false → t.listenerClosing = false → t.deleting = false →
    t.listenerOpen = t.enabled

variable {id : Bytes} {f : Tunnel → Tunnel} {t : Tunnel} {tr : List (Broker × BrokerEvent)}
variable {ah th : Bytes} {closed : Bool} {n : ℕ} {proto : Proto}

namespace Tunnel.Listening.Settled

variable {t : Tunnel} {bound : Bool}

lemma fresh {r : Ref} (hb : proto = .tcp → bound = true) : (tunnelStart bound
      { ref := r, id := id, proto := proto, closed := closed, publicPort := n,
        agentSecretHmac := ah, sharedTokenHmac := th }).listening.Settled := by
  constructor <;> grind [tunnelStart, tmTunnelListenerStart, tmUdpStart, .listening]

section

variable (h : t.listening.Settled)
include h

lemma disable :
    (tmUdpStop (tmTunnelListenerStop { t with enabled := false })).listening.Settled := by
  obtain ⟨h1, h2, h3, h4, h5, h6, h7, h8⟩ := h
  constructor <;> grind [tmUdpStop, tmTunnelListenerStop, .listening]

lemma delete : ({ t.stopSockets t.proto with deleting := true } : Tunnel).listening.Settled := by
  obtain ⟨h1, h2, h3, h4, h5, h6, h7, h8⟩ := h
  cases hp : t.proto
  all_goals constructor <;> grind [Tunnel.stopSockets, tmUdpStop, tmTunnelListenerStop, .listening]

lemma enable (hd : t.deleting = false) (he : t.enabled = false)
    (hb : t.proto = .tcp → bound = true) :
    (tunnelStart bound { t with enabled := true }).listening.Settled := by
  obtain ⟨h1, h2, h3, h4, h5, h6, h7, h8⟩ := h
  cases hp : t.proto
  all_goals constructor <;> grind [tunnelStart, tmTunnelListenerStart, tmUdpStart, .listening]

lemma listenerClosed (hc : t.listenerClosing = true) :
    (tunnelListenerClosed true t).listening.Settled := by
  obtain ⟨h1, h2, h3, h4, h5, h6, h7, h8⟩ := h
  constructor <;> grind [tunnelListenerClosed, tmTunnelListenerStart, .listening]

lemma udpClosed (hc : 0 < t.udpClosing) : (tunnelUdpClosed t).listening.Settled := by
  obtain ⟨h1, h2, h3, h4, h5, h6, h7, h8⟩ := h
  constructor <;> grind [tunnelUdpClosed, .listening]

end

end Tunnel.Listening.Settled

/-! ## What leaves the listeners alone -/

def Broker.listenings (b : Broker) : List Tunnel.Listening := b.tunnels.map Tunnel.listening

lemma listenings_updTun (hf : ∀ t ∈ b.tunnels, t.ref = T → (f t).listening = t.listening) :
    (b.updTun T f).listenings = b.listenings :=
  map_upd hf

lemma listenings_dropAgentOf (T : Ref) : (dropAgentOf T b).listenings = b.listenings :=
  dropAgentOf_const (f := listenings) (fun _ _ => listenings_updTun fun _ _ _ => rfl) T b

lemma listenings_closeStreams (T : Ref) : (closeStreams T b).listenings = b.listenings :=
  closeStreams_const (f := listenings) (fun _ _ => listenings_updTun fun _ _ _ => rfl) T b

lemma Move.listenings (hm : Move digest b₀ e b b') (hs : ¬ TouchesSockets e)
    (hc : ¬ CreatesTunnel e) (hg : ∀ x ∈ b.listenings, x.deleting = true → x.closeRefs ≠ 0) :
    b'.listenings = b.listenings ∧ b'.released = b.released := by
  cases hm with
  | misc he =>
    obtain ⟨-, -, ht, -, -, -, -, hr, -⟩ := core_eq.1 he
    exact ⟨congrArg (map Tunnel.listening) ht, hr⟩
  | tunnel _ _ hl => exact ⟨listenings_updTun (hl.resolve_left hs), rfl⟩
  | dropAgent | addAgent | openStream | peerStream | closeStream =>
    exact ⟨listenings_updTun fun _ _ _ => rfl, rfl⟩
  | addTunnel _ hct => exact absurd hct hc
  | unregister d _ _ _ _ hg =>
    obtain ⟨-, -, hd, -⟩ | ⟨-, rfl, -⟩ := hg
    · exact absurd hd.touches hs
    · exact absurd trivial hs
  | free ht hd h0 => exact absurd h0 (hg _ (mem_map_of_mem ht) hd)
  | _ =>
    exact ⟨rfl, rfl⟩

lemma listenings_step (hw : Wf b) (hs : ¬ TouchesSockets e) (hc : ¬ CreatesTunnel e)
    (hg : ∀ x ∈ b.listenings, x.deleting = true → x.closeRefs ≠ 0)
    (h : brokerStep digest b e = some b') :
    b'.listenings = b.listenings ∧ b'.released = b.released := by
  refine (step_moves hw h).inv (I := fun c => c.listenings = b.listenings ∧
    c.released = b.released) hw ⟨rfl, rfl⟩ fun c c' _ hm hi => ?_
  obtain ⟨hl, hr⟩ := hm.listenings hs hc (hi.1 ▸ hg)
  exact ⟨hl.trans hi.1, hr.trans hi.2⟩

lemma listenings_updTun_congr {g : Tunnel → Tunnel}
    (hg : ∀ t u : Tunnel, t.listening = u.listening → (g t).listening = (g u).listening)
    (h : b.listenings = c.listenings) : (b.updTun T g).listenings = (c.updTun T g).listenings := by
  unfold listenings updTun at *
  generalize b.tunnels = xs at h
  generalize c.tunnels = ys at h
  induction xs generalizing ys with
  | nil => rw [map_eq_nil_iff.1 h.symm]
  | cons x xs ih =>
    cases ys with
    | nil => cases h
    | cons y ys =>
      obtain ⟨hx, hxs⟩ := cons.inj h
      have hr : x.ref = y.ref := congrArg ref hx
      simp only [upd, map_cons, key_tunnel, cons.injEq] at ih ⊢
      refine ⟨?_, ih ys hxs⟩
      by_cases he : x.ref = T
      · rw [if_pos he, if_pos (hr ▸ he)]
        exact hg x y hx
      · rw [if_neg he, if_neg (hr ▸ he)]
        exact hx

/-! ## The operations -/

def Tunnel.closesDue (t : Tunnel) : ℤ := if t.listenerClosing then 1 else 0

/-- What an event makes of one tunnel: its flags agree again, and it waits for one close more if its
listener was closed, for one less if the event is the callback. -/
structure Turn (e : BrokerEvent) (t t' : Tunnel) : Prop where
  ref : t'.ref = t.ref
  settled : t'.listening.Settled
  due : t'.closesDue = t.closesDue + (if t.listenerOpen && !t'.listenerOpen then 1 else 0) -
    if closeCallback t.ref e then 1 else 0

namespace Turn

variable {t t' u : Tunnel} {bound : Bool}

lemma of_listening (h : Turn e t u) (he : t'.listening = u.listening) : Turn e t t' := by
  have hr : t'.ref = u.ref := congrArg Tunnel.Listening.ref he
  have ho : t'.listenerOpen = u.listenerOpen := congrArg listenerOpen he
  have hc : t'.listenerClosing = u.listenerClosing := congrArg listenerClosing he
  refine ⟨hr.trans h.ref, he ▸ h.settled, ?_⟩
  have hd := h.due
  rw [Tunnel.closesDue, hc, ho]
  exact hd

section

variable (h : t.listening.Settled)
include h

section

variable (hc : closeCallback t.ref e = false)
include hc

lemma same : Turn e t t :=
  ⟨rfl, h, by simp [hc]⟩

lemma disable : Turn e t (tmUdpStop (tmTunnelListenerStop { t with enabled := false })) := by
  have h4 := h.one
  refine ⟨?_, h.disable, ?_⟩
  · grind [tmUdpStop, tmTunnelListenerStop]
  · grind [tmUdpStop, tmTunnelListenerStop, Tunnel.closesDue, Tunnel.listening]

lemma delete : Turn e t { t.stopSockets t.proto with deleting := true } := by
  have h4 := h.one
  refine ⟨(Tunnel.Mild.stopSockets t.proto).ref, h.delete, ?_⟩
  cases hp : t.proto
  all_goals
    grind [Tunnel.stopSockets, tmUdpStop, tmTunnelListenerStop, Tunnel.closesDue, Tunnel.listening]

end

lemma enable (hd : t.deleting = false) (he : t.enabled = false)
    (hb : t.proto = .tcp → bound = true) (hc : closeCallback t.ref e = false) :
    Turn e t (tunnelStart bound { t with enabled := true }) := by
  refine ⟨Tunnel.Rest.start.ref, h.enable hd he hb, ?_⟩
  grind [tunnelStart, tmTunnelListenerStart, tmUdpStart, Tunnel.closesDue]

lemma listenerClosed (hl : t.listenerClosing = true)
    (hc : closeCallback t.ref e = true) : Turn e t (tunnelListenerClosed true t) := by
  refine ⟨Tunnel.Rest.listenerClosed.ref, h.listenerClosed hl, ?_⟩
  grind [tunnelListenerClosed, tmTunnelListenerStart, Tunnel.closesDue, Tunnel.listening]

lemma udpClosed (hu : 0 < t.udpClosing)
    (hc : closeCallback t.ref e = false) : Turn e t (tunnelUdpClosed t) := by
  refine ⟨rfl, h.udpClosed hu, ?_⟩
  grind [tunnelUdpClosed, Tunnel.closesDue]

end

end Turn

/-! ## The tunnels there have been -/

def Broker.allTunnels (b : Broker) : List Tunnel := b.tunnels ++ b.released

lemma mem_allTunnels : t ∈ b.allTunnels ↔ t ∈ b.tunnels ∨ t ∈ b.released :=
  mem_append

structure Advance (e : BrokerEvent) (b b' : Broker) : Prop where
  next : b.nextRef ≤ b'.nextRef
  fresh : Table.Fresh b'.nextRef b'.allTunnels
  turn : ∀ t' ∈ b'.allTunnels, (∃ t ∈ b.allTunnels, Turn e t t') ∨
    b.nextRef ≤ t'.ref ∧ t'.listening.Settled ∧ t'.listenerClosing = false ∧
      closeCallback t'.ref e = false
  kept : ∀ t ∈ b.allTunnels, ∃ t' ∈ b'.allTunnels, t'.ref = t.ref
  gone : ∀ t ∈ b'.tunnels, t.deleting = true → t.closeRefs ≠ 0
  released : ∀ t ∈ b'.released, t.deleting = true ∧ t.closeRefs = 0
  callback : ∀ T, b'.nextRef ≤ T → closeCallback T e = false

structure Lifecycle (digest : Bytes → Digest) (tr : List (Broker × BrokerEvent)) (b : Broker) :
    Prop where
  fresh : Table.Fresh b.nextRef b.allTunnels
  settled : ∀ t ∈ b.allTunnels, t.listening.Settled
  due : ∀ t ∈ b.allTunnels, pendingCloses digest t.ref tr = t.closesDue
  unborn : ∀ T, b.nextRef ≤ T → pendingCloses digest T tr = 0
  gone : ∀ t ∈ b.tunnels, t.deleting = true → t.closeRefs ≠ 0
  released : ∀ t ∈ b.released, t.deleting = true ∧ t.closeRefs = 0
  kept : ∀ p ∈ tr, ∀ t ∈ p.1.allTunnels, ∃ t' ∈ b.allTunnels, t'.ref = t.ref

lemma listens_eq (hf : Table.Fresh n b.allTunnels) (ht : t ∈ b.allTunnels)
    (hr : ∀ t ∈ b.released, t.listenerOpen = false) : b.listens t.ref = t.listenerOpen := by
  have one : ∀ u ∈ b.tunnels, u.ref = t.ref → u = t := fun u hu he =>
    eq_of_key hf.nodup (mem_allTunnels.2 (.inl hu)) ht he
  rcases mem_allTunnels.1 ht with ht | ht
  · cases ho : t.listenerOpen with
    | true => exact any_eq_true.2 ⟨t, ht, by simp [ho]⟩
    | false =>
      refine any_eq_false.2 fun u hu => ?_
      by_cases he : u.ref = t.ref
      · rw [one u hu he, ho]
        simp
      · simp [he]
  · rw [hr t ht]
    refine any_eq_false.2 fun u hu => ?_
    by_cases he : u.ref = t.ref
    · rw [one u hu he, hr t ht]
      simp
    · simp [he]

lemma listens_fresh (hf : Table.Fresh n b.allTunnels) (hT : n ≤ T) : b.listens T = false := by
  refine any_eq_false.2 fun u hu => ?_
  have hlt : u.ref < n := hf.lt u (mem_allTunnels.2 (.inl hu))
  simp [(hlt.trans_le hT).ne]

lemma pendingCloses_cons (tr : List (Broker × BrokerEvent)) (h : brokerStep digest b e = some b') :
    pendingCloses digest T ((b, e) :: tr) = pendingCloses digest T tr +
      (if b.listens T && !b'.listens T then 1 else 0) - if closeCallback T e then 1 else 0 := by
  simp only [pendingCloses, countP_cons, closesListener, h, any_some]
  push_cast
  split_ifs <;> omega

lemma Lifecycle.advance (h : Lifecycle digest tr b)
    (hs : brokerStep digest b e = some b') (ha : Advance e b b') :
    Lifecycle digest ((b, e) :: tr) b' := by
  have hrel : ∀ t ∈ b.released, t.listenerOpen = false := fun t ht =>
    ((h.settled t (mem_allTunnels.2 (.inr ht))).dead (h.released t ht).1).1
  have hset : ∀ t ∈ b'.allTunnels, t.listening.Settled := fun t ht => by
    obtain ⟨_, -, hturn⟩ | ⟨-, hn, -⟩ := ha.turn t ht
    · exact hturn.settled
    · exact hn
  have hrel' : ∀ t ∈ b'.released, t.listenerOpen = false := fun t ht =>
    ((hset t (mem_allTunnels.2 (.inr ht))).dead (ha.released t ht).1).1
  refine ⟨ha.fresh, hset, fun t' ht' => ?_, fun T hT => ?_, ha.gone, ha.released,
    forall_mem_cons.2 ⟨ha.kept, fun p hp t ht => ?_⟩⟩
  · have ho' := listens_eq ha.fresh ht' hrel'
    rw [pendingCloses_cons tr hs, ho']
    obtain ⟨t, ht, hturn⟩ | ⟨hn, -, hc, he⟩ := ha.turn t' ht'
    · have ho := listens_eq h.fresh ht hrel
      rw [hturn.ref, h.due t ht, ho]
      exact hturn.due.symm
    · rw [h.unborn _ hn, listens_fresh h.fresh hn, he, Tunnel.closesDue, hc]
      rfl
  · rw [pendingCloses_cons tr hs, h.unborn _ (ha.next.trans hT),
      listens_fresh h.fresh (ha.next.trans hT), ha.callback T hT]
    rfl
  · obtain ⟨u, hu, he⟩ := h.kept p hp t ht
    obtain ⟨v, hv, hve⟩ := ha.kept u hu
    exact ⟨v, hv, hve.trans he⟩

/-! ## Events -/

lemma freeTunnel_eq (h : ∀ t ∈ c.tunnels, t.deleting = true → t.closeRefs ≠ 0) :
    freeTunnel T c = c := by
  unfold freeTunnel
  split
  · rfl
  · rename_i x hx
    have hg := h x (mem_of_get hx)
    rw [if_neg fun hd => ?_]
    simp only [Bool.and_eq_true, decide_eq_true_eq] at hd
    exact hg hd.1 hd.2

lemma freeTunnel_spec (hk : Table.Fresh n c.tunnels)
    (hg : ∀ t ∈ c.tunnels, t.ref ≠ T → t.deleting = true → t.closeRefs ≠ 0)
    (hr : ∀ t ∈ c.released, t.deleting = true ∧ t.closeRefs = 0) :
    (freeTunnel T c).allTunnels.Perm c.allTunnels ∧
    (∀ t ∈ (freeTunnel T c).tunnels, t.deleting = true → t.closeRefs ≠ 0) ∧
    (∀ t ∈ (freeTunnel T c).released, t.deleting = true ∧ t.closeRefs = 0) ∧
    (freeTunnel T c).nextRef = c.nextRef := by
  unfold freeTunnel
  split
  · rename_i hx
    exact ⟨.refl _, fun t ht => hg t ht (get_none.1 hx t ht), hr, rfl⟩
  rename_i x hx
  have hxm := mem_of_get hx
  obtain rfl : x.ref = T := key_of_get hx
  split_ifs with hd
  · simp only [Bool.and_eq_true, decide_eq_true_eq] at hd
    refine ⟨?_, fun t ht => ?_, forall_mem_cons.2 ⟨hd, hr⟩, rfl⟩
    · exact perm_middle.trans ((perm_del hk.nodup hxm).append_right _)
    · obtain ⟨ht, hne⟩ := mem_del.1 ht
      exact hg t ht hne
  · refine ⟨.refl _, fun t ht htd => ?_, hr, rfl⟩
    by_cases he : t.ref = x.ref
    · obtain rfl := eq_of_key hk.nodup ht hxm he
      simpa [htd] using hd
    · exact hg t ht he htd

section Advance

variable {tr : List (Broker × BrokerEvent)}

section

variable (h : Lifecycle digest tr b)
include h

lemma Advance.of_turns (hn : b.nextRef ≤ c.nextRef)
    (hr : c.released = b.released) (ht : ∀ t' ∈ c.tunnels, ∃ t ∈ b.tunnels, Turn e t t')
    (hrefs : c.tunnels.map Tunnel.ref = b.tunnels.map Tunnel.ref)
    (hc : ∀ T', closeCallback T' e = true → ∃ t ∈ b.tunnels, t.ref = T')
    (hg : ∀ t ∈ c.tunnels, t.ref ≠ T → t.deleting = true → t.closeRefs ≠ 0) :
    Advance e b (freeTunnel T c) := by
  have hall : c.allTunnels.map Tunnel.ref = b.allTunnels.map Tunnel.ref := by
    rw [allTunnels, allTunnels, map_append, map_append, hrefs, hr]
  have hfresh : Table.Fresh c.nextRef c.allTunnels := (h.fresh.of_keys (.of_eq hall)).mono hn
  obtain ⟨hp, hgone, hrel, hnext⟩ := freeTunnel_spec (T := T)
    (hfresh.sublist (sublist_append_left _ _)) hg (hr ▸ h.released)
  -- the callback of a close comes to a tunnel that is there
  have hcr : ∀ t ∈ b.released, closeCallback t.ref e = false := by
    intro t htr
    by_contra hcb
    obtain ⟨u, hu, he⟩ := hc t.ref (by simpa using hcb)
    have hnd := h.fresh.nodup
    rw [allTunnels, map_append, nodup_append] at hnd
    exact hnd.2.2 _ (mem_map_of_mem hu) _ (mem_map_of_mem htr) he
  refine ⟨hnext ▸ hn, hnext ▸ hfresh.perm hp, fun t' ht' => .inl ?_, fun t htm => ?_, hgone, hrel,
    fun T' hT' => ?_⟩
  · rcases mem_allTunnels.1 (hp.mem_iff.1 ht') with ht' | ht'
    · obtain ⟨t, htm, hturn⟩ := ht t' ht'
      exact ⟨t, mem_allTunnels.2 (.inl htm), hturn⟩
    · rw [hr] at ht'
      have hall := mem_allTunnels.2 (.inr ht')
      exact ⟨t', hall, .same (h.settled t' hall) (hcr t' ht')⟩
  · obtain ⟨t', ht', he⟩ := mem_map.1 (hall ▸ mem_map_of_mem htm)
    exact ⟨t', hp.mem_iff.2 ht', he⟩
  · by_contra hcb
    obtain ⟨u, hu, rfl⟩ := hc T' (by simpa using hcb)
    have hlt : u.ref < b.nextRef := h.fresh.lt u (mem_allTunnels.2 (.inl hu))
    rw [hnext] at hT'
    exact absurd (hlt.trans_le (hn.trans hT')) (lt_irrefl _)

lemma Advance.of_listenings (hn : b.nextRef ≤ c.nextRef)
    (hr : c.released = b.released) (hl : c.listenings = b.listenings)
    (hc : ∀ T', closeCallback T' e = false) : Advance e b c := by
  have hmem : ∀ t' ∈ c.tunnels, ∃ t ∈ b.tunnels, t'.listening = t.listening := fun t' ht' => by
    have hm : t'.listening ∈ b.listenings := hl ▸ mem_map_of_mem ht'
    obtain ⟨t, ht, he⟩ := mem_map.1 hm
    exact ⟨t, ht, he.symm⟩
  have hg : ∀ t ∈ c.tunnels, t.deleting = true → t.closeRefs ≠ 0 := fun t' ht' => by
    obtain ⟨t, ht, he⟩ := hmem t' ht'
    have hd : t'.deleting = t.deleting := congrArg deleting he
    have hk : t'.closeRefs = t.closeRefs := congrArg closeRefs he
    rw [hd, hk]
    exact h.gone t ht
  have ha : Advance e b (freeTunnel 0 c) := by
    refine .of_turns h hn hr (fun t' ht' => ?_) ?_ (fun T' hT' => ?_) fun t ht _ => hg t ht
    · obtain ⟨t, ht, he⟩ := hmem t' ht'
      have hset := h.settled t (mem_allTunnels.2 (.inl ht))
      exact ⟨t, ht, (Turn.same hset (hc _)).of_listening he⟩
    · have hrefs := congrArg (map ref) hl
      rwa [listenings, listenings, List.map_map, List.map_map] at hrefs
    · rw [hc] at hT'
      cases hT'
  rwa [freeTunnel_eq hg] at ha

variable {u : Tunnel}

lemma mem_of_listenings {t' : Tunnel}
    (hu : u ∈ b.tunnels) (hl : c.listenings = (b.updTun u.ref f).listenings)
    (ht' : t' ∈ c.tunnels) : (∃ t ∈ b.tunnels, t.ref ≠ u.ref ∧ t'.listening = t.listening) ∨
      t'.listening = (f u).listening := by
  have hk := (h.fresh.sublist (sublist_append_left _ _)).nodup
  have hm : t'.listening ∈ (b.updTun u.ref f).listenings := hl ▸ mem_map_of_mem ht'
  obtain ⟨x, hx, he⟩ := mem_map.1 hm
  obtain ⟨t, ht, rfl⟩ := mem_upd.1 hx
  split_ifs at he with hr
  · rw [eq_of_key hk ht hu hr] at he
    exact .inr he.symm
  · exact .inl ⟨t, ht, hr, he.symm⟩

variable (hu : u ∈ b.tunnels) (hn : c.nextRef = b.nextRef) (hr : c.released = b.released)
  (hl : c.listenings = (b.updTun u.ref f).listenings) (hf : Turn e u (f u))
  (hc : ∀ T', T' ≠ u.ref → closeCallback T' e = false)
include hu hn hr hl hf hc

lemma Advance.of_turn : Advance e b (freeTunnel u.ref c) := by
  have hk : (b.tunnels.map Keyed.key).Nodup := (h.fresh.sublist (sublist_append_left _ _)).nodup
  refine .of_turns h (le_of_eq hn.symm) hr (fun t' ht' => ?_) ?_ (fun T' hT' => ?_)
    fun t' ht' hne => ?_
  · obtain ⟨t, ht, hne, he⟩ | he := mem_of_listenings h hu hl ht'
    · have hset := h.settled t (mem_allTunnels.2 (.inl ht))
      exact ⟨t, ht, (Turn.same hset (hc _ hne)).of_listening he⟩
    · exact ⟨u, hu, hf.of_listening he⟩
  · have hrefs := congrArg (map ref) hl
    rw [listenings, listenings, List.map_map, List.map_map] at hrefs
    refine .trans hrefs (map_upd fun x hx hr => ?_)
    rw [eq_of_key hk hx hu hr]
    exact hf.ref
  · by_cases he : T' = u.ref
    · exact ⟨u, hu, he.symm⟩
    · rw [hc T' he] at hT'
      cases hT'
  · obtain ⟨t, ht, -, he⟩ | he := mem_of_listenings h hu hl ht'
    · have hd : t'.deleting = t.deleting := congrArg deleting he
      have hk : t'.closeRefs = t.closeRefs := congrArg closeRefs he
      rw [hd, hk]
      exact h.gone t ht
    · exact absurd ((congrArg ref he).trans hf.ref) hne

lemma Advance.of_live (hd : (f u).deleting = false) : Advance e b c := by
  have ha := Advance.of_turn h hu hn hr hl hf hc
  rwa [freeTunnel_eq fun t' ht' hdel => ?_] at ha
  obtain ⟨t, ht, -, he⟩ | he := mem_of_listenings h hu hl ht'
  · have hd' : t'.deleting = t.deleting := congrArg deleting he
    have hk : t'.closeRefs = t.closeRefs := congrArg closeRefs he
    rw [hk]
    exact h.gone t ht (hd' ▸ hdel)
  · have hd' : t'.deleting = (f u).deleting := congrArg deleting he
    rw [hd', hd] at hdel
    cases hdel

end

lemma listenings_teardown (t : Tunnel) : (tmTunnelTeardown t b).listenings =
    (b.updTun t.ref (Tunnel.stopSockets t.proto)).listenings := by
  have h : (closeDown t b).listenings = (b.updTun t.ref (.stopSockets t.proto)).listenings := by
    unfold closeDown
    rw [listenings_closeStreams, listenings_dropAgentOf]
  exact h

lemma Advance.delete (h : Lifecycle digest tr b) (ht : t ∈ b.tunnels) :
    Advance (.ipc (.deleteTunnel id)) b (tmTunnelDelete t b) := by
  let g (x : Tunnel) : Tunnel := { x with deleting := true, registered := false }
  refine .of_turn (f := fun x => g (x.stopSockets t.proto)) h ht ?_ ?_ ?_ ?_ fun _ _ => rfl
  · have hst := closeStreams_const (f := nextRef) fun _ _ => rfl
    exact (hst _ _).trans (dropAgentOf_const (fun _ _ => rfl) _ _)
  · have hst := closeStreams_const (f := Broker.released) fun _ _ => rfl
    exact (hst _ _).trans (dropAgentOf_const (fun _ _ => rfl) _ _)
  · have hg : ((tmTunnelTeardown t b).updTun t.ref g).listenings =
        ((b.updTun t.ref (.stopSockets t.proto)).updTun t.ref g).listenings :=
      listenings_updTun_congr (fun x y he => ?_) (listenings_teardown t)
    · refine hg.trans (congrArg (map Tunnel.listening) (upd_upd fun x _ he => ?_))
      exact (Tunnel.Mild.stopSockets t.proto).ref.trans he
    · exact congrArg (fun l : Tunnel.Listening => { l with deleting := true }) he
  · have hset := h.settled t (mem_allTunnels.2 (.inl ht))
    exact (Turn.delete hset rfl).of_listening rfl

lemma listening_stop_congr (x y : Tunnel) (h : x.listening = y.listening) :
    (tmUdpStop (tmTunnelListenerStop x)).listening =
      (tmUdpStop (tmTunnelListenerStop y)).listening := by
  grind [tmUdpStop, tmTunnelListenerStop, Tunnel.listening]

section

variable (h : Lifecycle digest tr b)
include h

lemma Advance.disable (ht : t ∈ b.tunnels)
    (hd : t.deleting = false) : Advance (.ipc (.disableTunnel id)) b (disableTunnel t b) := by
  let off (x : Tunnel) : Tunnel := { x with enabled := false }
  refine .of_live (f := fun x => tmUdpStop (tmTunnelListenerStop (off x))) h ht ?_ ?_ ?_ ?_
    (fun _ _ => rfl) ?_
  · exact dropAgentOf_const (f := nextRef) (fun _ _ => rfl) _ _
  · exact dropAgentOf_const (f := Broker.released) (fun _ _ => rfl) _ _
  · have hg : (disableTunnel t b).listenings = ((b.updTun t.ref off).updTun t.ref fun x =>
        tmUdpStop (tmTunnelListenerStop x)).listenings :=
      listenings_updTun_congr listening_stop_congr (listenings_dropAgentOf _)
    exact hg.trans (congrArg (map Tunnel.listening) (upd_upd fun _ _ he => he))
  · exact .disable (h.settled t (mem_allTunnels.2 (.inl ht))) rfl
  · grind [tmUdpStop, tmTunnelListenerStop]

variable {bound : Bool}

lemma Advance.enable (ht : t ∈ b.tunnels) (hd : t.deleting = false) (he : t.enabled = false)
    (hb : t.proto = .tcp → bound = true) :
    Advance (.ipc (.enableTunnel id bound)) b (enableTunnel t bound b) := by
  refine .of_live h ht rfl rfl rfl ?_ (fun _ _ => rfl) ?_
  · exact .enable (h.settled t (mem_allTunnels.2 (.inl ht))) hd he hb rfl
  · grind [tunnelStart, tmTunnelListenerStart, tmUdpStart]

lemma Advance.listenerClosed (ht : t ∈ b.tunnels)
    (hc : t.listenerClosing = true) : Advance (.listenerClosed t.ref true) b
      (freeTunnel t.ref (b.updTun t.ref (tunnelListenerClosed true))) := by
  refine .of_turn h ht rfl rfl rfl ?_ fun T' hne => ?_
  · exact .listenerClosed (h.settled t (mem_allTunnels.2 (.inl ht))) hc (by simp [closeCallback])
  · simpa [closeCallback] using Ne.symm hne

lemma Advance.udpClosed (ht : t ∈ b.tunnels) (hc : 0 < t.udpClosing) : Advance (.udpClosed t.ref) b
      (freeTunnel t.ref (b.updTun t.ref tunnelUdpClosed)) :=
  .of_turn h ht rfl rfl rfl (.udpClosed (h.settled t (mem_allTunnels.2 (.inl ht))) hc rfl)
    fun _ _ => rfl

lemma Advance.create {ports : Ports} {n : ℤ}
    (hr : t.ref = b.nextRef) (hs : t.listening.Settled) (hc : t.listenerClosing = false)
    (hd : t.deleting = false) (he : ∀ T', closeCallback T' e = false) : Advance e b { b with
      ports := ports, tunnels := t :: b.tunnels, tunnelCount := n, nextRef := b.nextRef + 1 } where
  next := le_succ _
  fresh := h.fresh.cons hr
  turn := forall_mem_cons.2 ⟨.inr ⟨le_of_eq hr.symm, hs, hc, he _⟩, fun t ht =>
    .inl ⟨t, ht, .same (h.settled t ht) (he _)⟩⟩
  kept t ht := ⟨t, mem_cons_of_mem _ ht, rfl⟩
  gone := forall_mem_cons.2 ⟨fun hdel => by simp [hd] at hdel, h.gone⟩
  released := h.released
  callback _ _ := he _

lemma Advance.createTunnel {r : CreateReq} {rand rand' : Bytes}
    (hb : r.proto = .tcp → bound = true) : Advance (.ipc (.createTunnel r rand rand' bound)) b
      (createTunnel digest r rand rand' bound b).1 := by
  have idle : ∀ ports,
      Advance (.ipc (.createTunnel r rand rand' bound)) b { b with ports := ports } :=
    fun ports => .of_listenings h (le_refl _) rfl rfl fun _ => rfl
  obtain ⟨_, hr⟩ | ⟨-, _, hr⟩ | ⟨t, ports, hc, ⟨port, rfl⟩, -, -, -, -, -, -, _, _, hr⟩ :=
    createTunnel_cases digest r rand rand' bound b <;> rw [hr]
  · exact idle b.ports
  · exact idle _
  · refine .create h hc.ref (.fresh hb) ?_ ?_ fun _ => rfl
    · grind [tunnelStart, tmTunnelListenerStart, tmUdpStart]
    · grind [tunnelStart, tmTunnelListenerStart, tmUdpStart]

end

lemma Advance.plain (hw : Wf b) (h : Lifecycle digest tr b)
    (hst : brokerStep digest b e = some b') (hs : ¬ TouchesSockets e) (hc : ¬ CreatesTunnel e) :
    Advance e b b' := by
  have hg : ∀ x ∈ b.listenings, x.deleting = true → x.closeRefs ≠ 0 := fun x hx => by
    obtain ⟨t, ht, rfl⟩ := mem_map.1 hx
    exact h.gone t ht
  obtain ⟨hl, hr⟩ := listenings_step hw hs hc hg hst
  have hn : b.nextRef ≤ b'.nextRef :=
    (step_moves hw hst).inv (I := fun c => b.nextRef ≤ c.nextRef) hw (le_refl _)
      fun _ _ _ hm hi => hi.trans hm.nextRef_le
  refine .of_listenings h hn hr hl fun T' => ?_
  cases e <;> first | rfl | exact absurd trivial hs

lemma Advance.ipc {op : IpcOp} (hw : Wf b) (h : Lifecycle digest tr b)
    (hb : BindsOk b (.ipc op)) (hs : brokerStep digest b (.ipc op) = some b') :
    Advance (.ipc op) b b' := by
  have plain := Advance.plain hw h hs
  have same : b' = b → Advance (.ipc op) b b' := by
    rintro rfl
    exact .of_listenings h (le_refl _) rfl rfl fun _ => rfl
  have hop : b' = (ipcHandleOp digest b op).1 := by
    simp only [brokerStep, handleEvent] at hs
    split_ifs at hs
    exact (some.inj hs).symm
  cases op with
  | createTunnel =>
    rw [hop]
    exact .createTunnel h hb
  | deleteTunnel =>
    simp only [ipcHandleOp, withTunnel] at hop
    split at hop
    · exact same hop
    · rename_i t ht
      rw [hop]
      exact .delete h (mem_tmTunnelFind ht).1
  | disableTunnel =>
    simp only [ipcHandleOp, withTunnel] at hop
    split at hop
    · exact same hop
    · rename_i t ht
      obtain ⟨hm, hr, -⟩ := mem_tmTunnelFind ht
      split_ifs at hop
      · exact same hop
      · rw [hop]
        exact .disable h hm ((hw.ok t hm).live hr)
  | enableTunnel =>
    simp only [ipcHandleOp, withTunnel] at hop
    split at hop
    · exact same hop
    · rename_i t ht
      obtain ⟨hm, hr, -⟩ := mem_tmTunnelFind ht
      split_ifs at hop with he
      · exact same hop
      · rw [hop]
        exact .enable h hm ((hw.ok t hm).live hr) (by simpa using he) (hb t ht)
  | rotateAgentSecret | rotateSharedToken | killStream =>
    exact plain not_false (by rintro ⟨_, _, _, _, ⟨⟩⟩)

lemma Advance.step (hw : Wf b) (h : Lifecycle digest tr b) (hb : BindsOk b e)
    (hcl : e ≠ .cleanup) (hs : brokerStep digest b e = some b') : Advance e b b' := by
  have plain := Advance.plain hw h hs
  cases e with
  | ipc op => exact .ipc hw h hb hs
  | cleanup => exact absurd rfl hcl
  | listenerClosed T bound =>
    simp only [brokerStep, handleEvent] at hs
    split_ifs at hs
    obtain ⟨t, ht, hst⟩ := bind_eq_some_iff.1 hs
    obtain rfl : t.ref = T := key_of_get ht
    split_ifs at hst with hc
    cases hst
    obtain rfl : bound = true := hb
    exact .listenerClosed h (mem_of_get ht) hc
  | udpClosed T =>
    simp only [brokerStep, handleEvent] at hs
    split_ifs at hs
    obtain ⟨t, ht, hst⟩ := bind_eq_some_iff.1 hs
    obtain rfl : t.ref = T := key_of_get ht
    split_ifs at hst with hc
    cases hst
    exact .udpClosed h (mem_of_get ht) hc
  | _ => exact plain not_false (by rintro ⟨_, _, _, _, ⟨⟩⟩)

end Advance

/-! ## Runs -/

lemma Lifecycle.init (h : BrokerInit b) : Lifecycle digest [] b := by
  obtain ⟨cfg, -, rfl⟩ := h
  exact ⟨.nil, by simp [allTunnels], by simp [allTunnels], fun _ _ => rfl, by simp,
    by simp, by simp⟩

lemma Lifecycle.of_trace (h : Trace (brokerStep digest) BrokerInit tr b)
    (hok : ∀ p ∈ tr, BindsOk p.1 p.2 ∧ p.2 ≠ .cleanup) : Lifecycle digest tr b := by
  induction h with
  | start hi => exact .init hi
  | next ht hs ih =>
    obtain ⟨⟨hb, hc⟩, hok⟩ := forall_mem_cons.1 hok
    have hl := ih hok
    exact hl.advance hs (.step (.of_trace ht) hl hb hc hs)

lemma closeRefs_eq_closesDue (h : t.listening.Settled) (hp : t.proto = .tcp) :
    t.closeRefs = t.closesDue := by
  have hr : t.closeRefs = (if t.listenerClosing then 1 else 0) + t.udpClosing := h.refs
  have hu : t.udpClosing = 0 := (h.tcp hp).2
  rw [hr, hu, Tunnel.closesDue]
  cases t.listenerClosing <;> rfl

/-- In every run in which binding succeeds, up to a shutdown, an open TCP tunnel has as many
`close_refs` as its listener has closes to wait for, and without one the listener is open exactly if
the tunnel is enabled and not deleted. A deleted tunnel stays while a close is pending, and is freed
once. -/
theorem listener_lifecycle {tr : List (Broker × BrokerEvent)}
    (h : Trace (brokerStep digest) BrokerInit tr b)
    (hok : ∀ p ∈ tr, BindsOk p.1 p.2 ∧ p.2 ≠ .cleanup) :
    (∀ t ∈ b.tunnels, t.proto = .tcp → t.closed = false →
      t.closeRefs = pendingCloses digest t.ref tr ∧ 0 ≤ t.closeRefs ∧
      (t.listenerRestartPending = true → t.enabled = true ∧ 0 < pendingCloses digest t.ref tr) ∧
      (pendingCloses digest t.ref tr = 0 →
        (t.listenerOpen = true ↔ t.enabled = true ∧ t.deleting = false)) ∧
      (t.deleting = true → 0 < pendingCloses digest t.ref tr)) ∧
    (∀ t ∈ b.released, t.deleting = true ∧
      (t.proto = .tcp → t.closed = false → pendingCloses digest t.ref tr = 0)) ∧
    ((b.tunnels ++ b.released).map Tunnel.ref).Nodup ∧
    ∀ p ∈ tr, ∀ t ∈ p.1.tunnels, ∃ t' ∈ b.tunnels ++ b.released, t'.ref = t.ref := by
  have hl := Lifecycle.of_trace h hok
  have left : ∀ t ∈ b.tunnels, t ∈ b.allTunnels := fun t ht => mem_allTunnels.2 (.inl ht)
  refine ⟨fun t ht hp ho => ?_, fun t ht => ⟨(hl.released t ht).1, fun hp _ => ?_⟩, hl.fresh.nodup,
    fun p hm t ht => hl.kept p hm t (mem_allTunnels.2 (.inl ht))⟩
  · have hs := hl.settled t (left t ht)
    have hd := hl.due t (left t ht)
    have hc := closeRefs_eq_closesDue hs hp
    rw [hd]
    have h0 : 0 ≤ t.closesDue := by
      unfold Tunnel.closesDue
      split_ifs <;> decide
    refine ⟨hc, hc ▸ h0, fun hr => ?_, fun h0 => ?_, fun hdel => ?_⟩
    · obtain ⟨hcl, hen⟩ := hs.restart hr
      have hcl : t.listenerClosing = true := hcl
      exact ⟨hen, by simp [Tunnel.closesDue, hcl]⟩
    · have hcl : t.listenerClosing = false := by simpa [Tunnel.closesDue] using h0
      have hop : t.deleting = false → t.listenerOpen = t.enabled := hs.opened hp ho hcl
      have hno : t.deleting = true → t.listenerOpen = false := fun hdel => (hs.dead hdel).1
      cases hdel : t.deleting with
      | false => simp [hop hdel]
      | true => simp [hno hdel]
    · have hne := hl.gone t ht hdel
      omega
  · have hr : t ∈ b.allTunnels := mem_allTunnels.2 (.inr ht)
    rw [hl.due t hr, ← closeRefs_eq_closesDue (hl.settled t hr) hp, (hl.released t ht).2]

theorem listener_lifecycle_restart : ∃ tr b, Trace (brokerStep padDigest) BrokerInit tr b ∧
    b.released.map Tunnel.ref = [0] ∧ b.tunnels.map Tunnel.ref = [1] ∧
    ∀ t ∈ b.tunnels, t.listenerRestartPending = true ∧
      t.closeRefs = pendingCloses padDigest t.ref tr ∧ 0 < pendingCloses padDigest t.ref tr := by
  obtain ⟨tr, b, h, hok, hr, ht, hp⟩ := smallBroker_trace
    [creates [65] false, .ipc (.deleteTunnel [65]), .listenerClosed 0 true, creates [66] false,
      .ipc (.disableTunnel [66]), .ipc (.enableTunnel [66] true)]
    (fun r => (∀ p ∈ r.1, BindsOk p.1 p.2 ∧ p.2 ≠ .cleanup) ∧ r.2.released.map Tunnel.ref = [0] ∧
      r.2.tunnels.map Tunnel.ref = [1] ∧ ∀ t ∈ r.2.tunnels, t.proto = .tcp ∧ t.closed = false ∧
        t.listenerRestartPending = true) (by decide)
  refine ⟨tr, b, h, hr, ht, fun t hm => ?_⟩
  obtain ⟨htcp, hopen, hpend⟩ := hp t hm
  obtain ⟨hc, -, hres, -⟩ := (listener_lifecycle h hok).1 t hm htcp hopen
  exact ⟨hpend, hc, (hres hpend).2⟩

end TunnelMate
