import TunnelMate.Ipc

/-!
# What a tunnel keeps

Only an open TCP tunnel has a public listener, only a UDP tunnel has sessions and flows, and a
tunnel that has left the registry has neither a socket nor sessions nor flows any more.
-/

namespace TunnelMate

@[simp]
lemma key_tunnel (t : Tunnel) : Keyed.key t = t.ref := rfl

@[simp]
lemma key_stream (st : Stream) : Keyed.key st = st.ref := rfl

def Udp.Plane.Empty (p : Udp.Plane) : Prop := p.sessions = [] ∧ p.flows = []

variable {p : Udp.Plane}

namespace Tunnel

variable {t t' : Tunnel} {bound : Bool} {cfg : BrokerCfg} {digest : Bytes → Digest}

structure Stopped (t : Tunnel) : Prop where
  plane : t.udp.Empty
  udpOpen : t.udpOpen = false
  listener : t.listenerOpen = false
  restart : t.listenerRestartPending = false

structure Ok (t : Tunnel) : Prop where
  tcp : t.proto = .tcp → t.udp.Empty ∧ t.udpOpen = false
  listener : t.proto = .udp ∨ t.closed = true →
    t.listenerOpen = false ∧ t.listenerRestartPending = false
  unregistered : t.registered = false → t.Stopped
  deleting : t.deleting = true → t.registered = false

lemma Ok.live (h : t.Ok) (hr : t.registered = true) : t.deleting = false := by
  cases hd : t.deleting with
  | false => rfl
  | true => rw [h.deleting hd] at hr; cases hr

def Stale (t : Tunnel) : Prop :=
  t.listener = .live ∧ t.listenerOpen = false ∨ t.udpSock = .live ∧ t.udpOpen = false

instance : Decidable t.Stale := inferInstanceAs (Decidable (_ ∨ _))

structure Reusable (t : Tunnel) : Prop where
  fresh : ¬ t.Stale
  udpClosing : t.proto = .udp → t.udpClosing = 0

instance : Decidable t.Reusable :=
  decidable_of_iff (¬ t.Stale ∧ (t.proto = .udp → t.udpClosing = 0))
    ⟨fun h => ⟨h.1, h.2⟩, fun h => ⟨h.1, h.2⟩⟩

structure Handles (t : Tunnel) : Prop where
  listenerOpen : t.listenerOpen = true → t.listener = .live
  listenerClosing : t.listenerClosing = true ↔ t.listener = .closing
  udpOpen : t.udpOpen = true → t.udpSock = .live
  udpClosing : t.udpClosing = if t.udpSock = .closing then 1 else 0
  refs : t.closeRefs = (if t.listener = .closing then 1 else 0) + t.udpClosing
  listener : t.proto = .udp ∨ t.closed = true → t.listener = .closed
  udpSock : t.proto = .tcp → t.udpSock = .closed
  deleting : t.deleting = true → ¬ t.Stale
  inits : ∀ h ∈ t.inits, h = .closed

structure Same (t t' : Tunnel) : Prop where
  ref : t'.ref = t.ref
  id : t'.id = t.id
  proto : t'.proto = t.proto
  closed : t'.closed = t.closed
  port : t'.publicPort = t.publicPort
  registered : t'.registered = t.registered
  agent : t'.agent = t.agent

/-- All but the sockets is the same. -/
structure Rest (t t' : Tunnel) : Prop extends Same t t' where
  online : t'.agentOnline = t.agentOnline
  active : t'.streamsActive = t.streamsActive
  enabled : t'.enabled = t.enabled
  agentSecretHmac : t'.agentSecretHmac = t.agentSecretHmac
  sharedTokenHmac : t'.sharedTokenHmac = t.sharedTokenHmac
  udp : t'.udp = t.udp

structure Mild (t t' : Tunnel) : Prop extends Same t t' where
  ok : t.Ok → t'.Ok

structure Step (cfg : BrokerCfg) (digest : Bytes → Digest) (reuse : Prop) (t t' : Tunnel) : Prop
    extends Mild t t' where
  udp : t'.udp = t.udp ∨ t'.udp = Udp.tmUdpStop t.udp ∨
    ∃ l, Udp.step cfg digest t.udp l = some t'.udp
  handles : reuse → t.Handles → t'.Handles

/-- What the sockets and the plane of a tunnel do not touch: only `switch` changes whether it is
enabled and starts what is stopped, only `rotate` changes its credentials, and but for `plane` its
plane stays or is stopped. -/
structure Kept (switch rotate plane : Prop) (t t' : Tunnel) : Prop where
  online : t'.agentOnline = t.agentOnline
  active : t'.streamsActive = t.streamsActive
  enabled : switch ∨ t'.enabled = t.enabled
  stopped : switch ∨ (t.Stopped → t'.Stopped)
  agentSecretHmac : rotate ∨ t'.agentSecretHmac = t.agentSecretHmac
  sharedTokenHmac : rotate ∨ t'.sharedTokenHmac = t.sharedTokenHmac
  udp : plane ∨ t'.udp = t.udp ∨ t'.udp = Udp.tmUdpStop t.udp

structure Listening where
  ref : Ref
  proto : Proto
  closed : Bool
  enabled : Bool
  deleting : Bool
  listenerOpen : Bool
  listenerClosing : Bool
  listenerRestartPending : Bool
  udpOpen : Bool
  udpClosing : ℕ
  closeRefs : ℤ

def listening (t : Tunnel) : Listening :=
  { t with }

def stopSockets (proto : Proto) (t : Tunnel) : Tunnel :=
  (if proto = .tcp then tmTunnelListenerStop else tmUdpStop) t

namespace Ok

section

variable (h : t.Ok)
include h

lemma proto_of_open (ho : t.listenerOpen = true) :
    t.proto = .tcp ∧ t.closed = false ∧ t.registered = true := by
  refine ⟨?_, ?_, ?_⟩
  · rcases hp : t.proto with _ | _
    · rfl
    · simp [(h.listener (.inl hp)).1] at ho
  · rcases hc : t.closed with _ | _
    · rfl
    · simp [(h.listener (.inr hc)).1] at ho
  · rcases hr : t.registered with _ | _
    · simp [(h.unregistered hr).listener] at ho
    · rfl

lemma listenerStart (hr : t.registered = true) : (tmTunnelListenerStart bound t).Ok := by
  have hn : t.registered ≠ false := by simp [hr]
  unfold tmTunnelListenerStart
  split_ifs with h1 h2
  · exact h
  · exact h
  · exact h
  all_goals
    rw [not_or, not_not] at h1
    refine { h with listener := fun hc => ?_, unregistered := fun hu => absurd hu hn }
    rcases hc with hc | hc
    · rw [h1.1] at hc; cases hc
    · exact absurd hc h2

lemma listenerStop : (tmTunnelListenerStop t).Ok := by
  have h' : ({ t with listenerRestartPending := false } : Tunnel).Ok :=
    { h with
      listener := fun hc => ⟨(h.listener hc).1, rfl⟩
      unregistered := fun hu => { h.unregistered hu with restart := rfl } }
  unfold tmTunnelListenerStop
  dsimp only
  split_ifs
  · exact { h' with
      listener := fun hc => ⟨rfl, rfl⟩
      unregistered := fun hu => { h'.unregistered hu with listener := rfl } }
  · exact h'

lemma listenerClosed : (tunnelListenerClosed bound t).Ok := by
  unfold tunnelListenerClosed
  dsimp only
  split_ifs with hd hp
  · exact { h with unregistered := fun hu => { h.unregistered hu with } }
  · refine listenerStart { h with
      listener := fun hc => ⟨(h.listener hc).1, rfl⟩
      unregistered := fun hu => { h.unregistered hu with restart := rfl } } ?_
    rcases hr : t.registered with _ | _
    · simp [(h.unregistered hr).restart] at hp
    · rfl
  · exact { h with unregistered := fun hu => { h.unregistered hu with } }

lemma udpStart (hr : t.registered = true) : (tmUdpStart bound t).Ok := by
  unfold tmUdpStart
  split_ifs with h1
  · exact h
  · rw [not_or, not_not] at h1
    refine { h with tcp := fun hc => ?_, unregistered := fun hu => ?_ }
    · rw [h1.1] at hc; cases hc
    · simp [hr] at hu

lemma udpStop : (tmUdpStop t).Ok := by
  have he : (Udp.tmUdpStop t.udp).Empty := ⟨rfl, rfl⟩
  unfold tmUdpStop
  dsimp only
  split_ifs
  · exact { h with
      tcp := fun _ => ⟨he, rfl⟩
      unregistered := fun hu => { h.unregistered hu with plane := he, udpOpen := rfl } }
  · exact { h with
      tcp := fun hc => ⟨he, (h.tcp hc).2⟩
      unregistered := fun hu => { h.unregistered hu with plane := he } }

lemma udpClosed : (tunnelUdpClosed t).Ok :=
  { h with unregistered := fun hu => { h.unregistered hu with } }

lemma setAgent {a : Option Ref} {o : Bool} :
    ({ t with agent := a, agentOnline := o } : Tunnel).Ok :=
  { h with unregistered := fun hu => { h.unregistered hu with } }

lemma setUdp
    (hp : t.udpOpen = true ∨ (t.udp.Empty → p.Empty)) : ({ t with udp := p } : Tunnel).Ok := by
  have key : t.udp.Empty → t.udpOpen = false → p.Empty := fun he ho =>
    hp.elim (fun hp => by simp [ho] at hp) fun hp => hp he
  exact { h with
    tcp := fun hc => ⟨key (h.tcp hc).1 (h.tcp hc).2, (h.tcp hc).2⟩
    unregistered := fun hu =>
      { h.unregistered hu with
        plane := key (h.unregistered hu).plane (h.unregistered hu).udpOpen } }

end

end Ok

lemma Same.udpStop : Same t (tmUdpStop t) := by
  unfold tmUdpStop
  dsimp only
  split_ifs <;> exact ⟨rfl, rfl, rfl, rfl, rfl, rfl, rfl⟩

namespace Rest

lemma refl : Rest t t := ⟨⟨rfl, rfl, rfl, rfl, rfl, rfl, rfl⟩, rfl, rfl, rfl, rfl, rfl, rfl⟩

lemma listenerStart : Rest t (tmTunnelListenerStart bound t) := by
  unfold tmTunnelListenerStart
  split_ifs <;> exact { refl (t := t) with }

lemma listenerStop : Rest t (tmTunnelListenerStop t) := by
  unfold tmTunnelListenerStop
  dsimp only
  split_ifs <;> exact { refl (t := t) with }

lemma listenerClosed : Rest t (tunnelListenerClosed bound t) := by
  unfold tunnelListenerClosed
  dsimp only
  split_ifs
  · exact { refl (t := t) with }
  · exact { listenerStart with }
  · exact { refl (t := t) with }

lemma start : Rest t (tunnelStart bound t) := by
  unfold tunnelStart tmUdpStart
  split_ifs
  · exact listenerStart
  · exact refl
  · exact { refl (t := t) with }

end Rest

lemma Ok.start (h : t.Ok) (hr : t.registered = true) : (tunnelStart bound t).Ok := by
  unfold tunnelStart
  split_ifs
  · exact h.listenerStart hr
  · exact h.udpStart hr

lemma udp_stop : (tmUdpStop t).udp = Udp.tmUdpStop t.udp := by
  unfold tmUdpStop
  dsimp only
  split_ifs <;> rfl

variable {ah th : Bytes} {en : Bool} {t'' : Tunnel} {n : ℤ} {proto : Proto}

namespace Kept

variable {switch rotate plane : Prop}

lemma of_rest (h : Rest t t') (hs : switch ∨ (t.Stopped → t'.Stopped)) :
    Kept switch rotate plane t t' :=
  ⟨h.online, h.active, .inr h.enabled, hs, .inr h.agentSecretHmac, .inr h.sharedTokenHmac,
    .inr (.inl h.udp)⟩

lemma setEnabled (h : switch) : Kept switch rotate plane t { t with enabled := en } :=
  ⟨rfl, rfl, .inl h, .inl h, .inr rfl, .inr rfl, .inr (.inl rfl)⟩

lemma setHmacs (h : rotate) :
    Kept switch rotate plane t { t with agentSecretHmac := ah, sharedTokenHmac := th } :=
  ⟨rfl, rfl, .inr rfl, .inr fun hs => { hs with }, .inl h, .inl h, .inr (.inl rfl)⟩

lemma listenerStop : Kept switch rotate plane t (tmTunnelListenerStop t) := by
  refine .of_rest .listenerStop (.inr fun h => ?_)
  unfold tmTunnelListenerStop
  dsimp only
  split_ifs
  · exact { h with listener := rfl, restart := rfl }
  · exact { h with restart := rfl }

lemma listenerClosed : Kept switch rotate plane t (tunnelListenerClosed bound t) := by
  refine .of_rest .listenerClosed (.inr fun h => ?_)
  unfold tunnelListenerClosed
  dsimp only
  split_ifs with hd hr
  · exact { h with }
  · simp [h.restart] at hr
  · exact { h with }

lemma udpStop : Kept switch rotate plane t (tmUdpStop t) := by
  unfold tmUdpStop
  dsimp only
  split_ifs
  · exact ⟨rfl, rfl, .inr rfl, .inr fun h => { h with plane := ⟨rfl, rfl⟩, udpOpen := rfl },
      .inr rfl, .inr rfl, .inr (.inr rfl)⟩
  · exact ⟨rfl, rfl, .inr rfl, .inr fun h => { h with plane := ⟨rfl, rfl⟩ }, .inr rfl, .inr rfl,
      .inr (.inr rfl)⟩

lemma udpClosed : Kept switch rotate plane t (tunnelUdpClosed t) :=
  .of_rest { Rest.refl (t := t) with } (.inr fun h => { h with })

lemma stopSockets (proto : Proto) : Kept switch rotate plane t (t.stopSockets proto) := by
  unfold Tunnel.stopSockets
  split_ifs
  · exact .listenerStop
  · exact .udpStop

lemma start (h : switch) : Kept switch rotate plane t (tunnelStart bound t) :=
  .of_rest .start (.inl h)

lemma stop_stop (p : Udp.Plane) : Udp.tmUdpStop (Udp.tmUdpStop p) = Udp.tmUdpStop p := by
  simp [Udp.tmUdpStop]

lemma trans (h : Kept switch rotate plane t t')
    (h' : Kept switch rotate plane t' t'') : Kept switch rotate plane t t'' where
  online := h'.online.trans h.online
  active := h'.active.trans h.active
  enabled := or_and_left.2 ⟨h.enabled, h'.enabled⟩ |>.imp_right fun h => h.2.trans h.1
  stopped := or_and_left.2 ⟨h.stopped, h'.stopped⟩ |>.imp_right fun h ht => h.2 (h.1 ht)
  agentSecretHmac := or_and_left.2 ⟨h.agentSecretHmac, h'.agentSecretHmac⟩ |>.imp_right
    fun h => h.2.trans h.1
  sharedTokenHmac := or_and_left.2 ⟨h.sharedTokenHmac, h'.sharedTokenHmac⟩ |>.imp_right
    fun h => h.2.trans h.1
  udp := or_and_left.2 ⟨h.udp, h'.udp⟩ |>.imp_right fun ⟨h, h'⟩ => by
    rcases h with h | h <;> rcases h' with h' | h' <;> rw [h', h]
    · exact .inl rfl
    · exact .inr rfl
    · exact .inr rfl
    · exact .inr (stop_stop _)

end Kept

lemma Mild.stopSockets (proto : Proto) : Mild t (t.stopSockets proto) := by
  unfold Tunnel.stopSockets
  split_ifs
  · exact ⟨Rest.listenerStop.toSame, .listenerStop⟩
  · exact ⟨.udpStop, .udpStop⟩

lemma Mild.set : Mild t { t with
    enabled := en, agentSecretHmac := ah, sharedTokenHmac := th, streamsActive := n } :=
  ⟨⟨rfl, rfl, rfl, rfl, rfl, rfl, rfl⟩,
    fun h => { h with unregistered := fun hu => { h.unregistered hu with } }⟩

lemma Stale.of_stopSockets (h : (t.stopSockets proto).Stale) : t.Stale := by
  unfold stopSockets at h
  split_ifs at h
  · unfold tmTunnelListenerStop at h
    dsimp only at h
    split_ifs at h
    · exact h.elim (fun hs => by cases hs.1) .inr
    · exact h
  · unfold tmUdpStop at h
    dsimp only at h
    split_ifs at h
    · exact h.elim .inl fun hs => by cases hs.1
    · exact h

namespace Handles

lemma fresh {r : Ref} {id : Bytes} {closed : Bool} {port : ℕ} : Handles
      { ref := r, id := id, proto := proto, closed := closed, publicPort := port,
        agentSecretHmac := ah, sharedTokenHmac := th } where
  listenerOpen h := by cases h
  listenerClosing := by simp
  udpOpen h := by cases h
  udpClosing := rfl
  refs := rfl
  listener _ := rfl
  udpSock _ := rfl
  deleting h := by cases h
  inits := by simp

section

variable (h : t.Handles)
include h

lemma listenerStart (hf : t.listenerOpen = false → t.listener ≠ .live) :
    (tmTunnelListenerStart bound t).Handles := by
  unfold tmTunnelListenerStart
  split_ifs with h1 h2 h3 h4
  · exact h
  · exact h
  · exact h
  · exact { h with }
  · simp only [not_or, not_not, Bool.not_eq_true] at h1 h2 h3 h4
    have hc : t.listener = .closed := by
      cases hl : t.listener with
      | closed => rfl
      | live => exact absurd hl (hf h1.2)
      | closing => rw [h.listenerClosing.2 hl] at h4; cases h4
    have hr := h.refs
    rw [hc] at hr
    exact { h with
      listenerOpen := fun _ => rfl
      listenerClosing := by simp [h4]
      refs := by simpa using hr
      listener := fun hn => by simp [h1.1, h2] at hn
      deleting := fun hd => by simp [h3] at hd
      inits := List.forall_mem_cons.2 ⟨hc, h.inits⟩ }

lemma listenerStop : (tmTunnelListenerStop t).Handles := by
  unfold tmTunnelListenerStop
  dsimp only
  split_ifs with ho
  · have hl := h.listenerOpen ho
    have hr := h.refs
    rw [hl, if_neg (by simp)] at hr
    exact { h with
      listenerOpen := fun hn => by cases hn
      listenerClosing := by simp
      refs := by rw [if_pos rfl]; dsimp only; omega
      listener := fun hn => by rw [h.listener hn] at hl; cases hl
      deleting := fun hd hs => h.deleting hd (hs.elim (fun hs => by cases hs.1) .inr) }
  · exact { h with }

lemma listenerClosed (hc : t.listenerClosing = true) : (tunnelListenerClosed bound t).Handles := by
  have hl := h.listenerClosing.1 hc
  have ho : t.listenerOpen = false := by
    cases ho : t.listenerOpen with
    | false => rfl
    | true => rw [h.listenerOpen ho] at hl; cases hl
  have hr := h.refs
  rw [hl, if_pos rfl] at hr
  have h' : Handles { t with
      listener := .closed, listenerClosing := false, closeRefs := t.closeRefs - 1 } :=
    { h with
      listenerOpen := fun hn => by simp [ho] at hn
      listenerClosing := by simp
      refs := by rw [if_neg (by simp)]; dsimp only; omega
      listener := fun _ => rfl
      deleting := fun hd hs => h.deleting hd (hs.elim (fun hs => by cases hs.1) .inr) }
  unfold tunnelListenerClosed
  dsimp only
  split_ifs with hd hp
  · exact h'
  · exact listenerStart { h' with } fun _ => by simp
  · exact h'

lemma udpStart (hf : t.udpOpen = false → t.udpSock ≠ .live)
    (hc : t.proto = .udp → t.udpClosing = 0) (hd : t.deleting = false) :
    (tmUdpStart bound t).Handles := by
  unfold tmUdpStart
  split_ifs with h1
  · exact h
  · simp only [not_or, not_not, Bool.not_eq_true] at h1
    have hn := h.udpClosing
    rw [hc h1.1] at hn
    have hcl : t.udpSock = .closed := by
      cases hl : t.udpSock with
      | closed => rfl
      | live => exact absurd hl (hf h1.2)
      | closing => simp [hl] at hn
    exact { h with
      udpOpen := fun _ => rfl
      udpClosing := by simpa using hc h1.1
      udpSock := fun hp => by simp [h1.1] at hp
      deleting := fun hd' => by simp [hd] at hd'
      inits := List.forall_mem_cons.2 ⟨hcl, h.inits⟩ }

lemma udpStop : (tmUdpStop t).Handles := by
  unfold tmUdpStop
  dsimp only
  split_ifs with ho
  · have hl := h.udpOpen ho
    have hn := h.udpClosing
    have hr := h.refs
    rw [hl, if_neg (by simp)] at hn
    exact { h with
      udpOpen := fun hn => by cases hn
      udpClosing := by rw [if_pos rfl]; dsimp only; omega
      refs := by dsimp only; push_cast; omega
      udpSock := fun hp => by rw [h.udpSock hp] at hl; cases hl
      deleting := fun hd hs => h.deleting hd (hs.elim .inl fun hs => by cases hs.1) }
  · exact { h with }

lemma udpClosed (hc : 0 < t.udpClosing) : (tunnelUdpClosed t).Handles := by
  have hn := h.udpClosing
  have hr := h.refs
  have hl : t.udpSock = .closing := by
    by_contra hl
    rw [if_neg hl] at hn
    omega
  rw [if_pos hl] at hn
  have ho : t.udpOpen = false := by
    cases ho : t.udpOpen with
    | false => rfl
    | true => rw [h.udpOpen ho] at hl; cases hl
  unfold tunnelUdpClosed
  rw [if_pos ⟨hl, hn⟩]
  exact { h with
    udpOpen := fun hn => by simp [ho] at hn
    udpClosing := by simp [hn]
    refs := by dsimp only; rw [hn] at hr ⊢; push_cast at hr ⊢; omega
    udpSock := fun _ => rfl
    deleting := fun hd hs => h.deleting hd (hs.elim .inl fun hs => by cases hs.1) }

lemma start (hu : t.Reusable) (hd : t.deleting = false) : (tunnelStart bound t).Handles := by
  unfold tunnelStart
  split_ifs
  · exact h.listenerStart fun ho hl => hu.fresh (.inl ⟨hl, ho⟩)
  · exact h.udpStart (fun ho hl => hu.fresh (.inr ⟨hl, ho⟩)) hu.udpClosing hd

end

lemma stopSockets (proto : Proto) (h : t.Handles) : (t.stopSockets proto).Handles := by
  unfold Tunnel.stopSockets
  split_ifs
  · exact h.listenerStop
  · exact h.udpStop

end Handles

namespace Step

variable {reuse : Prop}

lemma set : Step cfg digest reuse t { t with
    enabled := en, agentSecretHmac := ah, sharedTokenHmac := th, streamsActive := n } :=
  ⟨.set, .inl rfl, fun _ h => { h with }⟩

lemma listenerStop : Step cfg digest reuse t (tmTunnelListenerStop t) :=
  ⟨⟨Rest.listenerStop.toSame, .listenerStop⟩, .inl Rest.listenerStop.udp, fun _ => .listenerStop⟩

lemma listenerClosed (hc : t.listenerClosing = true) :
    Step cfg digest reuse t (tunnelListenerClosed bound t) :=
  ⟨⟨Rest.listenerClosed.toSame, .listenerClosed⟩, .inl Rest.listenerClosed.udp,
    fun _ h => h.listenerClosed hc⟩

lemma udpStop : Step cfg digest reuse t (tmUdpStop t) :=
  ⟨⟨.udpStop, .udpStop⟩, .inr (.inl udp_stop), fun _ => .udpStop⟩

lemma udpClosed (hc : 0 < t.udpClosing) : Step cfg digest reuse t (tunnelUdpClosed t) :=
  ⟨⟨⟨rfl, rfl, rfl, rfl, rfl, rfl, rfl⟩, .udpClosed⟩, .inl rfl, fun _ h => h.udpClosed hc⟩

lemma start (hr : t.registered = true) (hd : t.deleting = false) (hu : reuse → t.Reusable) :
    Step cfg digest reuse t (tunnelStart bound t) :=
  ⟨⟨Rest.start.toSame, fun h => h.start hr⟩, .inl Rest.start.udp, fun h hh => hh.start (hu h) hd⟩

lemma stopSockets (proto : Proto) : Step cfg digest reuse t (t.stopSockets proto) := by
  refine ⟨.stopSockets proto, ?_, fun _ => .stopSockets proto⟩
  unfold Tunnel.stopSockets
  split_ifs
  · exact .inl Rest.listenerStop.udp
  · exact .inr (.inl udp_stop)

lemma trans (h : Step cfg digest reuse t t') (hu : t'.udp = t.udp)
    (h' : Step cfg digest reuse t' t'') : Step cfg digest reuse t t'' :=
  ⟨⟨⟨h'.ref.trans h.ref, h'.id.trans h.id, h'.proto.trans h.proto, h'.closed.trans h.closed,
    h'.port.trans h.port, h'.registered.trans h.registered, h'.agent.trans h.agent⟩,
    fun hok => h'.ok (h.ok hok)⟩, hu ▸ h'.udp, fun hr hh => h'.handles hr (h.handles hr hh)⟩

end Step

lemma Ok.stopped (h : t.Ok) : (t.stopSockets t.proto).Stopped := by
  unfold stopSockets
  split_ifs with hp
  · obtain ⟨he, ho⟩ := h.tcp hp
    unfold tmTunnelListenerStop
    dsimp only
    split_ifs with hl
    · exact ⟨he, ho, rfl, rfl⟩
    · exact ⟨he, ho, by simpa using hl, rfl⟩
  · have hu : t.proto = .udp := by
      rcases ht : t.proto with _ | _
      · exact absurd ht hp
      · rfl
    obtain ⟨hl, hr⟩ := h.listener (.inl hu)
    unfold tmUdpStop
    dsimp only
    split_ifs with ho
    · exact ⟨⟨rfl, rfl⟩, rfl, hl, hr⟩
    · exact ⟨⟨rfl, rfl⟩, by simpa using ho, hl, hr⟩

end Tunnel

lemma Udp.Plane.Empty.maybeFree {s : Ref} (h : p.Empty) : (Udp.sessionMaybeFree s p).Empty := by
  unfold Udp.sessionMaybeFree
  split
  · exact h
  · split_ifs
    · exact h
    · exact h

lemma Udp.Plane.Empty.step {cfg : BrokerCfg} {digest : Bytes → Digest} {q : Udp.Plane}
    {l : Udp.Label} (he : p.Empty) (hs : Udp.step cfg digest p l = some q)
    (hl : ∀ addr data hs reads a, l.ev ≠ .packet addr data hs reads a) : q.Empty := by
  obtain ⟨h1, h2⟩ := he
  unfold Udp.step at hs
  split_ifs at hs
  rcases hev : l.ev with _ | ⟨s, a⟩ | ⟨s, recs, a⟩ | s | f | _ <;> rw [hev] at hs
  · exact absurd hev (hl _ _ _ _ _)
  · obtain ⟨-, rfl⟩ := of_guard hs
    cases s with
    | none => exact ⟨h1, h2⟩
    | some =>
      unfold Udp.sendDone
      dsimp only
      split_ifs
      · exact .maybeFree ⟨h1, h2⟩
      · simp [Udp.pumpOut, Udp.Plane.upd, Table.upd, Table.get, h1, h2, Empty]
  · cases hs
    simp [Udp.sessionTimer, Table.get, h1, h2, Empty]
  · obtain ⟨-, rfl⟩ := of_guard hs
    exact .maybeFree ⟨h1, h2⟩
  · simp [Udp.handle, Table.get, h2] at hs
  · cases hs
    exact ⟨rfl, rfl⟩

end TunnelMate
