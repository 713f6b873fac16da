import TunnelMate.Proofs.Records

/-!
# A disabled tunnel admits nothing

While a tunnel is disabled it has neither an agent nor an open socket, nor a restart pending, nor
sessions or flows, and its streams only go: none is added to it and none of them is bound.
-/

namespace TunnelMate

open List Option Table Broker

variable {digest : Bytes → Digest} {b₀ b b' : Broker} {e : BrokerEvent} {T : Ref}

def DisabledOk (b : Broker) : Prop :=
  ∀ t ∈ b.tunnels, t.enabled = false → t.agent = none ∧ t.Stopped

def DisabledBut (digest : Bytes → Digest) (b₀ : Broker) (e : BrokerEvent) (b : Broker) : Prop :=
  ∀ t ∈ b.tunnels, t.enabled = false →
    t.Stopped ∧ (t.agent ≠ none → ∃ c, Registers digest b₀ e c t.ref)

lemma DisabledOk.but (h : DisabledOk b) : DisabledBut digest b₀ e b :=
  fun t ht hd => ⟨(h t ht hd).2, fun ha => absurd (h t ht hd).1 ha⟩

lemma DisabledBut.move (hsw : ¬ Switches e) (hm : Move digest b₀ e b b')
    (h : DisabledBut digest b₀ e b) : DisabledBut digest b₀ e b' := by
  cases hm with
  | misc he =>
    intro t ht
    exact h t ((core_eq.1 he).2.2.1 ▸ ht)
  | tunnel hf hk =>
    refine forall_upd (fun t ht _ => h t ht) fun t ht he hd => ?_
    have hk := hk t ht he
    rw [(hf t ht he).agent, (hf t ht he).ref]
    obtain ⟨hs, ha⟩ := h t ht ((hk.enabled.resolve_left hsw).symm.trans hd)
    exact ⟨hk.stopped.resolve_left hsw hs, ha⟩
  | dropAgent =>
    refine forall_upd (fun t ht _ => h t ht) fun t ht _ hd => ⟨{ (h t ht hd).1 with }, fun ha => ?_⟩
    split_ifs at ha
    · exact absurd rfl ha
    · exact (h t ht hd).2 ha
  | addAgent hr =>
    refine forall_upd (fun t ht _ => h t ht) fun t ht he hd => ?_
    exact ⟨{ (h t ht hd).1 with }, fun _ => ⟨_, he ▸ hr⟩⟩
  | openStream | peerStream | closeStream | unregister =>
    exact forall_upd (fun t ht _ => h t ht) fun t ht _ hd => ⟨{ (h t ht hd).1 with }, (h t ht hd).2⟩
  | addTunnel hc =>
    exact forall_mem_cons.2 ⟨fun hd => absurd (hc.enabled.symm.trans hd) (by simp), h⟩
  | free => exact fun t ht => h t (mem_del.1 ht).1
  | _ =>
    exact h

variable {c : Ref} {t t₀ : Tunnel}

lemma Registers.plain (h : Registers digest b₀ e c T) : Plain b₀ e := by
  obtain ⟨f, w, k, rfl, -⟩ := h
  exact .of_ne_ipc (by simp) (by simp)

lemma Opens.plain (h : Opens b₀ e c T) : Plain b₀ e := by
  obtain ⟨f, w, k, rfl, -⟩ := h
  exact .of_ne_ipc (by simp) (by simp)

lemma Accepts.plain (h : Accepts e) : Plain b₀ e := by
  obtain ⟨t, peer, k, rfl⟩ := h
  exact .of_ne_ipc (by simp) (by simp)

lemma enabled_of_records (hw : Wf b₀) (hr : b.records = b₀.records)
    (ht : t ∈ b.tunnels) (htr : t.registered = true) (ht₀ : t₀ ∈ b₀.tunnels) (he : t₀.ref = t.ref) :
    t.enabled = t₀.enabled := by
  have hx : t.record ∈ b₀.records := hr ▸ mem_records.2 ⟨t, ht, htr, rfl⟩
  obtain ⟨u, hu, -, hur⟩ := mem_records.1 hx
  have hut : u.ref = t.ref := congrArg Record.ref hur
  rw [hw.tunnel_eq hu ht₀ (he.trans hut.symm)]
  exact (congrArg Record.enabled hur).symm

/-! ## Switching -/

lemma DisabledOk.enable {bound : Bool} (h : DisabledOk b) :
    DisabledOk (enableTunnel t bound b) := by
  refine forall_upd (fun u hu _ => h u hu) fun u _ _ hd => ?_
  rw [Tunnel.Rest.start.enabled] at hd
  cases hd

lemma Tunnel.stopped_stop (t : Tunnel) : (tmUdpStop (tmTunnelListenerStop t)).Stopped := by
  unfold tmTunnelListenerStop
  dsimp only
  split_ifs with hl
  all_goals
    unfold tmUdpStop
    split_ifs with hu
  · exact ⟨⟨rfl, rfl⟩, rfl, rfl, rfl⟩
  · exact ⟨⟨rfl, rfl⟩, by simpa using hu, rfl, rfl⟩
  · exact ⟨⟨rfl, rfl⟩, rfl, by simpa using hl, rfl⟩
  · exact ⟨⟨rfl, rfl⟩, by simpa using hu, by simpa using hl, rfl⟩

lemma DisabledOk.disable (hw : Wf b) (h : DisabledOk b) : DisabledOk (disableTunnel t b) := by
  unfold disableTunnel
  have hw₁ : Wf (b.updTun t.ref fun t => { t with enabled := false }) := hw.updTun fun _ _ _ => .set
  have h₁ : ∀ u ∈ (b.updTun t.ref fun t => { t with enabled := false }).tunnels, u.ref ≠ t.ref →
      u.enabled = false → u.agent = none ∧ u.Stopped :=
    forall_upd (fun u hu _ _ => h u hu) fun u _ he hne => absurd he hne
  generalize b.updTun t.ref (fun t => { t with enabled := false }) = b₁ at hw₁ h₁ ⊢
  have hna := agent_dropAgentOf (T := t.ref) hw₁
  have hother : ∀ u ∈ (dropAgentOf t.ref b₁).tunnels, u.ref ≠ t.ref → u.enabled = false →
      u.agent = none ∧ u.Stopped := by
    rcases dropAgentOf_cases (b := b₁) t.ref with he | ⟨a, he⟩ <;> rw [he]
    · exact h₁
    · refine tmAgentDrop_rule (I := fun b => ∀ u ∈ b.tunnels, u.ref ≠ t.ref → u.enabled = false →
        u.agent = none ∧ u.Stopped) h₁ fun _ _ _ => forall_upd (fun u hu _ => h₁ u hu) ?_
      refine fun u hu _ hne hd => ⟨?_, { (h₁ u hu hne hd).2 with }⟩
      rw [(h₁ u hu hne hd).1, ite_self]
  refine forall_upd (fun u hu hne => hother u hu hne) fun u hu he _ => ⟨?_, u.stopped_stop⟩
  rw [Tunnel.Same.udpStop.agent, Tunnel.Rest.listenerStop.agent]
  exact hna u hu he

lemma DisabledOk.step (hw : Wf b) (h : DisabledOk b) (hs : brokerStep digest b e = some b') :
    DisabledOk b' := by
  by_cases hsw : Switches e
  · simp only [brokerStep] at hs
    split_ifs at hs
    obtain ⟨id, bound, rfl⟩ | ⟨id, rfl⟩ := hsw <;> cases hs <;> simp only [ipcHandleOp, withTunnel]
    · split
      · exact h
      · split_ifs
        · exact h
        · exact h.enable
    · split
      · exact h
      · split_ifs
        · exact h
        · exact h.disable hw
  · have hm := step_moves hw hs
    have hw' := hm.wf hw
    have hb : DisabledBut digest b e b' := hm.inv hw h.but fun _ _ _ hm hb => hb.move hsw hm
    intro t ht hd
    obtain ⟨hst, ha⟩ := hb t ht hd
    refine ⟨?_, hst⟩
    by_contra hne
    obtain ⟨c, hr⟩ := ha hne
    obtain ⟨a, hta⟩ := ne_none_iff_exists'.1 hne
    have hrec := records_step hw hr.plain hs
    obtain ⟨-, -, -, -, -, -, t₀, ht₀, -, he, hen, -⟩ := hr
    have := enabled_of_records hw hrec ht (hw'.registered_of_agent ht hta) ht₀ he
    rw [hd, hen] at this
    cases this

lemma DisabledOk.of_trace {tr : List (Broker × BrokerEvent)}
    (h : Trace (brokerStep digest) BrokerInit tr b) : DisabledOk b := by
  refine h.inv_hist (I := fun _ b => DisabledOk b) (fun b hi => ?_) fun _ _ _ _ hr hd hs =>
    hd.step (.of_trace hr) hs
  obtain ⟨cfg, -, rfl⟩ := hi
  simp [DisabledOk]

/-! ## Streams -/

def StreamsFrom (T : Ref) (b₀ b : Broker) : Prop :=
  ∀ st ∈ b.streams, st.tun = T →
    ∃ st₀ ∈ b₀.streams, st₀.ref = st.ref ∧ st.relay.s.bound = st₀.relay.s.bound

lemma StreamsFrom.move (hw₀ : Wf b₀) (ht₀ : t₀ ∈ b₀.tunnels)
    (hd₀ : t₀.enabled = false) (hw : Wf b) (hm : Move digest b₀ e b b')
    (hp : Plain b₀ e → b.records = b₀.records ∧ DisabledBut digest b₀ e b)
    (h : StreamsFrom t₀.ref b₀ b) : StreamsFrom t₀.ref b₀ b' := by
  have same : b'.streams = b.streams → StreamsFrom t₀.ref b₀ b' := fun hs st hst => h st (hs ▸ hst)
  -- the tunnel is still disabled when a stream would be made
  have off : ∀ t ∈ b.tunnels, t.registered = true → t.ref = t₀.ref → Plain b₀ e →
      t.Stopped ∧ (t.agent ≠ none → ∃ c, Registers digest b₀ e c t.ref) := by
    intro t ht hr he hpl
    obtain ⟨hrec, hdb⟩ := hp hpl
    exact hdb t ht ((enabled_of_records hw₀ hrec ht hr ht₀ he.symm).trans hd₀)
  have setRelay : ∀ {x : Stream} {c : Duplex.Config Relay.Tail} (g : Stream → Option Ref),
      x ∈ b.streams → (x.tun = t₀.ref → c.s.bound = x.relay.s.bound) → StreamsFrom t₀.ref b₀
        (b.updStream x.ref fun x => { x with relay := c, sockB := g x }) := by
    intro x c g hx hc
    refine forall_upd (fun st hst _ => h st hst) fun st hst he hT => ?_
    rw [eq_of_key hw.streams.nodup hst hx he] at hT ⊢
    obtain ⟨st₀, hst₀, hr, hb⟩ := h x hx hT
    exact ⟨st₀, hst₀, hr, (hc hT).trans hb⟩
  cases hm with
  | misc he => exact same (core_eq.1 he).2.2.2.2.2.1
  | openStream ht ho ha =>
    refine forall_mem_cons.2 ⟨fun hT => ?_, h⟩
    have hst := (off _ ht ((hw.ok _ ht).proto_of_open ho).2.2 hT ha.accepts.plain).1
    exact absurd (hst.listener.symm.trans ho) (by simp)
  | peerStream hop _ ht hta =>
    refine forall_mem_cons.2 ⟨fun hT => ?_, h⟩
    obtain ⟨a, hs⟩ := ne_none_iff_exists'.1 hta
    have hreg := hw.registered_of_agent ht hs
    obtain ⟨c, f, w, k, he, hf, -⟩ := (off _ ht hreg hT hop.plain).2 hta
    obtain ⟨f', w', k', he', hf', -⟩ := hop
    obtain rfl := (BrokerEvent.connFrame.inj (he.symm.trans he')).2.1
    exact absurd (hf.symm.trans hf') (by simp)
  | closeStream => exact fun x hx => h x (mem_del.1 hx).1
  | relay hx hs hl => exact setRelay Stream.sockB hx fun _ => Relay.bound_step hs hl
  | @attach x conn c hx hb =>
    refine setRelay (fun _ => some conn) hx fun hT => ?_
    obtain ⟨-, -, -, -, -, -, -, -, t, ht, -, he, hen, -⟩ := hb
    rw [hw₀.tunnel_eq ht₀ ht (he.trans hT), hd₀] at hen
    cases hen
  | _ => exact same rfl

lemma StreamsFrom.step (hw : Wf b) (hd : DisabledOk b) (ht₀ : t₀ ∈ b.tunnels)
    (hd₀ : t₀.enabled = false) (hs : brokerStep digest b e = some b') :
    StreamsFrom t₀.ref b b' := by
  have hi := (step_moves hw hs).inv (I := fun c => StreamsFrom t₀.ref b c ∧
    (Plain b e → c.records = b.records ∧ DisabledBut digest b e c)) hw
    ⟨fun st hst _ => ⟨st, hst, rfl, rfl⟩, fun _ => ⟨rfl, hd.but⟩⟩ fun c c' hwc hm hi =>
      ⟨hi.1.move hw ht₀ hd₀ hwc hm hi.2, fun hp =>
        ⟨(hm.records hwc hp).trans (hi.2 hp).1, (hi.2 hp).2.move hp.switch hm⟩⟩
  exact hi.1

/-- In every run a disabled tunnel has no agent, no open socket, no restart pending, no sessions and
no flows, and no event gives it a stream or binds one of its streams. -/
theorem disabled_admits_nothing {tr : List (Broker × BrokerEvent)}
    (h : Trace (brokerStep digest) BrokerInit tr b) : ∀ t ∈ b.tunnels, t.enabled = false →
      (t.agent = none ∧ t.listenerOpen = false ∧ t.listenerRestartPending = false ∧
        t.udpOpen = false ∧ t.udp.sessions = [] ∧ t.udp.flows = []) ∧
      ∀ e b', brokerStep digest b e = some b' → StreamsFrom t.ref b b' := by
  intro t ht hd
  have hdis := DisabledOk.of_trace h
  obtain ⟨ha, hs⟩ := hdis t ht hd
  exact ⟨⟨ha, hs.listener, hs.restart, hs.udpOpen, hs.plane.1, hs.plane.2⟩,
    fun _ _ hst => .step (.of_trace h) hdis ht hd hst⟩

theorem disabled_admits_nothing_late : ∃ tr b, Trace (brokerStep padDigest) BrokerInit tr b ∧
    (∃ c ∈ b.conns, c.peerAuthed = true) ∧ b.streams.length = 1 ∧
    ∃ t ∈ b.tunnels, t.enabled = false ∧ t.agent = none ∧
      ∃ b', brokerStep padDigest b (sends 5 .dataBind 0 []) = some b' ∧ StreamsFrom t.ref b b' := by
  obtain ⟨tr, b, h, hc, hl, ⟨t, ht, hd⟩, hq⟩ := smallBroker_trace
    (peerOpens ++ [.controlAccept, sends 5 .hello 0 [], sends 5 .auth 0 [0, 1, 65, 2],
      .ipc (.disableTunnel [65])])
    (fun r => (∃ c ∈ r.2.conns, c.peerAuthed = true) ∧ r.2.streams.length = 1 ∧
      (∃ t ∈ r.2.tunnels, t.enabled = false) ∧
      (brokerStep padDigest r.2 (sends 5 .dataBind 0 [])).isSome = true) (by decide)
  obtain ⟨b', hb'⟩ := isSome_iff_exists.1 hq
  obtain ⟨⟨ha, -⟩, hs⟩ := disabled_admits_nothing h t ht hd
  exact ⟨tr, b, h, hc, hl, t, ht, hd, ha, b', hb', hs _ _ hb'⟩

end TunnelMate
