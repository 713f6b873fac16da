import TunnelMate.Proofs.PeerIso

/-!
# Isolation of tunnels

What an agent, an authenticated peer, a data connection or a datagram of one tunnel does is confined
to that tunnel and the connection it comes from.
-/

namespace TunnelMate

open Bool hiding not_or

open List Option Table

variable {digest : Bytes → Digest} {b b' b'' : Broker} {e : BrokerEvent} {T c : Option Ref}

/-- Nothing changes but the tunnel `T`, with its streams and its agent, the pending connection `c`,
counters and the log, and what is sent goes to `c` or to the agent of `T`. -/
structure Confined (T c : Option Ref) (b b' : Broker) : Prop where
  tunnels : ∀ t, some t.ref ≠ T → (t ∈ b'.tunnels ↔ t ∈ b.tunnels)
  streams : ∀ st, some st.tun ≠ T → (st ∈ b'.streams ↔ st ∈ b.streams)
  conns : ∀ x, some x.ref ≠ c → (x ∈ b'.conns ↔ x ∈ b.conns)
  agents : ∀ a, some a.tun ≠ T → (a ∈ b'.agents ↔ a ∈ b.agents)
  agentsOld : b'.agents ⊆ b.agents
  sent : ∃ new, b'.sent = new ++ b.sent ∧ ∀ s ∈ new, some s.conn = c ∨
    ∃ a ∈ b.agents, some a.tun = T ∧ s.conn = a.conn
  cfg : b'.cfg = b.cfg
  ports : b'.ports = b.ports
  tunnelCount : b'.tunnelCount = b.tunnelCount
  released : b'.released = b.released
  acceptRates : b'.acceptRates = b.acceptRates
  shuttingDown : b'.shuttingDown = b.shuttingDown
  cleanedUp : b'.cleanedUp = b.cleanedUp
  clock : b'.now = b.now ∧ b'.loop = b.loop

namespace Confined

lemma refl : Confined T c b b where
  tunnels _ _ := .rfl
  streams _ _ := .rfl
  conns _ _ := .rfl
  agents _ _ := .rfl
  agentsOld := .refl _
  sent := ⟨[], rfl, by simp⟩
  cfg := rfl
  ports := rfl
  tunnelCount := rfl
  released := rfl
  acceptRates := rfl
  shuttingDown := rfl
  cleanedUp := rfl
  clock := ⟨rfl, rfl⟩

lemma trans (h : Confined T c b b') (h' : Confined T c b' b'') : Confined T c b b'' where
  tunnels t ht := (h'.tunnels t ht).trans (h.tunnels t ht)
  streams st hst := (h'.streams st hst).trans (h.streams st hst)
  conns x hx := (h'.conns x hx).trans (h.conns x hx)
  agents a ha := (h'.agents a ha).trans (h.agents a ha)
  agentsOld := fun _ ha => h.agentsOld (h'.agentsOld ha)
  sent := by
    obtain ⟨new, hn, hs⟩ := h.sent
    obtain ⟨new', hn', hs'⟩ := h'.sent
    refine ⟨new' ++ new, by rw [hn', hn, append_assoc], fun s hm => ?_⟩
    rcases mem_append.1 hm with hm | hm
    · exact (hs' s hm).imp_right fun ⟨a, ha, hx⟩ => ⟨a, h.agentsOld ha, hx⟩
    · exact hs s hm
  cfg := h'.cfg.trans h.cfg
  ports := h'.ports.trans h.ports
  tunnelCount := h'.tunnelCount.trans h.tunnelCount
  released := h'.released.trans h.released
  acceptRates := h'.acceptRates.trans h.acceptRates
  shuttingDown := h'.shuttingDown.trans h.shuttingDown
  cleanedUp := h'.cleanedUp.trans h.cleanedUp
  clock := ⟨h'.clock.1.trans h.clock.1, h'.clock.2.trans h.clock.2⟩

lemma of_none (h : Confined none c b b') : Confined T c b b' :=
  { h with
    tunnels := fun t _ => h.tunnels t nofun
    streams := fun st _ => h.streams st nofun
    agents := fun a _ => h.agents a nofun
    sent := by
      obtain ⟨new, hn, hs⟩ := h.sent
      exact ⟨new, hn, fun s hm => .inl ((hs s hm).resolve_right fun ⟨_, _, hT, _⟩ => nomatch hT)⟩ }

lemma protocolError : Confined T c b b.protocolError := { Confined.refl with }

lemma failedAuth : Confined T c b b.failedAuth := { Confined.refl with }

lemma log {s : Sent} (h : some s.conn = c ∨ ∃ a ∈ b.agents, some a.tun = T ∧ s.conn = a.conn) :
    Confined T c b (b.log s) :=
  { Confined.refl with sent := ⟨[s], rfl, by simpa using h⟩ }

lemma connUnlink (x : Ref) : Confined T (some x) b (connUnlink x b) :=
  { Confined.refl with
    conns := fun y hy => by
      unfold TunnelMate.connUnlink
      rw [mem_del]
      exact and_iff_left fun he => hy (congrArg some he) }

lemma connClose (x : Ref) : Confined T (some x) b (connClose x b) :=
  { Confined.connUnlink (T := T) (b := b) x with }

section Send

variable {x : Ref} {type : MsgType} {sid : ℕ} {msg : String}

lemma sendFrameRaw (w : Write) : Confined T (some x) b (sendFrameRaw ⟨x, type, sid, msg⟩ w b) := by
  cases w with
  | taken => exact .log (.inl rfl)
  | refused => exact .protocolError
  | broken => exact .connClose x

lemma sendAndClose (w : Write) : Confined T (some x) b (sendAndClose ⟨x, type, sid, msg⟩ w b) :=
  (sendFrameRaw w).trans (.connClose x)

end Send

variable {t : Ref}

lemma updTun {f : Tunnel → Tunnel} (hf : ∀ x, (f x).ref = x.ref) :
    Confined (some t) c b (b.updTun t f) :=
  { Confined.refl with
    tunnels := fun x hx => by
      unfold Broker.updTun
      rw [mem_upd]
      constructor
      · rintro ⟨y, hy, rfl⟩
        split_ifs at hx ⊢ with he
        · exact absurd (congrArg some ((hf y).trans he)) hx
        · exact hy
      · intro hm
        exact ⟨x, hm, (if_neg fun he => hx (congrArg some he)).symm⟩ }

lemma closeStream (st : Ref) (h : ∀ x ∈ b.streams, x.ref = st → x.tun = t) :
    Confined (some t) c b (tmStreamClose st b) := by
  refine tmStreamClose_rule (I := Confined (some t) c b) .refl fun x hx he => ?_
  obtain rfl := h x hx he
  have hu : Confined (some x.tun) c b (b.updTun x.tun fun t =>
      { t with streamsActive := t.streamsActive - if 0 < t.streamsActive then 1 else 0 }) :=
    updTun fun _ => rfl
  refine { hu with streams := fun y hy => mem_del.trans (and_iff_left_of_imp fun hm hr => hy ?_) }
  exact congrArg some (h y hm (hr.trans he))

lemma updStream {t st : Ref} {f : Stream → Stream} (h : ∀ x ∈ b.streams, x.ref = st → x.tun = t)
    (hf : ∀ x, (f x).tun = x.tun) : Confined (some t) c b (b.updStream st f) :=
  { Confined.refl with
    streams := fun y hy => by
      unfold Broker.updStream
      rw [mem_upd]
      constructor
      · rintro ⟨x, hx, rfl⟩
        split_ifs at hy ⊢ with he
        · exact absurd (congrArg some ((hf x).trans (h x hx he))) hy
        · exact hx
      · exact fun hm => ⟨y, hm, (if_neg fun he => hy (congrArg some (h y hm he))).symm⟩ }

lemma relayStep {t st : Ref} {l : Relay.Label} (h : ∀ x ∈ b.streams, x.ref = st → x.tun = t)
    (hs : relayStep st l b = some b') :
    Confined (some t) c b b' ∧ ∀ x ∈ b'.streams, x.ref = st → x.tun = t := by
  unfold TunnelMate.relayStep at hs
  split at hs
  · cases hs
  · obtain ⟨r, -, rfl⟩ := map_eq_some_iff.1 hs
    split_ifs
    · exact ⟨.closeStream st h, fun x hx => h x (mem_tmStreamClose.1 hx).1⟩
    · refine ⟨{ Confined.updStream (f := fun x => { x with relay := r }) h fun _ => rfl with }, ?_⟩
      exact forall_upd (fun x hx _ => h x hx) fun x hx _ => h x hx

lemma dropAgent (a : Ref) (h : ∀ x ∈ b.agents, x.ref = a → x.tun = t) :
    Confined (some t) c b (tmAgentDrop a b) := by
  refine tmAgentDrop_rule (I := Confined (some t) c b) .refl fun x hx he => ?_
  obtain rfl := h x hx he
  have hu : Confined (some x.tun) c b (b.updTun x.tun fun t => { t with
      agent := if t.agent = some x.ref then none else t.agent
      agentOnline := if t.agent = some x.ref then false else t.agentOnline }) :=
    updTun fun _ => rfl
  refine { hu with
    agents := fun y hy => mem_del.trans (and_iff_left_of_imp fun hm hr => hy ?_)
    agentsOld := fun y hy => (mem_del.1 hy).1 }
  exact congrArg some (h y hm (hr.trans he))

lemma agentSend (a : Ref) (type : MsgType) (sid : ℕ) (taken : Bool)
    (h : ∀ x ∈ b.agents, x.ref = a → x.tun = t) :
    Confined (some t) c b (tmAgentSendFrame a type sid taken b) := by
  unfold tmAgentSendFrame
  split
  · exact .refl
  · rename_i x hx
    split_ifs
    · exact .log (.inr ⟨x, mem_of_get hx, congrArg some (h x (mem_of_get hx) (key_of_get hx)), rfl⟩)
    · exact .dropAgent a h

lemma link {id : ℕ} {sock : Sock} {s : Duplex.Stream} :
    Confined (some t) c b (streamLink t id sock s b).2 :=
  have hu : Confined (some t) c b
      (b.updTun t fun t => { t with streamsActive := t.streamsActive + 1 }) := updTun fun _ => rfl
  { hu with
    streams := fun st hst => by
      refine ⟨fun hm => ?_, mem_cons_of_mem _⟩
      rcases mem_cons.1 hm with rfl | hm
      · exact absurd rfl hst
      · exact hm }

/-! ## The handlers -/

lemma agentFrame {a : Agent} {f : Frame} {k : Bool} (hw : Wf b) (ha : a ∈ b.agents)
    (h : agentFrame a f k b = some b') : Confined (some a.tun) c b b' := by
  unfold TunnelMate.agentFrame at h
  split at h
  · split_ifs at h
    cases h
    exact .log (.inr ⟨a, ha, rfl, rfl⟩)
  case h_2 | h_3 | h_4 =>
    split at h <;> cases h
    · exact .refl
    · rename_i st hst
      obtain ⟨hm, hT, -⟩ := mem_tmStreamFind hst
      refine .closeStream _ fun x hx he => ?_
      rw [eq_of_key hw.streams.nodup hx hm he]
      exact hT
  · cases h
    exact .refl

variable {x : Conn} {f : Frame} {w : Write} {k : Bool}

lemma peerBindOk {st : Stream} (h : ∀ y ∈ b.streams, y.ref = st.ref → y.tun = t)
    (hb : peerBindOk x st w b = some b') : Confined (some t) (some x.ref) b b' := by
  cases w with
  | taken =>
    cases hb
    exact .log (.inl rfl)
  | refused =>
    cases hb
    exact .protocolError
  | broken => exact (relayStep h hb).1

lemma peerHandOver {t : Tunnel} (st : Stream)
    (h : ∀ a, t.agent = some a → ∀ y ∈ b.agents, y.ref = a → y.tun = t.ref) :
    Confined (some t.ref) (some x.ref) b (peerHandOver x t st k b) := by
  refine .trans ?_ (.connUnlink _)
  split
  · exact .refl
  · rename_i a ha
    exact .agentSend a _ _ _ (h a ha)

lemma peerOpenStream {t : Tunnel} (hw : Wf b) (ht : t ∈ b.tunnels)
    (h : peerOpenStream x t w k b = some b') : Confined (some t.ref) (some x.ref) b b' := by
  unfold TunnelMate.peerOpenStream at h
  split at h
  · cases h
    exact .sendAndClose w
  split at h
  · cases h
    exact .sendAndClose w
  split at h
  · cases h
    exact .sendAndClose w
  rename_i st b₁ hcr
  obtain ⟨b₂, hb₂, rfl⟩ := map_eq_some_iff.1 h
  unfold tmStreamCreateClosed at hcr
  split_ifs at hcr
  obtain ⟨rfl, rfl⟩ := Prod.mk.inj (some.inj hcr)
  have hl : Confined (some t.ref) (some x.ref) b (streamLink t.ref (sidOf b.sidCounter2)
      (.conn x.ref) (Relay.createdClosed x.ref)
      { b with sidCounter2 := (b.sidCounter2 + 1) % 2 ^ 64 }).2 :=
    { Confined.link (b := { b with sidCounter2 := (b.sidCounter2 + 1) % 2 ^ 64 }) with }
  have hbind : Confined (some t.ref) (some x.ref) _ b₂ := .peerBindOk (fun y hy he => by
    rcases mem_cons.1 hy with rfl | hy
    · rfl
    · exact absurd he (Nat.ne_of_lt (hw.streams.lt y hy))) hb₂
  refine (hl.trans hbind).trans (.peerHandOver _ fun a hta y hy he => ?_)
  obtain ⟨z, hz, hza, hzt⟩ := hw.tunAgent t ht a hta
  have hyb : y ∈ b.agents := hl.agentsOld (hbind.agentsOld hy)
  rw [eq_of_key hw.agents.nodup hyb hz (he.trans hza.symm)]
  exact hzt

lemma peerFrame (hw : Wf b) (hT : x.peerTun = some t)
    (h : peerFrame x f w k b = some b') : Confined (some t) (some x.ref) b b' := by
  unfold TunnelMate.peerFrame at h
  split at h
  · split_ifs at h
    · rw [hT] at h
      obtain ⟨u, hu, ho⟩ := bind_eq_some_iff.1 h
      obtain rfl : u.ref = t := key_of_get hu
      exact .peerOpenStream hw (mem_of_get hu) ho
    · cases h
      exact protocolError.trans (.connClose _)
  · obtain ⟨u, hu, rfl⟩ := map_eq_some_iff.1 h
    rw [hT, bind_some] at hu
    obtain rfl : u.ref = t := key_of_get hu
    split
    · exact .refl
    · rename_i st hst
      obtain ⟨hm, hst, -⟩ := mem_tmStreamFind hst
      refine .closeStream _ fun y hy he => ?_
      rw [eq_of_key hw.streams.nodup hy hm he]
      exact hst
  · cases h
    exact .sendFrameRaw w
  · cases h
    exact protocolError.trans (.connClose _)

lemma dataConnAttach {st : Stream} (h : ∀ y ∈ b.streams, y.ref = st.ref → y.tun = t)
    (hb : dataConnAttach x st w b = some b') : Confined (some t) (some x.ref) b b' := by
  unfold TunnelMate.dataConnAttach at hb
  split at hb
  · cases hb
  · obtain ⟨b₁, hb₁, rfl⟩ := map_eq_some_iff.1 hb
    refine .trans ?_ (.connUnlink _)
    split_ifs at hb₁
    · obtain ⟨hc, ht⟩ := relayStep (b := b.log _) h hb₁
      exact ((log (.inl rfl)).trans hc).trans (.updStream ht fun _ => rfl)
    · obtain ⟨hc, ht⟩ := relayStep (b := b.protocolError) h hb₁
      exact (protocolError.trans hc).trans (.updStream ht fun _ => rfl)

lemma dataBind (hw : Wf b) (hf : f.type = .dataBind)
    (h : dataConnFirstFrame digest x f w b = some b') :
    (∃ st, findStream f.streamId b = some st ∧ Binds digest b (.connFrame x.ref f w k) x.ref st ∧
      Confined (some st.tun) (some x.ref) b b') ∨ Confined none (some x.ref) b b' := by
  unfold dataConnFirstFrame at h
  split at h
  · cases h
    exact .inr (protocolError.trans (.connClose _))
  split at h
  · cases h
    exact .inr (.sendAndClose w)
  rename_i st hst
  split at h
  · cases h
  rename_i t ht
  split at h
  · cases h
    exact .inr (.sendAndClose w)
  split at h
  · cases h
    exact .inr (failedAuth.trans (.sendAndClose w))
  rename_i hbe hct
  obtain ⟨hm, hid, t', ht', hr, he⟩ := mem_findStream hst
  obtain rfl := hw.tunnel_eq (mem_of_get ht) ht' (he.trans (key_of_get ht).symm)
  simp only [or_eq_true, not_eq_eq_eq_not, Bool.not_true, not_or, not_eq_true, not_eq_false] at hbe
  refine .inl ⟨st, hst, ⟨f, w, k, rfl, hf, hid.symm, hm, hbe.1, t', ht', hr, he, hbe.2,
    tmCtEqHex_hexOf (by simpa using hct)⟩, ?_⟩
  exact .dataConnAttach (fun y hy hy' => by rw [eq_of_key hw.streams.nodup hy hm hy']) h

end Confined

/-- The event comes from tunnel `T`, on the pending connection `c` if there is one: a frame of its
agent or of an authenticated peer, a DATA_BIND that finds one of its streams and may bind it, or a
datagram. A DATA_BIND that binds nothing comes from no tunnel. -/
inductive ComesFrom (digest : Bytes → Digest) (b : Broker) :
    BrokerEvent → Option Ref → Option Ref → Prop
  | agent {a : Agent} {f : Frame} {k : Bool} : a ∈ b.agents →
      ComesFrom digest b (.agentFrame a.ref f k) (some a.tun) none
  | peer {x : Conn} {t : Ref} {f : Frame} {w : Write} {k : Bool} : x ∈ b.conns →
      x.peerAuthed = true → x.peerTun = some t →
      ComesFrom digest b (.connFrame x.ref f w k) (some t) (some x.ref)
  | bind {x : Conn} {st : Stream} {f : Frame} {w : Write} {k : Bool} : x ∈ b.conns →
      x.gotHello = false → findStream f.streamId b = some st →
      Binds digest b (.connFrame x.ref f w k) x.ref st →
      ComesFrom digest b (.connFrame x.ref f w k) (some st.tun) (some x.ref)
  | noBind {x : Conn} {f : Frame} {w : Write} {k : Bool} : x ∈ b.conns → x.gotHello = false →
      f.type = .dataBind → (∀ st, findStream f.streamId b = some st →
        ¬ Binds digest b (.connFrame x.ref f w k) x.ref st) →
      ComesFrom digest b (.connFrame x.ref f w k) none (some x.ref)
  | datagram {t : Tunnel} {addr : Addr} {data : Bytes} {hs : Udp.HsAns}
      {reads : List (Bytes × Udp.PumpAns)} {a : Udp.PumpAns} : t ∈ b.tunnels →
      ComesFrom digest b (.udp t.ref (.packet addr data hs reads a)) (some t.ref) none

/-- In every run, what comes from a tunnel is confined to it and to its connection. -/
theorem cross_tunnel_isolation {tr : List (Broker × BrokerEvent)}
    (h : Trace (brokerStep digest) BrokerInit tr b) (hc : ComesFrom digest b e T c)
    (hs : brokerStep digest b e = some b') : Confined T c b b' := by
  have hw := Wf.of_trace h
  have conn : ∀ {x : Conn} {f : Frame} {w : Write} {k : Bool}, x ∈ b.conns →
      brokerStep digest b (.connFrame x.ref f w k) = some b' →
      connFrame digest x f w k b = some b' := by
    intro x f w k hx hs
    simp only [brokerStep] at hs
    split_ifs at hs
    have hg : get x.ref b.conns = some x := get_of_mem hw.conns.nodup hx
    simpa only [handleEvent, hg, bind_some] using hs
  cases hc with
  | agent ha =>
    simp only [brokerStep] at hs
    split_ifs at hs
    obtain ⟨y, hy, hf⟩ := bind_eq_some_iff.1 hs
    obtain rfl := eq_of_key hw.agents.nodup (mem_of_get hy) ha (key_of_get hy)
    exact .agentFrame hw ha hf
  | peer hx hp hT =>
    have hf := conn hx hs
    rw [connFrame, (hw.peer _ hx hp).1, hp] at hf
    exact .peerFrame hw hT hf
  | bind hx hh hst hb =>
    rename_i k
    have hf := conn hx hs
    obtain ⟨f', w', k', he, hd, -⟩ := hb
    obtain ⟨-, rfl, rfl, rfl⟩ := BrokerEvent.connFrame.inj he
    simp only [connFrame, hh, hd] at hf
    obtain ⟨st', hst', -, hc⟩ | hc := Confined.dataBind (k := k) hw hd hf
    · cases (hst.symm.trans hst')
      exact hc
    · exact hc.of_none
  | noBind hx hh hd hn =>
    have hf := conn hx hs
    simp only [connFrame, hh, hd] at hf
    obtain ⟨st, hst, hb, -⟩ | hc := Confined.dataBind hw hd hf
    · exact absurd hb (hn st hst)
    · exact hc
  | datagram ht =>
    simp only [brokerStep] at hs
    split_ifs at hs
    obtain ⟨y, hy, hf⟩ := bind_eq_some_iff.1 hs
    obtain rfl := hw.tunnel_eq ht (mem_of_get hy) (key_of_get hy)
    obtain ⟨p, rfl, -⟩ := udpEvent_spec (hw.ok _ ht) hf
    exact .updTun fun _ => rfl

def agentsAndPeer : List BrokerEvent :=
  [creates [65] true, creates [66] true,
    .controlAccept, sends 2 .hello 0 [], sends 2 .register 0 [0, 1, 65, 1],
    .controlAccept, sends 4 .hello 0 [], sends 4 .register 0 [0, 1, 66, 1],
    .controlAccept, sends 6 .hello 0 [], sends 6 .auth 0 [0, 1, 65, 2]]

theorem cross_tunnel_isolation_opens : ∃ tr b b', Trace (brokerStep padDigest) BrokerInit tr b ∧
    brokerStep padDigest b (sends 6 .dataBind 0 []) = some b' ∧ b'.streams.length = 1 ∧
    ∃ t ∈ b.tunnels, t.id = [66] ∧ t ∈ b'.tunnels := by
  obtain ⟨tr, b, h, ⟨x, hx, h6, hp, hT⟩, ⟨t, ht, hid, ht0⟩, hs⟩ :=
    smallBroker_trace agentsAndPeer
    (fun r => (∃ x ∈ r.2.conns, x.ref = 6 ∧ x.peerAuthed = true ∧ x.peerTun = some 0) ∧
      (∃ t ∈ r.2.tunnels, t.id = [66] ∧ t.ref ≠ 0) ∧
      (brokerStep padDigest r.2 (sends 6 .dataBind 0 [])).any
        (fun b' => b'.streams.length = 1) = true) (by decide)
  obtain ⟨b', hb', hl⟩ := (any_eq_true _ _).1 hs
  have hc : ComesFrom padDigest b (sends 6 .dataBind 0 []) (some 0) (some x.ref) := by
    rw [← h6]
    exact .peer hx hp hT
  have hk := cross_tunnel_isolation h hc hb'
  exact ⟨tr, b, b', h, hb', of_decide_eq_true hl, t, ht, hid,
    (hk.tunnels t fun he => ht0 (some.inj he)).2 ht⟩

/-! ## Credentials that fail -/

def Broker.withRegistry (b r : Broker) : Broker :=
  { b with
    ports := r.ports
    tunnels := r.tunnels
    agents := r.agents
    streams := r.streams
    tunnelCount := r.tunnelCount
    streamCount := r.streamCount
    sidCounter := r.sidCounter
    sidCounter2 := r.sidCounter2
    nextRef := r.nextRef
    released := r.released }

/-- The secret of the payload authenticates nothing: REGISTER needs an enabled tunnel of that id
with its digest, AUTH a closed one that has a token. -/
def CredFails (digest : Bytes → Digest) (b : Broker) (f : Frame) : Prop :=
  ∀ cr, credSplit f.payload = some cr → ∀ t, tmTunnelFind (cStr cr.id) b = some t →
    (f.type = .register → t.enabled = true →
      fromHex t.agentSecretHmac ≠ some (digest cr.secret).toList) ∧
    (f.type = .auth → t.usable = true → fromHex t.sharedTokenHmac ≠ some (digest cr.secret).toList)

section Credentials

variable {r : Broker} {x : Conn} {f : Frame} {w : Write} {k : Bool} {s : Sent}

lemma sendAndClose_withRegistry :
    sendAndClose s w (b.withRegistry r) = (sendAndClose s w b).withRegistry r := by
  cases w <;> rfl

def registerFailed (x : Conn) (f : Frame) (w : Write) (b : Broker) : Broker :=
  (credSplit f.payload).elim (sendAndClose ⟨x.ref, .registerError, 0, "bad register"⟩ w b) fun _ =>
    sendAndClose ⟨x.ref, .registerError, 0, "bad credentials"⟩ w b.failedAuth

def authFailed (x : Conn) (w : Write) (b : Broker) : Broker :=
  sendAndClose ⟨x.ref, .authError, 0, "bad credentials"⟩ w b.failedAuth

lemma registerFailed_withRegistry :
    registerFailed x f w (b.withRegistry r) = (registerFailed x f w b).withRegistry r := by
  unfold registerFailed
  cases credSplit f.payload with
  | none => exact sendAndClose_withRegistry
  | some => exact sendAndClose_withRegistry (b := b.failedAuth)

lemma authFailed_withRegistry :
    authFailed x w (b.withRegistry r) = (authFailed x w b).withRegistry r :=
  sendAndClose_withRegistry (b := b.failedAuth)

lemma agentRegister_fails (hf : f.type = .register) (h : CredFails digest b f) :
    agentRegister digest x f w b = some (registerFailed x f w b) := by
  unfold agentRegister registerFailed
  cases hcr : credSplit f.payload with
  | none => rfl
  | some cr =>
    have hn : (tmTunnelFind (cStr cr.id) b).filter (fun t => t.enabled &&
        tmCtEqHex (hexOf digest cr.secret) t.agentSecretHmac) = none := by
      refine filter_eq_none_iff.2 fun t ht => ?_
      rw [and_eq_true_iff]
      rintro ⟨he, hc⟩
      exact (h cr hcr t ht).1 hf he (tmCtEqHex_hexOf hc)
    simp only [hn, elim_some]

lemma peerAuth_fails (hf : f.type = .auth) (h : CredFails digest b f) :
    peerAuth digest x f w b = authFailed x w b := by
  unfold peerAuth authFailed
  cases hcr : credSplit f.payload with
  | none => rfl
  | some cr =>
    have hn : (tmTunnelFind (cStr cr.id) b).filter (fun t => t.usable &&
        tmCtEqHex (hexOf digest cr.secret) t.sharedTokenHmac) = none := by
      refine filter_eq_none_iff.2 fun t ht => ?_
      rw [and_eq_true_iff]
      rintro ⟨he, hc⟩
      exact (h cr hcr t ht).2 hf he (tmCtEqHex_hexOf hc)
    simp only [hn]

variable (digest x w k) in
lemma connFrame_fails (hf : f.type = .register ∨ f.type = .auth) : ∃ g : Broker → Broker,
    (∀ b r, g (b.withRegistry r) = (g b).withRegistry r) ∧
    ∀ b, CredFails digest b f → connFrame digest x f w k b = some (g b) := by
  have hclose : (∀ b, connFrame digest x f w k b = some (connClose x.ref b.protocolError)) →
      ∃ g : Broker → Broker, (∀ b r, g (b.withRegistry r) = (g b).withRegistry r) ∧
        ∀ b, CredFails digest b f → connFrame digest x f w k b = some (g b) :=
    fun h => ⟨fun b => connClose x.ref b.protocolError, fun _ _ => rfl, fun b _ => h b⟩
  by_cases hh : x.gotHello = true
  · by_cases hp : x.peerAuthed = true
    · refine hclose fun b => ?_
      rcases hf with hf | hf <;> simp [connFrame, hh, hp, peerFrame, hf]
    · rcases hf with hf | hf
      · refine ⟨registerFailed x f w, fun _ _ => registerFailed_withRegistry, fun b h => ?_⟩
        simp [connFrame, hh, hp, hf, agentRegister_fails hf h]
      · refine ⟨authFailed x w, fun _ _ => authFailed_withRegistry, fun b h => ?_⟩
        simp [connFrame, hh, hp, hf, peerAuth_fails hf h]
  · refine hclose fun b => ?_
    rcases hf with hf | hf <;> simp [connFrame, hh, hf]

/-- With any two registries in which a credential fails, a REGISTER or an AUTH does the same to
everything else, and nothing to the registry. -/
theorem failed_credentials_alike {b₁ b₂ : Broker} {c : Ref} (hd : b₂ = b₁.withRegistry b₂)
    (hc : (get c b₁.conns).isSome = true) (hf : f.type = .register ∨ f.type = .auth)
    (h₁ : CredFails digest b₁ f) (h₂ : CredFails digest b₂ f) :
    ∃ b', handleEvent digest b₁ (.connFrame c f w k) = some b' ∧ b' = b'.withRegistry b₁ ∧
      handleEvent digest b₂ (.connFrame c f w k) = some (b'.withRegistry b₂) := by
  obtain ⟨x, hx⟩ := isSome_iff_exists.1 hc
  obtain ⟨g, hg, hgb⟩ := connFrame_fails digest x w k hf
  have hx₂ : get c b₂.conns = some x := by rw [hd]; exact hx
  refine ⟨g b₁, ?_, hg b₁ b₁, ?_⟩
  · rw [handleEvent, hx, bind_some, hgb b₁ h₁]
  · rw [handleEvent, hx₂, bind_some, hgb b₂ h₂, ← hg, ← hd]

end Credentials

theorem failed_credentials_alike_unknown : ∃ tr b b',
    Trace (brokerStep padDigest) BrokerInit tr b ∧ b.tunnels.length = 1 ∧
    handleEvent padDigest b (sends 1 .auth 0 [0, 1, 65, 1]) = some b' ∧
    handleEvent padDigest { b with tunnels := [] } (sends 1 .auth 0 [0, 1, 65, 1]) =
      some { b' with tunnels := [] } ∧ b'.conns = [] ∧
    b'.sent.head? = some ⟨1, .authError, 0, "bad credentials"⟩ := by
  obtain ⟨tr, b, h, hl, hc, ⟨t, ht, hn⟩, hq⟩ := smallBroker_trace
    [creates [65] true, .controlAccept, sends 1 .hello 0 []]
    (fun r => r.2.tunnels.length = 1 ∧ (get 1 r.2.conns).isSome = true ∧
      (∃ t ∈ tmTunnelFind [65] r.2, fromHex t.sharedTokenHmac ≠ some (padDigest [1]).toList) ∧
      (handleEvent padDigest r.2 (sends 1 .auth 0 [0, 1, 65, 1])).any (fun b' => b'.conns = [] ∧
        b'.sent.head? = some ⟨1, .authError, 0, "bad credentials"⟩) = true) (by decide)
  obtain ⟨b', hb', hx⟩ := (any_eq_true _ _).1 hq
  obtain ⟨hx, hm⟩ := of_decide_eq_true hx
  have hs : credSplit [0, 1, 65, 1] = some { id := [65], secret := [1] } := by decide
  obtain ⟨b'', h₁, hk, h₂⟩ : ∃ b'',
      handleEvent padDigest b (sends 1 .auth 0 [0, 1, 65, 1]) = some b'' ∧
      b'' = b''.withRegistry b ∧
      handleEvent padDigest { b with tunnels := [] } (sends 1 .auth 0 [0, 1, 65, 1]) =
        some (b''.withRegistry { b with tunnels := [] }) :=
    failed_credentials_alike rfl hc (.inr rfl)
    (fun cr hcr t' ht' => by
      cases (hs.symm.trans hcr)
      cases (ht.symm.trans ht')
      exact ⟨nofun, fun _ _ => hn⟩)
    (fun cr _ t' ht' => by simp [tmTunnelFind] at ht')
  cases (hb'.symm.trans h₁)
  refine ⟨tr, b, b', h, hl, hb', h₂.trans ?_, hx, hm⟩
  rw [hk]
  rfl

end TunnelMate
