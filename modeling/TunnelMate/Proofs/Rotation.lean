import TunnelMate.Proofs.Auth
import TunnelMate.Proofs.Disabled
import TunnelMate.Proofs.UdpAuth

/-!
# Rotated credentials

A rotation of the agent's secret drops the agent's connection and leaves its DTLS session; a
rotation of the shared token leaves the peers that have authenticated, on both transports.
-/

namespace TunnelMate

open List Option Table Udp Broker Nat

variable {digest : Bytes → Digest} {b₀ b b' : Broker} {e : BrokerEvent} {tr : History}

/-! ## What an event can change -/

structure After (digest : Bytes → Digest) (b₀ : Broker) (e : BrokerEvent) (b : Broker) : Prop where
  next : b₀.nextRef ≤ b.nextRef
  agents : ∀ a ∈ b.agents, a ∈ b₀.agents ∨ Registers digest b₀ e a.conn a.tun
  conns : ∀ x ∈ b.conns, ∀ T, x.peerAuthed = true → x.peerTun = some T →
    (∃ y ∈ b₀.conns, y.ref = x.ref ∧ y.peerAuthed = true ∧ y.peerTun = some T) ∨
      Authenticates digest b₀ e x.ref T
  streams : ∀ st ∈ b.streams, (∃ st₀ ∈ b₀.streams, st₀.ref = st.ref) ∨ st.sockA = .listener ∨
    ∃ c, st.sockA = .conn c ∧ Opens b₀ e c st.tun

variable {T c : Ref} {t t' : Tunnel} {hmac id : Bytes} {secret token : Prop} {type : MsgType}

namespace After

lemma start : After digest b₀ e b₀ where
  next := le_rfl
  agents _ ha := .inl ha
  conns x hx _ hp hT := .inl ⟨x, hx, rfl, hp, hT⟩
  streams st hst := .inl ⟨st, hst, rfl⟩

lemma of_subset (h : After digest b₀ e b) (hn : b.nextRef ≤ b'.nextRef)
    (ha : b'.agents ⊆ b.agents) (hc : b'.conns ⊆ b.conns) (hs : b'.streams ⊆ b.streams) :
    After digest b₀ e b' where
  next := h.next.trans hn
  agents a hm := h.agents a (ha hm)
  conns x hm := h.conns x (hc hm)
  streams st hm := h.streams st (hs hm)

lemma of_same (h : After digest b₀ e b) (hn : b.nextRef ≤ b'.nextRef)
    (ha : b'.agents = b.agents) (hc : b'.conns = b.conns) (hs : b'.streams = b.streams) :
    After digest b₀ e b' :=
  h.of_subset hn (fun _ hm => ha ▸ hm) (fun _ hm => hc ▸ hm) fun _ hm => hs ▸ hm

lemma unlink (h : After digest b₀ e b) (c : Ref) : After digest b₀ e (connUnlink c b) :=
  h.of_subset le_rfl (.refl _) (filter_subset_self _) (.refl _)

lemma setRelay {k : Ref} {c : Duplex.Config Relay.Tail} {g : Stream → Option Ref}
    (h : After digest b₀ e b) :
    After digest b₀ e (b.updStream k fun x => { x with relay := c, sockB := g x }) :=
  { h with streams := forall_upd (fun x hx _ => h.streams x hx) fun x hx _ => h.streams x hx }

lemma link {id : ℕ} {sock : Sock} {s : Duplex.Stream} (h : After digest b₀ e b)
    (hs : sock = .listener ∨ ∃ c, sock = .conn c ∧ Opens b₀ e c T) :
    After digest b₀ e (streamLink T id sock s b).2 :=
  { h with
    next := h.next.trans (le_succ _)
    streams := forall_mem_cons.2 ⟨.inr hs, h.streams⟩ }

lemma move (hm : Move digest b₀ e b b') (h : After digest b₀ e b) : After digest b₀ e b' := by
  cases hm with
  | misc he hn =>
    obtain ⟨-, -, -, hc, ha, hs, -⟩ := core_eq.1 he
    exact h.of_same hn ha hc hs
  | accept =>
    exact { h with
      next := h.next.trans (le_succ _)
      conns := forall_mem_cons.2 ⟨nofun, h.conns⟩ }
  | closeConn c => exact (h.unlink c).of_same le_rfl rfl rfl rfl
  | hello =>
    exact { h with
      conns := forall_upd (fun x hx _ => h.conns x hx) fun x hx _ => h.conns x hx }
  | auth ha =>
    refine { h with conns := forall_upd (fun x hx _ => h.conns x hx) fun x _ he T _ hT => ?_ }
    cases hT
    obtain rfl := he
    exact .inr ha
  | dropAgent =>
    exact h.of_subset le_rfl (filter_subset_self _) (.refl _) (.refl _)
  | addAgent hr =>
    have h' : After digest b₀ e (agentAdd _ _ b) :=
      { h with
        next := h.next.trans (le_succ _)
        agents := forall_mem_cons.2 ⟨.inr hr, h.agents⟩ }
    exact h'.unlink _
  | openStream => exact h.link (.inl rfl)
  | peerStream ho => exact (h.link (.inr ⟨_, rfl, ho⟩)).unlink _
  | closeStream =>
    exact h.of_subset le_rfl (.refl _) (.refl _) (filter_subset_self _)
  | relay => exact (h.setRelay (g := Stream.sockB)).of_same le_rfl rfl rfl rfl
  | @attach x conn c =>
    have h' := h.setRelay (k := x.ref) (c := c) (g := fun _ => some conn)
    exact (h'.unlink conn).of_same le_rfl rfl rfl rfl
  | addTunnel => exact h.of_same (le_succ _) rfl rfl rfl
  | _ =>
    exact h.of_same le_rfl rfl rfl rfl

lemma step (hw : Wf b) (hs : brokerStep digest b e = some b') : After digest b e b' :=
  (step_moves hw hs).inv hw start fun _ _ _ hm h => h.move hm

end After

structure Tunnel.Later (t t' : Tunnel) : Prop where
  ref : t.ref = t'.ref
  id : t'.id = t.id
  closed : t'.closed = t.closed
  agentSecretHmac : t'.agentSecretHmac = t.agentSecretHmac
  sharedTokenHmac : t'.sharedTokenHmac = t.sharedTokenHmac
  udp : t'.udp = t.udp ∨ t'.udp = Udp.tmUdpStop t.udp

def FromTunnel (b₀ : Broker) (t' : Tunnel) : Prop :=
  (∃ t ∈ b₀.tunnels, t.Later t') ∨ b₀.nextRef ≤ t'.ref ∧ t'.udp = {}

lemma FromTunnel.of_later (h : FromTunnel b₀ t) (hl : t.Later t') : FromTunnel b₀ t' := by
  obtain ⟨t₀, ht₀, h⟩ | ⟨hn, hu⟩ := h
  · refine .inl ⟨t₀, ht₀, h.ref.trans hl.ref, hl.id.trans h.id, hl.closed.trans h.closed,
      hl.agentSecretHmac.trans h.agentSecretHmac, hl.sharedTokenHmac.trans h.sharedTokenHmac, ?_⟩
    rcases h.udp with hu | hu <;> rcases hl.udp with hu' | hu' <;> rw [hu', hu]
    · exact .inl rfl
    · exact .inr rfl
    · exact .inr rfl
    · exact .inr (Tunnel.Kept.stop_stop _)
  · refine .inr ⟨hl.ref ▸ hn, ?_⟩
    rcases hl.udp with hu' | hu' <;> rw [hu', hu]
    rfl

lemma FromTunnel.move (hr : ¬ Rotates e) (hp : ¬ AtPlane e) (hn : b₀.nextRef ≤ b.nextRef)
    (hm : Move digest b₀ e b b') (h : ∀ t ∈ b.tunnels, FromTunnel b₀ t) :
    ∀ t ∈ b'.tunnels, FromTunnel b₀ t := by
  have field : ∀ t ∈ b.tunnels, ∀ t' : Tunnel, t'.ref = t.ref → t'.id = t.id →
      t'.closed = t.closed → t'.agentSecretHmac = t.agentSecretHmac →
      t'.sharedTokenHmac = t.sharedTokenHmac → t'.udp = t.udp → FromTunnel b₀ t' :=
    fun t ht t' h1 h2 h3 h4 h5 h6 => (h t ht).of_later ⟨h1.symm, h2, h3, h4, h5, .inl h6⟩
  cases hm with
  | misc he =>
    rw [(core_eq.1 he).2.2.1]
    exact h
  | tunnel hf hk =>
    refine forall_upd (fun t ht _ => h t ht) fun t ht he => (h t ht).of_later ?_
    have hs := (hf t ht he).toSame
    have hk := hk t ht he
    exact ⟨hs.ref.symm, hs.id, hs.closed, hk.agentSecretHmac.resolve_left hr,
      hk.sharedTokenHmac.resolve_left hr, hk.udp.resolve_left hp⟩
  | dropAgent | addAgent | openStream | peerStream | closeStream | unregister =>
    exact forall_upd (fun t ht _ => h t ht) fun t ht _ => field t ht _ rfl rfl rfl rfl rfl rfl
  | addTunnel hc => exact forall_mem_cons.2 ⟨.inr ⟨hc.ref ▸ hn, hc.udp⟩, h⟩
  | free => exact fun t ht => h t (mem_del.1 ht).1
  | _ =>
    exact h

def RotatesSecret (b : Broker) (e : BrokerEvent) (t : Tunnel) : Prop :=
  ∃ id s r, e = .ipc (.rotateAgentSecret id s r) ∧ tmTunnelFind id b = some t

def RotatesToken (b : Broker) (e : BrokerEvent) (t : Tunnel) : Prop :=
  ∃ id s r, e = .ipc (.rotateSharedToken id s r) ∧ tmTunnelFind id b = some t

def Tunnel.label (t : Tunnel) (b : Broker) (ev : Udp.Event) : Udp.Label :=
  { now := b.now, loop := b.loop, creds := t.creds, ev := ev }

inductive TunnelStep (digest : Bytes → Digest) (b : Broker) (e : BrokerEvent) (t t' : Tunnel) : Prop
  | later : t.Later t' → TunnelStep digest b e t t'
  | secret : RotatesSecret b e t → t'.agent = none → t.ref = t'.ref → t'.id = t.id →
      t'.closed = t.closed → t'.sharedTokenHmac = t.sharedTokenHmac → t'.udp = t.udp →
      TunnelStep digest b e t t'
  | token : RotatesToken b e t → t.ref = t'.ref → t'.id = t.id → t'.closed = t.closed →
      t'.agentSecretHmac = t.agentSecretHmac → t'.udp = t.udp → TunnelStep digest b e t t'
  | plane {p : Udp.Plane} (ev : Udp.Event) : e = .udp t.ref ev →
      step b.cfg digest t.udp (t.label b ev) = some p → t' = { t with udp := p } →
      TunnelStep digest b e t t'

lemma Tunnel.Later.refl (t : Tunnel) : t.Later t := ⟨rfl, rfl, rfl, rfl, rfl, .inl rfl⟩

lemma later_dropAgentOf (h : t' ∈ (dropAgentOf T b).tunnels) :
    ∃ t ∈ b.tunnels, t.ref = t'.ref ∧ t'.id = t.id ∧ t'.closed = t.closed ∧
      t'.agentSecretHmac = t.agentSecretHmac ∧ t'.sharedTokenHmac = t.sharedTokenHmac ∧
      t'.udp = t.udp := by
  obtain ⟨t, ht, a, o, rfl⟩ := (dropAgentOf_spec T).2.2 t' h
  exact ⟨t, ht, rfl, rfl, rfl, rfl, rfl, rfl⟩

lemma tunnel_step (hw : Wf b) (hs : brokerStep digest b e = some b') : ∀ t' ∈ b'.tunnels,
    (∃ t ∈ b.tunnels, TunnelStep digest b e t t') ∨ b.nextRef ≤ t'.ref ∧ t'.udp = {} := by
  intro t' ht'
  by_cases hp : AtPlane e
  · obtain ⟨T, ev, rfl⟩ := hp
    simp only [brokerStep] at hs
    split_ifs at hs
    obtain ⟨t, ht, h⟩ := bind_eq_some_iff.1 hs
    have htm := mem_of_get ht
    obtain ⟨p, rfl, hst, -⟩ := udpEvent_spec (hw.ok t htm) h
    obtain ⟨u, hu, rfl⟩ := mem_upd.1 ht'
    refine .inl ⟨u, hu, ?_⟩
    split_ifs with he
    · rw [hw.tunnel_eq htm hu he]
      refine .plane ev ?_ hst rfl
      rw [show t.ref = T from key_of_get ht]
    · exact .later (.refl u)
  by_cases hr : Rotates e
  · simp only [brokerStep] at hs
    split_ifs at hs
    obtain ⟨id, s, r, rfl⟩ | ⟨id, s, r, rfl⟩ := hr <;> cases hs <;>
      simp only [ipcHandleOp, withTunnel] at ht'
    · split at ht'
      · exact .inl ⟨t', ht', .later (.refl t')⟩
      rename_i t ht
      have hw₁ : ∀ hex, Wf (b.updTun t.ref fun t => { t with agentSecretHmac := hex }) := fun _ =>
        hw.updTun fun _ _ _ => .set
      have hna := agent_dropAgentOf (T := t.ref) (hw₁ _) t' ht'
      obtain ⟨u, hu, h1, h2, h3, h4, h5, h6⟩ := later_dropAgentOf ht'
      obtain ⟨v, hv, rfl⟩ := mem_upd.1 hu
      refine .inl ⟨v, hv, ?_⟩
      split_ifs at h1 h2 h3 h4 h5 h6 with he
      · obtain rfl := hw.tunnel_eq (mem_tmTunnelFind ht).1 hv he
        exact .secret ⟨id, s, r, rfl, ht⟩ (hna h1.symm) h1 h2 h3 h5 h6
      · exact .later ⟨h1, h2, h3, h4, h5, .inl h6⟩
    · split at ht'
      · exact .inl ⟨t', ht', .later (.refl t')⟩
      rename_i t ht
      obtain ⟨v, hv, rfl⟩ := mem_upd.1 ht'
      refine .inl ⟨v, hv, ?_⟩
      split_ifs with he
      · obtain rfl := hw.tunnel_eq (mem_tmTunnelFind ht).1 hv he
        exact .token ⟨id, s, r, rfl, ht⟩ rfl rfl rfl rfl rfl
      · exact .later (.refl v)
  · have h : b.nextRef ≤ b'.nextRef ∧ ∀ t ∈ b'.tunnels, FromTunnel b t :=
      (step_moves hw hs).inv (I := fun c => After digest b e c ∧ ∀ t ∈ c.tunnels, FromTunnel b t) hw
        ⟨.start, fun t ht => .inl ⟨t, ht, .refl t⟩⟩ (fun _ _ _ hm h =>
          ⟨h.1.move hm, .move hr hp h.1.next hm h.2⟩) |>.imp_left After.next
    obtain ⟨t, ht, hl⟩ | hn := h.2 t' ht'
    · exact .inl ⟨t, ht, .later hl⟩
    · exact .inr hn

/-! ## Sessions -/

def callsAt (digest : Bytes → Digest) (T : Ref) (x : Broker × BrokerEvent) : List Udp.Call :=
  match x.2 with
  | .udp T' ev =>
    if T' = T then
      ((get T x.1.tunnels).map fun t =>
        callsOf x.1.cfg digest t.udp (t.label x.1 ev)).getD []
    else []
  | _ => []

def planeCalls (digest : Bytes → Digest) (T : Ref) (tr : History) : List Udp.Call :=
  tr.flatMap (callsAt digest T)

def Presented (digest : Bytes → Digest) (hmac : Bytes) (cs : List Udp.Call) (s : Ref) : Prop :=
  Udp.Said (fun c => ∃ env, authReq c.data = some env ∧
    fromHex hmac = some (digest env.payload).toList) cs s

lemma Presented.mono {cs cs' : List Udp.Call} {s : Ref}
    (h : Presented digest hmac cs s) (hs : cs ⊆ cs') : Presented digest hmac cs' s := by
  obtain ⟨c, hc, hx⟩ := h
  exact ⟨c, hs hc, hx⟩

variable {t : Tunnel}

lemma callsAt_plane {ev : Udp.Event} (hw : Wf b) (ht : t ∈ b.tunnels) :
    callsAt digest t.ref (b, .udp t.ref ev) = callsOf b.cfg digest t.udp (t.label b ev) := by
  have hg : get t.ref b.tunnels = some t := get_of_mem hw.tunnels.nodup ht
  simp only [callsAt, if_true, hg, map_some, getD_some]

def SecretOk (b : Broker) : BrokerEvent → Prop
  | .ipc (.rotateAgentSecret id _ _) => ∀ t ∈ tmTunnelFind id b, t.udp.agentSession = none
  | _ => True

def TokenOk (b : Broker) : BrokerEvent → Prop
  | .ipc (.rotateSharedToken id _ _) => ∀ t ∈ tmTunnelFind id b,
      (∀ c ∈ b.conns, c.peerAuthed = true → c.peerTun ≠ some t.ref) ∧
        ∀ x ∈ t.udp.sessions, x.authenticated = true → x.isAgent = true
  | _ => True

lemma SecretOk.none (h : SecretOk b e) (hr : RotatesSecret b e t) : t.udp.agentSession = none := by
  obtain ⟨id, s, r, rfl, ht⟩ := hr
  exact h t ht

lemma TokenOk.none (h : TokenOk b e) (hr : RotatesToken b e t) :
    (∀ c ∈ b.conns, c.peerAuthed = true → c.peerTun ≠ some t.ref) ∧
      ∀ x ∈ t.udp.sessions, x.authenticated = true → x.isAgent = true := by
  obtain ⟨id, s, r, rfl, ht⟩ := hr
  exact h t ht

/-- The sessions of the tunnel have presented the credentials it has now: the agent's secret if
`secret`, the shared token if `token`. -/
def Tunnel.Presents (secret token : Prop) (digest : Bytes → Digest) (tr : History) (t : Tunnel) :
    Prop :=
  Udp.Rightful
    (fun s => secret → Presented digest t.agentSecretHmac (planeCalls digest t.ref tr) s)
    (fun s => token → Presented digest t.sharedTokenHmac (planeCalls digest t.ref tr) s) t.udp

lemma Tunnel.Presents.step (hw : Wf b) (ht : t ∈ b.tunnels)
    (h : t.Presents secret token digest tr) (hsec : secret → SecretOk b e)
    (htok : token → TokenOk b e) (hs : TunnelStep digest b e t t') :
    t'.Presents secret token digest ((b, e) :: tr) := by
  have old : planeCalls digest t.ref tr ⊆ planeCalls digest t.ref ((b, e) :: tr) :=
    subset_append_right _ _
  have h' : Udp.Rightful
      (fun s => secret →
        Presented digest t.agentSecretHmac (planeCalls digest t.ref ((b, e) :: tr)) s)
      (fun s => token →
        Presented digest t.sharedTokenHmac (planeCalls digest t.ref ((b, e) :: tr)) s)
      t.udp := h.mono (fun s hp hc => (hp hc).mono old) fun s hp hc => (hp hc).mono old
  unfold Tunnel.Presents
  cases hs with
  | later hl =>
    rw [← hl.ref, hl.agentSecretHmac, hl.sharedTokenHmac]
    rcases hl.udp with hu | hu <;> rw [hu]
    · exact h'
    · exact h'.stop
  | secret hr _ href _ _ htk hu =>
    rw [← href, htk, hu]
    -- nobody is the agent
    refine { h' with agent := fun r hm ha hi => ?_ }
    have hc := (h'.agent r hm ha hi).1
    refine ⟨hc, fun hs => ?_⟩
    rw [(hsec hs).none hr] at hc
    cases hc
  | token hr href _ _ hsc hu =>
    rw [← href, hsc, hu]
    refine { h' with peer := fun r hm ha hi ht => ?_ }
    obtain ⟨x, hx, rfl⟩ := mem_map.1 hm
    exact absurd (((htok ht).none hr).2 x hx ha) (by rw [show x.isAgent = false from hi]; simp)
  | plane ev he hst ht' =>
    subst he ht'
    have hrun := ((Udp.RunOk.start h).step hst).1
    rw [append_nil] at hrun
    have hcalls : callsAt digest t.ref (b, .udp t.ref ev) = _ := callsAt_plane hw ht
    have new : ∀ c ∈ callsOf b.cfg digest t.udp (t.label b ev),
        c ∈ planeCalls digest t.ref ((b, .udp t.ref ev) :: tr) := fun c hc =>
      mem_append_left _ (hcalls ▸ hc)
    refine hrun.mono (fun s hp hc => ?_) fun s hp hc => ?_
    · obtain hp | ⟨c, hcm, hcs, env, he, hx⟩ := hp
      · exact (hp hc).mono old
      · rw [creds_of_callsOf hcm] at hx
        exact ⟨c, new c hcm, hcs, env, he, hx⟩
    · obtain hp | ⟨c, hcm, hcs, env, he, -, hx⟩ := hp
      · exact (hp hc).mono old
      · rw [creds_of_callsOf hcm] at hx
        exact ⟨c, new c hcm, hcs, env, he, hx⟩

lemma presents_of_trace (h : Trace (brokerStep digest) BrokerInit tr b)
    (hok : ∀ p ∈ tr, (secret → SecretOk p.1 p.2) ∧ (token → TokenOk p.1 p.2)) :
    ∀ t ∈ b.tunnels, t.Presents secret token digest tr := by
  induction h with
  | start hi =>
    obtain ⟨cfg, -, rfl⟩ := hi
    simp
  | next hr hs ih =>
    have hw := Wf.of_trace hr
    rw [forall_mem_cons] at hok
    intro t' ht'
    obtain ⟨t, ht, hst⟩ | ⟨-, hu⟩ := tunnel_step hw hs t' ht'
    · exact (ih hok.2 t ht).step hw ht hok.1.1 hok.1.2 hst
    · unfold Tunnel.Presents
      rw [hu]
      exact .init

/-! ## Connections -/

def BrokerEvent.Presents (digest : Bytes → Digest) (type : MsgType) (c : Ref) (id hmac : Bytes) :
    BrokerEvent → Prop
  | .connFrame c' f _ _ => c' = c ∧ f.type = type ∧ ∃ cr ∈ credSplit f.payload, cStr cr.id = id ∧
      fromHex hmac = some (digest cr.secret).toList
  | _ => False

def SaidCred (digest : Bytes → Digest) (type : MsgType) (c : Ref) (id hmac : Bytes)
    (tr : History) : Prop := ∃ x ∈ tr, x.2.Presents digest type c id hmac

def SaidSecret (digest : Bytes → Digest) (c : Ref) (t : Tunnel) : History → Prop :=
  SaidCred digest .register c t.id t.agentSecretHmac

def SaidToken (digest : Bytes → Digest) (c : Ref) (t : Tunnel) : History → Prop :=
  SaidCred digest .auth c t.id t.sharedTokenHmac

lemma SaidCred.later (x : Broker × BrokerEvent)
    (h : SaidCred digest type c id hmac tr) : SaidCred digest type c id hmac (x :: tr) := by
  obtain ⟨y, hy, hp⟩ := h
  exact ⟨y, mem_cons_of_mem _ hy, hp⟩

lemma Registers.presents (h : Registers digest b e c T) :
    ∃ t ∈ b.tunnels, t.ref = T ∧ e.Presents digest .register c t.id t.agentSecretHmac := by
  obtain ⟨f, w, k, rfl, hf, -, t, ht, -, hT, -, cr, hcr, hid, hx⟩ := h
  exact ⟨t, ht, hT, rfl, hf, cr, hcr, hid, hx⟩

lemma Authenticates.presents (h : Authenticates digest b e c T) :
    ∃ t ∈ b.tunnels, t.ref = T ∧ e.Presents digest .auth c t.id t.sharedTokenHmac := by
  obtain ⟨f, w, k, rfl, hf, -, t, ht, -, hT, -, -, cr, hcr, hid, hx⟩ := h
  exact ⟨t, ht, hT, rfl, hf, cr, hcr, hid, hx⟩

lemma TunnelStep.of_presents
    (h : TunnelStep digest b e t t') (hp : e.Presents digest type c id hmac) : t.Later t' := by
  cases h with
  | later h => exact h
  | secret hr | token hr =>
    obtain ⟨_, _, _, rfl, -⟩ := hr
    exact hp.elim
  | plane ev he =>
    subst he
    exact hp.elim

lemma agents_said (h : Trace (brokerStep digest) BrokerInit tr b) : ∀ t ∈ b.tunnels, ∀ a,
    t.agent = some a → ∃ x ∈ b.agents, x.ref = a ∧ SaidSecret digest x.conn t tr := by
  induction h with
  | start hi =>
    obtain ⟨cfg, -, rfl⟩ := hi
    simp
  | next hr hs ih =>
    rename_i tr b b' e
    have hw := Wf.of_trace hr
    intro t' ht' a hta
    obtain ⟨x, hx, rfl, hxt⟩ := (Wf.of_trace (hr.next hs)).tunAgent t' ht' a hta
    refine ⟨x, hx, rfl, ?_⟩
    have old : ∀ t ∈ b.tunnels, t.ref = t'.ref → ∃ t ∈ b.tunnels, TunnelStep digest b e t t' := by
      intro t ht he
      refine (tunnel_step hw hs t' ht').resolve_right fun hn => ?_
      exact absurd (he ▸ hw.tunnels.lt t ht) (not_lt.2 hn.1)
    rcases (After.step hw hs).agents x hx with hx | hreg
    · obtain ⟨u, hu, -, hur, hua⟩ := hw.agentTun x hx
      obtain ⟨t, ht, hst⟩ := old u hu (hur.trans hxt)
      obtain ⟨y, hy, hyx, hsaid⟩ := ih u hu _ hua
      rw [eq_of_key hw.agents.nodup hy hx hyx] at hsaid
      cases hst with
      | later hl =>
        obtain rfl := hw.tunnel_eq ht hu (hur.trans (hxt.trans hl.ref.symm))
        unfold SaidSecret
        rw [hl.id, hl.agentSecretHmac]
        exact hsaid.later _
      | secret _ hn => exact absurd (hta.symm.trans hn) (by simp)
      | token _ href hid _ hsc =>
        obtain rfl := hw.tunnel_eq ht hu (hur.trans (hxt.trans href.symm))
        unfold SaidSecret
        rw [hid, hsc]
        exact hsaid.later _
      | plane ev _ _ he =>
        subst he
        obtain rfl := hw.tunnel_eq ht hu (hur.trans hxt)
        exact hsaid.later _
    · obtain ⟨u, hu, hur, hp⟩ := hreg.presents
      obtain ⟨t, ht, hst⟩ := old u hu (hur.trans hxt)
      have hl := hst.of_presents hp
      obtain rfl := hw.tunnel_eq ht hu (hur.trans (hxt.trans hl.ref.symm))
      unfold SaidSecret
      rw [hl.id, hl.agentSecretHmac]
      exact ⟨_, mem_cons_self, hp⟩

/-- In every run in which no agent session is there when its secret is rotated, the agent of every
tunnel, on both transports, has presented the secret the tunnel has now. -/
theorem secret_rotation_effective (h : Trace (brokerStep digest) BrokerInit tr b)
    (hok : ∀ p ∈ tr, SecretOk p.1 p.2) : ∀ t ∈ b.tunnels,
      (∀ a, t.agent = some a → ∃ x ∈ b.agents, x.ref = a ∧ SaidSecret digest x.conn t tr) ∧
      ∀ s, t.udp.agentSession = some s →
        Presented digest t.agentSecretHmac (planeCalls digest t.ref tr) s := by
  intro t ht
  refine ⟨agents_said h t ht, fun s hs => ?_⟩
  have hp : t.Presents True False digest tr :=
    presents_of_trace h (fun p hp => ⟨fun _ => hok p hp, False.elim⟩) t ht
  exact (hp.agent _ (hp.current s hs) rfl rfl).2 trivial

section Examples

instance : Decidable (SecretOk b e) := by
  unfold SecretOk
  split <;> infer_instance

instance : Decidable (TokenOk b e) := by
  unfold TokenOk
  split <;> infer_instance

instance {type : MsgType} {c : Ref} {id hmac : Bytes} :
    Decidable (e.Presents digest type c id hmac) :=
  match e with
  | .connFrame _ _ _ _ => inferInstanceAs (Decidable (_ ∧ _ ∧ _))
  | .tick _ _ | .controlAccept | .connEnd _ _ | .agentFrame _ _ _ | .agentEnd _ | .agentPing _ _
  | .publicAccept _ _ _ | .relay _ _ | .listenerClosed _ _ | .udpClosed _ | .udp _ _ | .ipc _
  | .shutdown _ | .cleanup => .isFalse not_false

instance {type : MsgType} {c : Ref} {id hmac : Bytes} :
    Decidable (SaidCred digest type c id hmac tr) :=
  inferInstanceAs (Decidable (∃ x ∈ tr, x.2.Presents digest type c id hmac))

instance {hmac : Bytes} {cs : List Udp.Call} {s : Ref} : Decidable (Presented digest hmac cs s) :=
  decidable_of_iff (∃ c ∈ cs, c.session = s ∧ (authReq c.data).any fun env =>
      fromHex hmac = some (digest env.payload).toList) <| by
    simp [Presented, Udp.Said, Option.any_eq_true]

def createsUdp : BrokerEvent :=
  let r : CreateReq := { tunnelId := [65], proto := .udp, closed := true }
  .ipc (.createTunnel { r with agentSecret := some [1], sharedToken := some [2] } [] [] true)

def auths (host : UInt8) (secret : Bytes) : BrokerEvent :=
  .udp 0 (recordFrom host (tmEnvEncode 0 2 secret)).ev

end Examples

/-- The agent's session outlives the secret it has presented. -/
theorem secret_rotation_stale : ∃ tr b, Trace (brokerStep padDigest) BrokerInit tr b ∧
    ∃ t ∈ b.tunnels, ∃ s, t.udp.agentSession = some s ∧
      ¬ Presented padDigest t.agentSecretHmac (planeCalls padDigest t.ref tr) s := by
  obtain ⟨tr, b, h, t, ht, hs, hn⟩ := smallBroker_trace
    [createsUdp, auths 1 [1], .ipc (.rotateAgentSecret [65] (some [3]) [])]
    (fun r => ∃ t ∈ r.2.tunnels, t.udp.agentSession = some 0 ∧
      ¬ Presented padDigest t.agentSecretHmac (planeCalls padDigest t.ref r.1) 0) (by decide)
  exact ⟨tr, b, h, t, ht, 0, hs, hn⟩

theorem secret_rotation_effective_before : ∃ tr b, Trace (brokerStep padDigest) BrokerInit tr b ∧
    (∀ p ∈ tr, SecretOk p.1 p.2) ∧ ∃ t ∈ b.tunnels, t.udp.agentSession = some 0 ∧
      t.agentSecretHmac = hexOf padDigest [3] ∧
      Presented padDigest t.agentSecretHmac (planeCalls padDigest t.ref tr) 0 := by
  obtain ⟨tr, b, h, hok, t, ht, hs, hh⟩ := smallBroker_trace
    [createsUdp, .ipc (.rotateAgentSecret [65] (some [3]) []), auths 1 [3]]
    (fun r => (∀ p ∈ r.1, SecretOk p.1 p.2) ∧ ∃ t ∈ r.2.tunnels, t.udp.agentSession = some 0 ∧
      t.agentSecretHmac = hexOf padDigest [3]) (by decide)
  exact ⟨tr, b, h, hok, t, ht, hs, hh, (secret_rotation_effective h hok t ht).2 0 hs⟩

def PeersSaid (digest : Bytes → Digest) (tr : History) (b : Broker) : Prop :=
  ∀ x ∈ b.conns, ∀ T, x.peerAuthed = true → x.peerTun = some T →
    T < b.nextRef ∧ ∀ t ∈ b.tunnels, t.ref = T → SaidToken digest x.ref t tr

lemma PeersSaid.step (hw : Wf b) (h : PeersSaid digest tr b) (hok : TokenOk b e)
    (hs : brokerStep digest b e = some b') : PeersSaid digest ((b, e) :: tr) b' := by
  have ha := After.step hw hs
  intro x hx T hp hT
  obtain ⟨y, hy, hyx, hyp, hyT⟩ | hauth := ha.conns x hx T hp hT
  · obtain ⟨hlt, hsaid⟩ := h y hy T hyp hyT
    refine ⟨hlt.trans_le ha.next, fun t' ht' he => ?_⟩
    obtain ⟨t, ht, hst⟩ | ⟨hn, -⟩ := tunnel_step hw hs t' ht'
    · unfold SaidToken
      cases hst with
      | later hl =>
        rw [hl.id, hl.sharedTokenHmac, ← hyx]
        exact (hsaid t ht (hl.ref.trans he)).later _
      | secret _ _ href hid _ htk =>
        rw [hid, htk, ← hyx]
        exact (hsaid t ht (href.trans he)).later _
      | token hr href => exact absurd (href.trans he ▸ hyT) ((hok.none hr).1 y hy hyp)
      | plane ev _ _ ht' =>
        subst ht'
        rw [← hyx]
        exact (hsaid t ht he).later _
    · exact absurd hlt (not_lt.2 (he ▸ hn))
  · obtain ⟨u, hu, hur, hpr⟩ := hauth.presents
    have hlt : T < b.nextRef := hur ▸ hw.tunnels.lt u hu
    refine ⟨hlt.trans_le ha.next, fun t' ht' he => ?_⟩
    obtain ⟨t, ht, hst⟩ | ⟨hn, -⟩ := tunnel_step hw hs t' ht'
    · have hl := hst.of_presents hpr
      obtain rfl := hw.tunnel_eq ht hu (hur.trans (he.symm.trans hl.ref.symm))
      unfold SaidToken
      rw [hl.id, hl.sharedTokenHmac]
      exact ⟨_, mem_cons_self, hpr⟩
    · exact absurd hlt (not_lt.2 (he ▸ hn))

lemma PeersSaid.of_trace (h : Trace (brokerStep digest) BrokerInit tr b)
    (hok : ∀ p ∈ tr, TokenOk p.1 p.2) : PeersSaid digest tr b := by
  induction h with
  | start hi =>
    obtain ⟨cfg, -, rfl⟩ := hi
    simp [PeersSaid]
  | next hr hs ih =>
    rw [forall_mem_cons] at hok
    exact (ih hok.2).step (.of_trace hr) hok.1 hs

lemma opens_of_new (hw : Wf b) (hw' : Wf b') (hs : brokerStep digest b e = some b')
    {st : Stream} (ht : t ∈ b.tunnels) (hc : t.closed = true) (hst : st ∈ b'.streams)
    (hT : st.tun = t.ref) (hnew : ∀ st₀ ∈ b.streams, st₀.ref ≠ st.ref) :
    ∃ c, st.sockA = .conn c ∧ Opens b e c t.ref := by
  obtain ⟨st₀, hst₀, he⟩ | hl | ⟨c, hc, ho⟩ := (After.step hw hs).streams st hst
  · exact absurd he (hnew st₀ hst₀)
  · obtain ⟨t', ht', -, hr⟩ := hw'.streamTun st hst
    have hopen := hw'.publicTun st hst hl t' ht' hr
    obtain ⟨u, hu, hst'⟩ | ⟨hn, -⟩ := tunnel_step hw hs t' ht'
    · have hu' : u.ref = t'.ref ∧ t'.closed = u.closed := by
        cases hst' with
        | later hl => exact ⟨hl.ref, hl.closed⟩
        | secret _ _ href _ hcl | token _ href _ hcl => exact ⟨href, hcl⟩
        | plane _ _ _ he => exact he ▸ ⟨rfl, rfl⟩
      rw [hu'.2, hw.tunnel_eq ht hu (hu'.1.trans (hr.trans hT)), hc] at hopen
      cases hopen
    · have hle : b.nextRef ≤ t.ref := (hr.trans hT) ▸ hn
      exact absurd (hw.tunnels.lt t ht) (not_lt.2 hle)
  · exact ⟨c, hc, hT ▸ ho⟩

/-- In every run in which no authenticated peer of a tunnel is there when its token is rotated,
every stream and every datagram of a peer comes from one that has presented the current token. -/
theorem token_rotation_effective (h : Trace (brokerStep digest) BrokerInit tr b)
    (hok : ∀ p ∈ tr, TokenOk p.1 p.2) (hs : brokerStep digest b e = some b') : ∀ t ∈ b.tunnels,
      (t.closed = true → ∀ st ∈ b'.streams, st.tun = t.ref → (∀ st₀ ∈ b.streams, st₀.ref ≠ st.ref) →
        ∃ c, st.sockA = .conn c ∧ SaidToken digest c t tr) ∧
      ∀ c cs, c :: cs <:+ callsAt digest t.ref (b, e) → ∀ y, c.plane.agentSession = some y →
        c.Gives b.cfg digest y →
        Presented digest t.sharedTokenHmac (cs ++ planeCalls digest t.ref tr) c.session := by
  have hw := Wf.of_trace h
  intro t ht
  refine ⟨fun hc st hst hT hnew => ?_, fun c cs hcs y hy hg => ?_⟩
  · obtain ⟨c, hsock, f, w, k, -, -, -, x, hx, rfl, hp, hxT⟩ :=
      opens_of_new hw (.of_trace (h.next hs)) hs ht hc hst hT hnew
    exact ⟨x.ref, hsock, (PeersSaid.of_trace h hok x hx _ hp hxT).2 t ht rfl⟩
  · cases e with
    | udp T ev =>
      simp only [callsAt] at hcs
      split_ifs at hcs with hT
      swap
      · simp at hcs
      subst hT
      have hg' : get t.ref b.tunnels = some t := get_of_mem hw.tunnels.nodup ht
      rw [hg', map_some, getD_some] at hcs
      simp only [brokerStep] at hs
      split_ifs at hs
      obtain ⟨u, hu, hev⟩ := bind_eq_some_iff.1 hs
      cases (hg'.symm.trans hu)
      obtain ⟨p, -, hst, -⟩ := udpEvent_spec (hw.ok t ht) hev
      have hp : t.Presents False True digest tr :=
        presents_of_trace h (fun p hp => ⟨False.elim, fun _ => hok p hp⟩) t ht
      have hrun := (Udp.RunOk.start hp).step hst
      rw [append_nil] at hrun
      have hcreds : ∀ c' ∈ cs, c'.creds = t.creds := fun c' hc' =>
        creds_of_callsOf (hcs.subset (mem_cons_of_mem _ hc'))
      obtain hold | ⟨c', hc', hcs', env, he, -, hx⟩ := (hrun.2 c cs hcs).toAgent y hy hg
      · exact (hold trivial).mono (subset_append_right _ _)
      · rw [hcreds c' hc'] at hx
        exact ⟨c', mem_append_left _ hc', hcs', env, he, hx⟩
    | _ => simp [callsAt] at hcs

/-- A peer that has authenticated with the old token opens a stream after the rotation. -/
theorem token_rotation_stale : ∃ tr b b', Trace (brokerStep padDigest) BrokerInit tr b ∧
    brokerStep padDigest b (sends 3 .dataBind 0 []) = some b' ∧ b.streams = [] ∧
    ∃ t ∈ b.tunnels, t.closed = true ∧ ∃ st ∈ b'.streams, st.tun = t.ref ∧ st.sockA = .conn 3 ∧
      ¬ SaidToken padDigest 3 t tr := by
  obtain ⟨tr, b, h, he, t, ht, hc, hn, hq⟩ := smallBroker_trace
    [creates [65] true, .controlAccept, sends 1 .hello 0 [], sends 1 .register 0 [0, 1, 65, 1],
      .controlAccept, sends 3 .hello 0 [], sends 3 .auth 0 [0, 1, 65, 2],
      .ipc (.rotateSharedToken [65] (some [3]) [])]
    (fun r => r.2.streams = [] ∧ ∃ t ∈ r.2.tunnels, t.closed = true ∧
      ¬ SaidCred padDigest .auth 3 t.id t.sharedTokenHmac r.1 ∧
      (brokerStep padDigest r.2 (sends 3 .dataBind 0 [])).any (fun b' => ∃ st ∈ b'.streams,
        st.tun = t.ref ∧ st.sockA = .conn 3) = true) (by decide)
  obtain ⟨b', hb', hst⟩ := (any_eq_true _ _).1 hq
  obtain ⟨st, hst, hT, hs⟩ := of_decide_eq_true hst
  exact ⟨tr, b, b', h, hb', he, t, ht, hc, st, hst, hT, hs, hn⟩

theorem token_rotation_effective_before : ∃ tr b b',
    Trace (brokerStep padDigest) BrokerInit tr b ∧ (∀ p ∈ tr, TokenOk p.1 p.2) ∧
    brokerStep padDigest b (sends 3 .dataBind 0 []) = some b' ∧
    ∃ t ∈ b.tunnels, t.sharedTokenHmac = hexOf padDigest [3] ∧ ∃ st ∈ b'.streams, ∃ c,
      st.sockA = .conn c ∧ SaidToken padDigest c t tr := by
  obtain ⟨tr, b, h, hok, he, t, ht, hc, hh, hq⟩ := smallBroker_trace
    [creates [65] true, .ipc (.rotateSharedToken [65] (some [3]) []),
      .controlAccept, sends 1 .hello 0 [], sends 1 .register 0 [0, 1, 65, 1],
      .controlAccept, sends 3 .hello 0 [], sends 3 .auth 0 [0, 1, 65, 3]]
    (fun r => (∀ p ∈ r.1, TokenOk p.1 p.2) ∧ r.2.streams = [] ∧ ∃ t ∈ r.2.tunnels,
      t.closed = true ∧ t.sharedTokenHmac = hexOf padDigest [3] ∧
      (brokerStep padDigest r.2 (sends 3 .dataBind 0 [])).any (fun b' => ∃ st ∈ b'.streams,
        st.tun = t.ref) = true) (by decide)
  obtain ⟨b', hb', hst⟩ := (any_eq_true _ _).1 hq
  obtain ⟨st, hst, hT⟩ := of_decide_eq_true hst
  have hnil : b.streams = [] := he
  obtain ⟨c, hsock, hsaid⟩ := (token_rotation_effective h hok hb' t ht).1 hc st hst hT
    (by simp [hnil])
  exact ⟨tr, b, b', h, hok, hb', t, ht, hh, st, hst, c, hsock, hsaid⟩

end TunnelMate
