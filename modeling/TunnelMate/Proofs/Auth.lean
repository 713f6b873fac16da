import TunnelMate.Proofs.Steps

/-!
# Authentication before service

What a connection of the control port has become sends what it has sent: an agent, the agent leg of
a stream, or the peer of a stream.
-/

namespace TunnelMate

open List Table

abbrev History := List (Broker × BrokerEvent)

section Said

variable (digest : Bytes → Digest) (c T : Ref) (tr : History)

def SaidHello : Prop := ∃ p ∈ tr, Hello p.2 c

def SaidRegister : Prop :=
  ∃ b e tr', (b, e) :: tr' <:+ tr ∧ Registers digest b e c T ∧ SaidHello c tr'

def SaidAuth : Prop :=
  ∃ b e tr', (b, e) :: tr' <:+ tr ∧ Authenticates digest b e c T ∧ SaidHello c tr'

def SaidOpen : Prop := ∃ b e tr', (b, e) :: tr' <:+ tr ∧ Opens b e c T ∧ SaidAuth digest c T tr'

def SaidBind (st : Stream) : Prop :=
  ∃ p ∈ tr, ∃ x, x.ref = st.ref ∧ x.tun = st.tun ∧ Binds digest p.1 p.2 c x

end Said

variable {T c : Ref} {b : Broker} {digest : Bytes → Digest} {e : BrokerEvent}

lemma Registers.hello : Registers digest b e c T → ∃ x ∈ b.conns, x.ref = c ∧ x.gotHello = true
  | ⟨_, _, _, _, _, h, _⟩ => h

lemma Authenticates.hello :
    Authenticates digest b e c T → ∃ x ∈ b.conns, x.ref = c ∧ x.gotHello = true
  | ⟨_, _, _, _, _, h, _⟩ => h

structure Authed (digest : Bytes → Digest) (tr : History) (b : Broker) : Prop where
  hello : ∀ c ∈ b.conns, c.gotHello = true → SaidHello c.ref tr
  peer : ∀ c ∈ b.conns, c.peerAuthed = true → ∀ T, c.peerTun = some T → SaidAuth digest c.ref T tr
  agent : ∀ a ∈ b.agents, SaidRegister digest a.conn a.tun tr
  leg : ∀ st ∈ b.streams, ∀ io, st.relay.s.b.io = some io →
    ∃ c, io = .ssl c ∧ SaidBind digest c tr st
  opened : ∀ st ∈ b.streams, ∀ c, st.sockA = .conn c → SaidOpen digest c st.tun tr

namespace Authed

variable {digest : Bytes → Digest} {tr : History} {b₀ b b' : Broker} {e : BrokerEvent}

lemma init (h : BrokerInit b) : Authed digest [] b := by
  obtain ⟨cfg, -, rfl⟩ := h
  exact ⟨by simp, by simp, by simp, by simp, by simp⟩

lemma later (p : Broker × BrokerEvent) (h : Authed digest tr b) : Authed digest (p :: tr) b where
  hello c hc hh := by
    obtain ⟨q, hq, hs⟩ := h.hello c hc hh
    exact ⟨q, mem_cons_of_mem _ hq, hs⟩
  peer c hc hp T hT := by
    obtain ⟨b, e, tr', hs, hr⟩ := h.peer c hc hp T hT
    exact ⟨b, e, tr', hs.trans (suffix_cons _ _), hr⟩
  agent a ha := by
    obtain ⟨b, e, tr', hs, hr⟩ := h.agent a ha
    exact ⟨b, e, tr', hs.trans (suffix_cons _ _), hr⟩
  leg st hst io hio := by
    obtain ⟨c, hc, q, hq, hs⟩ := h.leg st hst io hio
    exact ⟨c, hc, q, mem_cons_of_mem _ hq, hs⟩
  opened st hst c hc := by
    obtain ⟨b, e, tr', hs, hr⟩ := h.opened st hst c hc
    exact ⟨b, e, tr', hs.trans (suffix_cons _ _), hr⟩

lemma of_subset (h : Authed digest tr b) (hc : b'.conns ⊆ b.conns) (ha : b'.agents ⊆ b.agents)
    (hs : b'.streams ⊆ b.streams) : Authed digest tr b' where
  hello c hm := h.hello c (hc hm)
  peer c hm := h.peer c (hc hm)
  agent a hm := h.agent a (ha hm)
  leg st hm := h.leg st (hs hm)
  opened st hm := h.opened st (hs hm)

lemma of_same (h : Authed digest tr b) (hc : b'.conns = b.conns) (ha : b'.agents = b.agents)
    (hs : b'.streams = b.streams) : Authed digest tr b' :=
  h.of_subset (fun _ hm => hc ▸ hm) (fun _ hm => ha ▸ hm) fun _ hm => hs ▸ hm

lemma unlink (h : Authed digest tr b) (c : Ref) : Authed digest tr (connUnlink c b) :=
  h.of_subset (filter_subset_self _) (.refl _) (.refl _)

lemma setRelay {k : Ref} {r : Duplex.Config Relay.Tail} {g : Stream → Option Ref}
    (h : Authed digest tr b) (hr : ∀ x ∈ b.streams, x.ref = k → ∀ io, r.s.b.io = some io →
      ∃ c, io = .ssl c ∧ SaidBind digest c tr x) :
    Authed digest tr (b.updStream k fun x => { x with relay := r, sockB := g x }) :=
  { h with
    leg := forall_upd (fun x hx _ => h.leg x hx) fun x hx he => hr x hx he
    opened := forall_upd (fun x hx _ => h.opened x hx) fun x hx _ => h.opened x hx }

lemma link {id : ℕ} {sock : Sock} {s : Duplex.Stream} (h : Authed digest tr b)
    (hs : s.b.io = none) (ho : ∀ c, sock = .conn c → SaidOpen digest c T tr) :
    Authed digest tr (streamLink T id sock s b).2 :=
  { h with
    leg := forall_mem_cons.2 ⟨fun io hio => by simp [hs] at hio, h.leg⟩
    opened := forall_mem_cons.2 ⟨ho, h.opened⟩ }

lemma move (h₀ : Authed digest tr b₀) (hw : Wf b) (hm : Move digest b₀ e b b')
    (h : Authed digest ((b₀, e) :: tr) b) : Authed digest ((b₀, e) :: tr) b' := by
  have hnow : (b₀, e) :: tr <:+ (b₀, e) :: tr := suffix_refl _
  have hello₀ : ∀ c, (∃ x ∈ b₀.conns, x.ref = c ∧ x.gotHello = true) → SaidHello c tr := by
    rintro c ⟨x, hx, rfl, hh⟩
    exact h₀.hello x hx hh
  cases hm with
  | misc he =>
    obtain ⟨-, -, -, hc, ha, hs, -⟩ := Broker.core_eq.1 he
    exact h.of_same hc ha hs
  | accept =>
    exact { h with
      hello := forall_mem_cons.2 ⟨fun hh => by simp at hh, h.hello⟩
      peer := forall_mem_cons.2 ⟨fun hh => by simp at hh, h.peer⟩ }
  | closeConn c => exact (h.unlink c).of_same rfl rfl rfl
  | hello hh =>
    exact { h with
      hello := forall_upd (fun c hc _ => h.hello c hc) fun c _ he _ =>
        ⟨_, mem_cons_self, by rw [← he] at hh; exact hh⟩
      peer := forall_upd (fun c hc _ => h.peer c hc) fun c hc _ => h.peer c hc }
  | auth ha =>
    have hs := hello₀ _ ha.hello
    exact { h with
      hello := forall_upd (fun c hc _ => h.hello c hc) fun c hc _ => h.hello c hc
      peer := forall_upd (fun c hc _ => h.peer c hc) fun c _ he _ T hT => by
        cases hT
        obtain rfl := he
        exact ⟨b₀, e, tr, hnow, ha, hs⟩ }
  | tunnel => exact h.of_same rfl rfl rfl
  | dropAgent =>
    exact h.of_subset (.refl _) (filter_subset_self _) (.refl _)
  | addAgent hr =>
    have hs := hello₀ _ hr.hello
    have h' : Authed digest ((b₀, e) :: tr) (agentAdd _ _ b) :=
      { h with agent := forall_mem_cons.2 ⟨⟨b₀, e, tr, hnow, hr, hs⟩, h.agent⟩ }
    exact h'.unlink _
  | openStream => exact h.link rfl fun c hc => by cases hc
  | peerStream ho =>
    refine (h.link rfl fun c hc => ?_).unlink _
    obtain rfl := Sock.conn.inj hc
    obtain ⟨f, w, k, he, hf, h0, x, hx, hxc, hp, hT⟩ := ho
    exact ⟨b₀, e, tr, hnow, ⟨f, w, k, he, hf, h0, x, hx, hxc, hp, hT⟩, hxc ▸ h₀.peer x hx hp _ hT⟩
  | closeStream =>
    exact h.of_subset (.refl _) (.refl _) (filter_subset_self _)
  | @relay x _ c hx hs hl =>
    refine (h.setRelay (k := x.ref) (r := c) (g := Stream.sockB) fun y hy he io hio => ?_).of_same
      rfl rfl rfl
    rw [eq_of_key hw.streams.nodup hy hx he]
    rcases Relay.shrinks_step hs hl .b with hb | hb
    · exact h.leg _ hx io (hb ▸ hio)
    · exact absurd (hb.symm.trans hio) (by simp)
  | @attach x conn c hx hb hs =>
    refine ((h.setRelay (k := x.ref) (r := c) (g := fun _ => some conn)
      fun y hy he io hio => ?_).unlink conn).of_same rfl rfl rfl
    rw [eq_of_key hw.streams.nodup hy hx he]
    rcases (Relay.step_attach hs).2 io hio with hio | rfl
    · exact h.leg _ hx io hio
    · exact ⟨_, rfl, _, mem_cons_self, _, rfl, rfl, hb⟩
  | _ => exact h.of_same rfl rfl rfl

lemma of_trace (h : Trace (brokerStep digest) BrokerInit tr b) : Authed digest tr b :=
  h.inv_hist (fun _ => init) fun _ _ _ _ hr h₀ hs =>
    have hw := .of_trace hr
    (step_moves hw hs).inv hw (h₀.later _) fun _ _ hw hm h => h₀.move hw hm h

end Authed

/-- In every run, every agent has registered, every agent leg has bound its stream, and every stream
of a closed tunnel was opened by a peer that had authenticated. -/
theorem auth_before_service {digest : Bytes → Digest} {tr : History} {b : Broker}
    (h : Trace (brokerStep digest) BrokerInit tr b) :
    (∀ a ∈ b.agents, SaidRegister digest a.conn a.tun tr) ∧
      (∀ st ∈ b.streams, ∀ io, st.relay.s.b.io = some io →
        ∃ c, io = .ssl c ∧ SaidBind digest c tr st) ∧
      ∀ st ∈ b.streams, ∀ t ∈ b.tunnels, t.ref = st.tun → t.closed = true →
        ∃ c, st.sockA = .conn c ∧ SaidOpen digest c t.ref tr := by
  have ha := Authed.of_trace h
  refine ⟨ha.agent, ha.leg, fun st hst t ht he hc => ?_⟩
  cases hs : st.sockA with
  | listener =>
    have := (Wf.of_trace h).publicTun st hst hs t ht he
    rw [hc] at this
    cases this
  | conn c => exact ⟨c, rfl, he ▸ ha.opened st hst c hs⟩

theorem auth_before_service_peer : ∃ tr b, Trace (brokerStep padDigest) BrokerInit tr b ∧
    SaidRegister padDigest 1 0 tr ∧ ∃ st ∈ b.streams, SaidBind padDigest 5 tr st ∧
      st.sockA = .conn 3 ∧ SaidOpen padDigest 3 0 tr := by
  obtain ⟨tr, b, h, ⟨a, ha, hac, hat⟩, st, hst, hb, hs, t, ht, he, hc, ht0⟩ := smallBroker_trace
    (peerOpens ++ [.controlAccept, sends 5 .dataBind 1 [1]])
    (fun r => (∃ a ∈ r.2.agents, a.conn = 1 ∧ a.tun = 0) ∧ ∃ st ∈ r.2.streams,
      st.relay.s.b.io = some (.ssl 5) ∧ st.sockA = .conn 3 ∧ ∃ t ∈ r.2.tunnels,
      t.ref = st.tun ∧ t.closed = true ∧ t.ref = 0) (by decide)
  obtain ⟨hagent, hleg, hpeer⟩ := auth_before_service h
  obtain ⟨c, hc5, hbind⟩ := hleg st hst _ hb
  obtain ⟨c', hc3, hopen⟩ := hpeer st hst t ht he hc
  obtain rfl := Duplex.Io.ssl.inj hc5
  obtain rfl := Sock.conn.inj (hs.symm.trans hc3)
  have hreg := hagent a ha
  rw [hac, hat] at hreg
  rw [ht0] at hopen
  exact ⟨tr, b, h, hreg, st, hst, hbind, hs, hopen⟩

end TunnelMate
