import TunnelMate.Proofs.UdpWire

/-!
# Who relays over a UDP plane

Every decrypted record goes through a call of `session_appdata`.
-/

namespace TunnelMate.Udp

open Bool hiding false_or

open List Option Table

structure Call where
  plane : Plane
  creds : Creds
  session : Ref
  data : Bytes
  ans : PumpAns

section

variable (cfg : BrokerCfg) (digest : Bytes → Digest)

def Call.after (c : Call) : Plane :=
  sessionAppdata cfg digest c.creds c.session c.data c.ans c.plane

def Call.AuthAgent (c : Call) : Prop :=
  ∃ e, authReq c.data = some e ∧ fromHex c.creds.agentSecretHmac = some (digest e.payload).toList

def Call.AuthPeer (c : Call) : Prop :=
  ∃ e, authReq c.data = some e ∧ c.creds.closed = true ∧
    fromHex c.creds.sharedTokenHmac = some (digest e.payload).toList

def drainCalls (k : Creds) (s : Ref) : List (Bytes × PumpAns) → Plane → List Call
  | [], _ => []
  | r :: rs, p =>
    drainCalls k s rs (sessionAppdata cfg digest k s r.1 r.2 p) ++ [⟨p, k, s, r.1, r.2⟩]

def pumpInStart (s : Ref) (hs : HsAns) (p : Plane) : Option Plane :=
  match get s p.sessions with
  | none => none
  | some x =>
    if x.handshakeDone then some p
    else
      match hs with
      | .done recs => some ((addRecs s recs p).upd s fun x => { x with handshakeDone := true })
      | _ => none

def drainStart (k : Creds) (addr : Addr) (data : Bytes) (hs : HsAns) (p : Plane) :
    Option (Ref × Plane) :=
  if !k.closed && !looksLikeDtls data then none
  else
    match p.sessions.find? (tmAddrEq ·.peer addr) with
    | some x =>
      (pumpInStart x.ref hs (p.upd x.ref fun x => { x with lastRxMs := p.now })).map (x.ref, ·)
    | none =>
      let (ok, w) := rateCheck cfg.udpFlowCreationRate p.now p.flowCreatedWin
      if !ok then none
      else
        (pumpInStart p.nextRef hs (sessionCreate addr { p with flowCreatedWin := w })).map
          (p.nextRef, ·)

def callsOf (p : Plane) (l : Label) : List Call :=
  match l.ev with
  | .packet addr data hs reads _ =>
    ((drainStart cfg l.creds addr data hs { p with now := l.now, loop := l.loop }).map fun d =>
      drainCalls cfg digest l.creds d.1 reads d.2).getD []
  | _ => []

def calls (tr : List (Plane × Label)) : List Call := tr.flatMap fun x => callsOf cfg digest x.1 x.2

end

/-! ## What a call gives -/

def Session.link (x : Session) : List Queued × List (Option Queued) × Bool :=
  (x.outq, x.wbio, x.inflight)

structure Role where
  ref : Ref
  authenticated : Bool
  isAgent : Bool

def Session.role (x : Session) : Role := { x with }

def Plane.roles (p : Plane) : List Role := p.sessions.map Session.role

/-- Only the sessions in `fed` are given something, datagrams go to clients if `raw`, and new flows
are for the endpoints in `eps`. -/
structure Relays (fed : Ref → Prop) (raw : Prop) (eps : Endpoint → Prop) (p p' : Plane) : Prop where
  next : p.nextRef ≤ p'.nextRef
  roles : p'.roles = p.roles
  agentSession : p'.agentSession = p.agentSession
  link : ∀ x' ∈ p'.sessions, ¬ fed x'.ref → ∃ x ∈ p.sessions, x.ref = x'.ref ∧ x'.link = x.link
  sent : ∃ new, p'.sent = new ++ p.sent ∧
    ∀ o ∈ new, (o.session = none → raw) ∧ ∀ y, o.session = some y → fed y
  flows : ∀ f' ∈ p'.flows, (∃ f ∈ p.flows, f'.ep = f.ep) ∨ eps f'.ep

variable {f : Session → Session}
variable {body : Body} {dst addr : Addr} {o : Option Ref} {send isAgent : Bool}
variable {x y : Session}

namespace Relays

variable {cfg : BrokerCfg} {digest : Bytes → Digest} {p p' p'' : Plane} {s : Ref} {a : PumpAns}
  {fed : Ref → Prop} {raw : Prop} {eps : Endpoint → Prop}

section

variable (h : Relays fed raw eps p p')
include h

lemma trans (h' : Relays fed raw eps p' p'') : Relays fed raw eps p p'' where
  next := h.next.trans h'.next
  roles := h'.roles.trans h.roles
  agentSession := h'.agentSession.trans h.agentSession
  link x'' hx'' hn := by
    obtain ⟨x', hx', hr', hl'⟩ := h'.link x'' hx'' hn
    obtain ⟨x, hx, hr, hl⟩ := h.link x' hx' (hr' ▸ hn)
    exact ⟨x, hx, hr.trans hr', hl'.trans hl⟩
  sent := by
    obtain ⟨new, hn, ho⟩ := h.sent
    obtain ⟨new', hn', ho'⟩ := h'.sent
    refine ⟨new' ++ new, by rw [hn', hn, append_assoc], fun o hm => ?_⟩
    exact (mem_append.1 hm).elim (ho' o) (ho o)
  flows f'' hf'' := by
    obtain ⟨f', hf', he'⟩ | he := h'.flows f'' hf''
    · rw [he']
      exact h.flows f' hf'
    · exact .inr he

lemma nodup (hn : (p.sessions.map Keyed.key).Nodup) : (p'.sessions.map Keyed.key).Nodup := by
  have hk (p : Plane) : p.sessions.map Keyed.key = p.roles.map Role.ref := by
    rw [Plane.roles, List.map_map]
    rfl
  rwa [hk, h.roles, ← hk]

end

lemma of_same (hn : p.nextRef ≤ p'.nextRef) (hs : p'.sessions = p.sessions)
    (ha : p'.agentSession = p.agentSession) (ho : p'.sent = p.sent)
    (hf : ∀ f' ∈ p'.flows, (∃ f ∈ p.flows, f'.ep = f.ep) ∨ eps f'.ep) :
    Relays fed raw eps p p' where
  next := hn
  roles := by rw [Plane.roles, hs, Plane.roles]
  agentSession := ha
  link x' hx' _ := ⟨x', hs ▸ hx', rfl, rfl⟩
  sent := ⟨[], ho, by simp⟩
  flows := hf

lemma ctr (c : Counters) : Relays fed raw eps p { p with ctr := c } :=
  .of_same le_rfl rfl rfl rfl fun f hf => .inl ⟨f, hf, rfl⟩

lemma refl : Relays fed raw eps p p := .of_same le_rfl rfl rfl rfl fun f hf => .inl ⟨f, hf, rfl⟩

lemma touch (f : Ref) (plen : ℕ) : Relays fed raw eps p (touch f plen p) :=
  .of_same le_rfl rfl rfl rfl <| forall_upd (fun g hg _ => .inl ⟨g, hg, rfl⟩)
    fun g hg _ => .inl ⟨g, hg, rfl⟩

lemma upd (hr : ∀ x ∈ p.sessions, x.ref = s → (f x).role = x.role)
    (hl : ¬ fed s → ∀ x ∈ p.sessions, x.ref = s → (f x).link = x.link) :
    Relays fed raw eps p (p.upd s f) where
  next := le_rfl
  roles := map_upd hr
  agentSession := rfl
  link := forall_upd (fun x hx _ _ => ⟨x, hx, rfl, rfl⟩) fun x hx he hn => by
    have href : (f x).ref = x.ref := congrArg Role.ref (hr x hx he)
    have hs : x.ref = s := he
    exact ⟨x, hx, href.symm, hl (by rwa [href, hs] at hn) x hx he⟩
  sent := ⟨[], rfl, by simp⟩
  flows f hf := .inl ⟨f, hf, rfl⟩

lemma udpSendRaw (hr : o = none → raw) (ht : ∀ y, o = some y → fed y) :
    Relays fed raw eps p (udpSendRaw cfg o dst body send p) := by
  unfold Udp.udpSendRaw
  split_ifs
  · exact .ctr _
  · refine ⟨le_rfl, rfl, rfl, fun x hx _ => ⟨x, hx, rfl, rfl⟩,
      ⟨[⟨o, dst, body⟩], rfl, fun x hx => ?_⟩,
      fun f hf => .inl ⟨f, hf, rfl⟩⟩
    rw [mem_singleton.1 hx]
    exact ⟨hr, ht⟩
  · exact .ctr _

section

variable (hn : (p.sessions.map Keyed.key).Nodup)
include hn

lemma pumpOut (ht : fed s) : Relays fed raw eps p (pumpOut cfg s a p) := by
  have hp : ∀ l, Relays fed raw eps p { p with pumps := l } := fun l =>
    .of_same le_rfl rfl rfl rfl fun f hf => .inl ⟨f, hf, rfl⟩
  refine pumpOut_rule refl hp (fun x hx hk y l hy => ?_) fun x _ _ y l r hu _ => ?_
  · obtain ⟨v, -, -⟩ := hy
    refine (hp l).trans (.upd (fun z hz he => ?_) fun h => absurd ht h)
    rw [eq_of_key hn hz hx (he.trans hk.symm)]
    rfl
  · refine hu.trans (.udpSendRaw (by simp) fun z hz => ?_)
    cases hz
    exact ht

lemma sessionQueue (ht : fed s) (q : Queued) : Relays fed raw eps p (sessionQueue cfg s q a p) := by
  have hu : Relays fed raw eps p (p.upd s fun x => { x with outq := x.outq ++ [q] }) :=
    .upd (fun _ _ _ => rfl) fun h => absurd ht h
  exact sessionQueue_rule refl ctr (hu.trans (.pumpOut (hu.nodup hn) ht))

lemma acts {P : Bytes → Prop} {R : Reply → Prop} {N : Endpoint → Prop} (ha : Acts cfg P R N p p')
    (hP : ∀ b, P b → ∀ s, p.agentSession = some s → fed s) (hR : ∀ r, R r → raw ∧
      ∀ y i, (∃ f ∈ p.flows, .peer y i = f.ep) ∨ eps (.peer y i) → fed y)
    (hN : ∀ ep, N ep → eps ep) : Relays fed raw eps p p' := by
  induction ha with
  | refl => exact refl
  | tail _ ha ih =>
    have hn' := ih.nodup hn
    refine ih.trans ?_
    cases ha with
    | count => exact .of_same le_rfl rfl rfl rfl fun f hf => .inl ⟨f, hf, rfl⟩
    | touch => exact .touch _ _
    | flow hep =>
      refine .of_same (Nat.le_succ _) rfl rfl rfl ?_
      exact forall_mem_cons.2 ⟨.inr (hN _ hep), fun f hf => .inl ⟨f, hf, rfl⟩⟩
    | toAgent _ _ hb hs => exact .sessionQueue hn' (hP _ hb _ (ih.agentSession ▸ hs)) _
    | toPeer _ hr hm _ he =>
      exact .sessionQueue hn' ((hR _ hr).2 _ _ (he ▸ ih.flows _ hm)) _
    | toClient _ hr => exact .udpSendRaw (fun _ => (hR _ hr).1) nofun

lemma agentSessionEnv (e : Env) :
    Relays (fun y => ∃ f ∈ p.flows, ∃ i, f.ep = .peer y i) True (fun _ => False) p
      (agentSessionEnv cfg e a p) := by
  have ha : Acts cfg (fun _ => False) (fun _ => True) (fun _ => False) p
    (Udp.agentSessionEnv cfg e a p) := acts_agentSessionEnv fun _ => trivial
  refine .acts hn ha nofun (fun _ _ => ⟨trivial, fun y i => ?_⟩) nofun
  rintro (⟨f, hf, he⟩ | ⟨⟨⟩⟩)
  exact ⟨f, hf, i, he.symm⟩

lemma openClientDatagram (he : eps (.client addr)) (payload : Bytes) :
    Relays (p.agentSession = some ·) raw eps p (openClientDatagram cfg addr payload a p) := by
  have ha : Acts cfg (fun _ => True) (fun _ => False) eps p
    (Udp.openClientDatagram cfg addr payload a p) := acts_openClientDatagram trivial he
  exact .acts hn ha (fun _ _ _ => id) nofun fun _ => id

lemma peerSessionEnv {e : Env} (he : eps (.peer x.ref e.flowId)) :
    Relays (p.agentSession = some ·) raw eps p (peerSessionEnv cfg x e a p) := by
  have hw : Relays (p.agentSession = some ·) raw eps p (p.upd x.ref fun y => { y with
      pktWin := (rateCheck cfg.udpMaxPacketsPerSource p.now x.pktWin).2 }) :=
    .upd (fun _ _ _ => rfl) fun _ _ _ _ => rfl
  have ha : Acts cfg (fun _ => True) (fun _ => False) eps _
    (Udp.peerSessionEnv cfg x e a p) := acts_peerSessionEnv (fun _ => trivial) fun _ => he
  exact hw.trans (.acts (hw.nodup hn) ha (fun _ _ _ => id) nofun fun _ => id)

end

end Relays

/-! ## Rights -/

/-- Who is authenticated may be: the agent's session is the current one and meets `A`, those of
peers meet `P`, and peers alone have flows. -/
structure Rightful (A P : Ref → Prop) (p : Plane) : Prop where
  fresh : Table.Fresh p.nextRef p.sessions
  agent : ∀ r ∈ p.roles, r.authenticated = true → r.isAgent = true →
    p.agentSession = some r.ref ∧ A r.ref
  peer : ∀ r ∈ p.roles, r.authenticated = true → r.isAgent = false → P r.ref
  current : ∀ s, p.agentSession = some s → ⟨s, true, true⟩ ∈ p.roles
  flows : ∀ f ∈ p.flows, ∀ s i, f.ep = .peer s i → ⟨s, true, false⟩ ∈ p.roles

namespace Rightful

variable {cfg : BrokerCfg} {digest : Bytes → Digest} {p p' : Plane} {s : Ref} {a : PumpAns}
  {fed : Ref → Prop} {raw : Prop} {eps : Endpoint → Prop} {A A' P P' : Ref → Prop}

lemma init : Rightful A P {} where
  fresh := .nil
  agent := by simp [Plane.roles]
  peer := by simp [Plane.roles]
  current := by simp
  flows := by simp

lemma mono (h : Rightful A P p) (hA : ∀ s, A s → A' s) (hP : ∀ s, P s → P' s) : Rightful A' P' p :=
  { h with
    agent := fun r hr ha hi => ⟨(h.agent r hr ha hi).1, hA _ (h.agent r hr ha hi).2⟩
    peer := fun r hr ha hi => hP _ (h.peer r hr ha hi) }

variable {r : Role}

section

variable (h : Rightful A P p)
include h

lemma role_eq {r' : Role} (hr : r ∈ p.roles) (hr' : r' ∈ p.roles)
    (he : r.ref = r'.ref) : r = r' := by
  obtain ⟨x, hx, rfl⟩ := mem_map.1 hr
  obtain ⟨x', hx', rfl⟩ := mem_map.1 hr'
  rw [eq_of_key h.fresh.nodup hx hx' he]

lemma relays (hr : Relays fed raw eps p p')
    (he : ∀ s i, eps (.peer s i) → ⟨s, true, false⟩ ∈ p.roles) : Rightful A P p' where
  fresh := by
    refine ⟨hr.nodup h.fresh.nodup, fun x' hx' => ?_⟩
    have hm : x'.role ∈ p.roles := hr.roles ▸ mem_map_of_mem hx'
    obtain ⟨x, hx, hrole⟩ := mem_map.1 hm
    have hk : x.ref = x'.ref := congrArg Role.ref hrole
    have hlt : x.ref < p.nextRef := h.fresh.lt x hx
    exact (hk ▸ hlt).trans_le hr.next
  agent r hm := by
    rw [hr.agentSession]
    exact h.agent r (hr.roles ▸ hm)
  peer r hm := h.peer r (hr.roles ▸ hm)
  current s hs := by
    rw [hr.roles]
    exact h.current s (hr.agentSession ▸ hs)
  flows f' hf' s i hep := by
    rw [hr.roles]
    obtain ⟨f, hf, hff⟩ | hn := hr.flows f' hf'
    · exact h.flows f hf s i (hff ▸ hep)
    · exact he s i (hep ▸ hn)

lemma create (addr : Addr) : Rightful A P (sessionCreate addr p) where
  fresh := h.fresh.cons rfl
  agent := forall_mem_cons.2 ⟨nofun, h.agent⟩
  peer := forall_mem_cons.2 ⟨nofun, h.peer⟩
  current s hs := mem_cons_of_mem _ (h.current s hs)
  flows f hf s i he := mem_cons_of_mem _ (h.flows f hf s i he)

omit h in
lemma mem_roles_del : r ∈ (del s p.sessions).map Session.role ↔ r ∈ p.roles ∧ r.ref ≠ s := by
  constructor
  · intro hr
    obtain ⟨x, hx, rfl⟩ := mem_map.1 hr
    obtain ⟨hx, hne⟩ := mem_del.1 hx
    exact ⟨mem_map_of_mem hx, hne⟩
  · rintro ⟨hr, hne⟩
    obtain ⟨x, hx, rfl⟩ := mem_map.1 hr
    exact mem_map_of_mem (mem_del.2 ⟨hx, hne⟩)

lemma close (s : Ref) : Rightful A P (tmUdpSessionClose s p) := by
  unfold tmUdpSessionClose
  split
  · exact h
  refine ⟨h.fresh.del, fun r hr ha hi => ?_, fun r hr ha hi => ?_, fun s' hs' => ?_,
    fun f hf s' i he => ?_⟩
  · obtain ⟨hr, hne⟩ := mem_roles_del.1 hr
    obtain ⟨hc, hA⟩ := h.agent r hr ha hi
    refine ⟨?_, hA⟩
    rw [hc, if_neg fun he => hne (some.inj he)]
  · exact h.peer r (mem_roles_del.1 hr).1 ha hi
  · dsimp only at hs'
    split_ifs at hs' with hc
    refine mem_roles_del.2 ⟨h.current s' hs', fun he => hc ?_⟩
    rw [hs']
    exact congrArg some he
  · obtain ⟨hf, hn⟩ := mem_filter.1 hf
    refine mem_roles_del.2 ⟨h.flows f hf s' i he, fun hs => ?_⟩
    simp [Flow.ofSession, he, show s' = s from hs] at hn

lemma stop : Rightful A P (tmUdpStop p) where
  fresh := .sublist h.fresh (nil_sublist _)
  agent := by simp [Plane.roles, tmUdpStop]
  peer := by simp [Plane.roles, tmUdpStop]
  current := by simp [tmUdpStop]
  flows := by simp [tmUdpStop]

omit h in
lemma mem_roles_upd (hs : ∃ x ∈ p.sessions, x.ref = s) :
    r ∈ (p.upd s fun x => { x with authenticated := true, isAgent := isAgent }).roles ↔
      r ∈ p.roles ∧ r.ref ≠ s ∨ r = ⟨s, true, isAgent⟩ := by
  constructor
  · intro hr
    obtain ⟨y, hy, rfl⟩ := mem_map.1 hr
    obtain ⟨x, hx, rfl⟩ := mem_upd.1 hy
    split_ifs with he
    · exact .inr (congrArg (Role.mk · true isAgent) he)
    · exact .inl ⟨mem_map_of_mem hx, he⟩
  · rintro (⟨hr, hne⟩ | rfl)
    · obtain ⟨x, hx, rfl⟩ := mem_map.1 hr
      exact mem_map.2 ⟨x, mem_upd.2 ⟨x, hx, (if_neg hne).symm⟩, rfl⟩
    · obtain ⟨x, hx, rfl⟩ := hs
      exact mem_map.2 ⟨_, mem_upd_self hx rfl, rfl⟩

lemma authAccept (hx : get s p.sessions = some x) (hu : x.authenticated = false)
    (hA : isAgent = true → A s) (hP : isAgent = false → P s) :
    Rightful A P (authAccept s isAgent p) := by
  have hxm := mem_of_get hx
  have hxs : x.ref = s := key_of_get hx
  -- nobody who is authenticated is `s`
  have other : ∀ r ∈ p.roles, r.authenticated = true → r.ref ≠ s := by
    intro r hr ha he
    rw [h.role_eq hr (mem_map_of_mem hxm) (he.trans hxs.symm)] at ha
    exact absurd (hu.symm.trans ha) (by simp)
  have hroles : ∀ {r : Role}, r ∈ (p.upd s fun x =>
      { x with authenticated := true, isAgent := isAgent }).roles ↔
      r ∈ p.roles ∧ r.ref ≠ s ∨ r = ⟨s, true, isAgent⟩ := mem_roles_upd ⟨x, hxm, hxs⟩
  have hfresh : Table.Fresh p.nextRef
      (p.upd s fun x => { x with authenticated := true, isAgent := isAgent }).sessions :=
    h.fresh.upd fun _ _ he => he
  unfold Udp.authAccept
  dsimp only
  generalize hq : (p.upd s fun x =>
    { x with authenticated := true, isAgent := isAgent }) = q at hroles hfresh ⊢
  have hqa : q.agentSession = p.agentSession := by rw [← hq]; rfl
  have hqf : q.flows = p.flows := by rw [← hq]; rfl
  have hqn : q.nextRef = p.nextRef := by rw [← hq]; rfl
  have keep : ∀ {r : Role}, r ∈ p.roles → r.authenticated = true → r ∈ q.roles := fun hr ha =>
    hroles.2 (.inl ⟨hr, other _ hr ha⟩)
  cases isAgent with
  | false =>
    simp only [false_eq_true, if_false]
    refine ⟨hqn ▸ hfresh, fun r hr ha hi => ?_, fun r hr ha hi => ?_, fun s' hs' => ?_,
      fun f hf s' i he => ?_⟩
    · obtain ⟨hr, -⟩ | rfl := hroles.1 hr
      · exact hqa ▸ h.agent r hr ha hi
      · cases hi
    · obtain ⟨hr, -⟩ | rfl := hroles.1 hr
      · exact h.peer r hr ha hi
      · exact hP rfl
    · exact keep (h.current s' (hqa ▸ hs')) rfl
    · exact keep (h.flows f (hqf ▸ hf) s' i he) rfl
  | true =>
    simp only [if_true]
    split
    · rename_i hn
      have none_agent : ∀ r ∈ p.roles, r.authenticated = true → r.isAgent = true → False :=
        fun r hr ha hi => by
          have := (h.agent r hr ha hi).1
          rw [← hqa, hn] at this
          cases this
      refine ⟨hqn ▸ hfresh, fun r hr ha hi => ?_, fun r hr ha hi => ?_, fun s' hs' => ?_,
        fun f hf s' i he => ?_⟩
      · obtain ⟨hr, -⟩ | rfl := hroles.1 hr
        · exact (none_agent r hr ha hi).elim
        · exact ⟨rfl, hA rfl⟩
      · obtain ⟨hr, -⟩ | rfl := hroles.1 hr
        · exact h.peer r hr ha hi
        · cases hi
      · cases hs'
        exact hroles.2 (.inr rfl)
      · exact keep (h.flows f (hqf ▸ hf) s' i he) rfl
    · rename_i old ho
      rw [hqa] at ho
      have hold := h.current old ho
      have hne : old ≠ s := other _ hold rfl
      rw [if_neg hne]
      unfold tmUdpSessionClose
      split
      · rename_i hg
        obtain ⟨y, hy, hyr⟩ := mem_map.1 (keep hold rfl)
        exact absurd (congrArg Role.ref hyr) (get_none.1 hg y hy)
      refine ⟨hqn ▸ hfresh.del, fun r hr ha hi => ?_, fun r hr ha hi => ?_, fun s' hs' => ?_,
        fun f hf s' i he => ?_⟩
      · obtain ⟨hr, hro⟩ := mem_roles_del.1 hr
        obtain ⟨hr, -⟩ | rfl := hroles.1 hr
        · exact absurd (some.inj ((h.agent r hr ha hi).1.symm.trans ho)) hro
        · exact ⟨rfl, hA rfl⟩
      · obtain ⟨hr, hro⟩ := mem_roles_del.1 hr
        obtain ⟨hr, -⟩ | rfl := hroles.1 hr
        · exact h.peer r hr ha hi
        · cases hi
      · cases hs'
        exact mem_roles_del.2 ⟨hroles.2 (.inr rfl), Ne.symm hne⟩
      · obtain ⟨hf, -⟩ := mem_filter.1 hf
        have hm := h.flows f (hqf ▸ hf) s' i he
        refine mem_roles_del.2 ⟨keep hm rfl, fun hs => ?_⟩
        have := h.role_eq hm hold hs
        simp at this

end

end Rightful

/-! ## One call -/

def answer (flag : UInt8) : Queued := { env := tmEnvEncode 0 flag [], reply := none }

def Call.Runs (cfg : BrokerCfg) (digest : Bytes → Digest) (c : Call) (f : Env → Plane) : Prop :=
  (∃ k, c.after cfg digest = { c.plane with ctr := k }) ∨
    ∃ e, tmEnvDecode c.data = some e ∧ c.after cfg digest = f e

inductive Call.Does (cfg : BrokerCfg) (digest : Bytes → Digest) (c : Call) : Prop
  | gone : c.after cfg digest = c.plane → Does cfg digest c
  | unheard {x : Session} {k : Counters} : get c.session c.plane.sessions = some x →
      x.authenticated = false → c.after cfg digest = { c.plane with ctr := k } → Does cfg digest c
  | refused {x : Session} {k : Counters} : get c.session c.plane.sessions = some x →
      x.authenticated = false →
      c.after cfg digest =
        sessionQueue cfg c.session (answer tmEnvFlagAuthErr) c.ans { c.plane with ctr := k } →
      Does cfg digest c
  | accepted {x : Session} (isAgent : Bool) : get c.session c.plane.sessions = some x →
      x.authenticated = false → (isAgent = true → c.AuthAgent digest) →
      (isAgent = false → c.AuthPeer digest) →
      c.after cfg digest = sessionQueue cfg c.session (answer tmEnvFlagAuthOk) c.ans
        (authAccept c.session isAgent c.plane) → Does cfg digest c
  | agent {x : Session} : get c.session c.plane.sessions = some x →
      x.authenticated = true → x.isAgent = true →
      Relays (fun y => ∃ f ∈ c.plane.flows, ∃ i, f.ep = .peer y i) True (fun _ => False)
        c.plane (c.after cfg digest) →
      c.Runs cfg digest (agentSessionEnv cfg · c.ans c.plane) → Does cfg digest c
  | peer {x : Session} : get c.session c.plane.sessions = some x →
      x.authenticated = true → x.isAgent = false →
      Relays (c.plane.agentSession = some ·) False (fun ep => ∃ i, ep = .peer c.session i)
        c.plane (c.after cfg digest) →
      c.Runs cfg digest (peerSessionEnv cfg x · c.ans c.plane) → Does cfg digest c

section Calls

variable {cfg : BrokerCfg} {digest : Bytes → Digest} {p p' : Plane} {s : Ref} {a : PumpAns}
  {A P : Ref → Prop}

variable (cfg digest) in
lemma Call.does (c : Call) (hn : (c.plane.sessions.map Keyed.key).Nodup) : c.Does cfg digest := by
  generalize hafter : c.after cfg digest = q
  have h := hafter
  unfold Call.after sessionAppdata at h
  split at h
  · exact .gone (hafter.trans h.symm)
  rename_i x hx
  have hxs : x.ref = c.session := key_of_get hx
  split at h
  · rename_i hu
    simp only [not_eq_true'] at hu
    split at h
    · exact .unheard hx hu (hafter.trans h.symm)
    rename_i e he
    dsimp only at h
    split at h
    · exact .refused hx hu (hafter.trans h.symm)
    · rename_i hok
      refine .accepted _ hx hu (fun hA => ⟨e, he, (tmCtEqHex_toHex _ _).1 hA⟩) (fun hA => ?_)
        (hafter.trans h.symm)
      rw [hA] at hok
      simp only [Bool.not_false, Bool.true_and, not_eq_true', not_eq_false, and_eq_true] at hok
      exact ⟨e, he, hok.1.1, (tmCtEqHex_toHex _ _).1 hok.2⟩
  rename_i hu
  simp only [not_eq_true', not_eq_false] at hu
  have idle : ∀ k : Counters, c.after cfg digest = { c.plane with ctr := k } →
      c.Does cfg digest := by
    intro k hk
    cases hi : x.isAgent with
    | false => exact .peer hx hu hi (hk ▸ .ctr k) (.inl ⟨k, hk⟩)
    | true => exact .agent hx hu hi (hk ▸ .ctr k) (.inl ⟨k, hk⟩)
  split at h
  · exact idle _ (hafter.trans h.symm)
  split at h
  · exact idle _ (hafter.trans h.symm)
  rename_i e he
  rw [← h] at hafter
  split at hafter
  · rename_i hi
    exact .agent hx hu hi (hafter ▸ .agentSessionEnv hn _) (.inr ⟨e, he, hafter⟩)
  · rename_i hi
    exact .peer hx hu (by simpa using hi) (hafter ▸ .peerSessionEnv hn ⟨_, by rw [hxs]⟩)
      (.inr ⟨e, he, hafter⟩)

lemma Rightful.ctr (h : Rightful A P p) (k : Counters) : Rightful A P { p with ctr := k } :=
  h.relays (.ctr k : Relays (fun _ => False) False (fun _ => False) p _) nofun

lemma Rightful.sessionQueue (h : Rightful A P p) (s : Ref) (q : Queued) (a : PumpAns) :
    Rightful A P (sessionQueue cfg s q a p) :=
  h.relays (.sessionQueue h.fresh.nodup trivial q :
    Relays (fun _ => True) False (fun _ => False) p _) nofun

def Said (K : Call → Prop) (cs : List Call) (s : Ref) : Prop := ∃ c ∈ cs, c.session = s ∧ K c

variable {c : Call} {reads : List (Bytes × PumpAns)}

lemma Rightful.call (h : Rightful A P c.plane) :
    Rightful (fun s => A s ∨ c.session = s ∧ c.AuthAgent digest)
      (fun s => P s ∨ c.session = s ∧ c.AuthPeer digest) (c.after cfg digest) := by
  have h' : Rightful (fun s => A s ∨ c.session = s ∧ c.AuthAgent digest)
      (fun s => P s ∨ c.session = s ∧ c.AuthPeer digest) c.plane :=
    h.mono (fun _ => .inl) fun _ => .inl
  cases c.does cfg digest h.fresh.nodup with
  | gone he => exact he ▸ h'
  | unheard _ _ he => exact he ▸ h'.ctr _
  | refused _ _ he => exact he ▸ (h'.ctr _).sessionQueue _ _ _
  | accepted isAgent hx hu hA hP he =>
    rw [he]
    exact (h'.authAccept hx hu (fun hi => .inr ⟨rfl, hA hi⟩) fun hi =>
      .inr ⟨rfl, hP hi⟩).sessionQueue _ _ _
  | agent _ _ _ hr => exact h'.relays hr nofun
  | peer hx hu hi hr _ =>
    refine h'.relays hr fun s i ⟨j, he⟩ => ?_
    obtain ⟨rfl, -⟩ := Endpoint.peer.inj he
    refine mem_map.2 ⟨_, mem_of_get hx, ?_⟩
    rw [Session.role, hu, hi, show Session.ref _ = _ from key_of_get hx]

/-! ## The calls of an event -/

inductive Drained (cfg : BrokerCfg) (digest : Bytes → Digest) (p : Plane) :
    List Call → Plane → Prop
  | nil : Drained cfg digest p [] p
  | call {cs : List Call} {c : Call} : Drained cfg digest p cs c.plane →
      Drained cfg digest p (c :: cs) (c.after cfg digest)

variable {cs : List Call} {k : Creds} {l : Label} {hs : HsAns} {p₁ : Plane}
variable {eps : Endpoint → Prop} {fed : Ref → Prop} {raw : Prop}

lemma Drained.first (h : Drained cfg digest (c.after cfg digest) cs p') :
    Drained cfg digest c.plane (cs ++ [c]) p' := by
  induction h with
  | nil => exact .call .nil
  | call _ ih => exact .call ih

lemma drained_drainSsl (k : Creds) (s : Ref) (reads : List (Bytes × PumpAns)) (p : Plane) :
    Drained cfg digest p (drainCalls cfg digest k s reads p) (drainSsl cfg digest k s reads p) := by
  induction reads generalizing p with
  | nil => exact .nil
  | cons r reads ih => exact .first (c := ⟨p, k, s, r.1, r.2⟩) (ih _)

lemma mem_drainCalls (h : c ∈ drainCalls cfg digest k s reads p) :
    c.creds = k ∧ c.session = s ∧ c.plane.now = p.now ∧ ∃ r ∈ reads, r.1 = c.data := by
  induction reads generalizing p with
  | nil => simp [drainCalls] at h
  | cons r reads ih =>
    rcases mem_append.1 h with h | h
    · have hm : Turns cfg p .stop (some s) p (sessionAppdata cfg digest k s r.1 r.2 p) :=
        turns_sessionAppdata k r.1 rfl
      obtain ⟨hk, hs, hn, r', hr, hd⟩ := ih h
      exact ⟨hk, hs, hn.trans hm.now, r', mem_cons_of_mem _ hr, hd⟩
    · rw [mem_singleton.1 h]
      exact ⟨rfl, rfl, rfl, r, mem_cons_self, rfl⟩

/-- The calls of an event are those of the drain that its packet starts. -/
lemma mem_callsOf (h : c ∈ callsOf cfg digest p l) :
    ∃ addr data hs reads a d, l.ev = .packet addr data hs reads a ∧
      drainStart cfg l.creds addr data hs { p with now := l.now, loop := l.loop } = some d ∧
      c ∈ drainCalls cfg digest l.creds d.1 reads d.2 := by
  unfold callsOf at h
  split at h
  · rename_i addr data hs reads a hev
    cases hd : drainStart cfg l.creds addr data hs { p with now := l.now, loop := l.loop } with
    | none => simp [hd] at h
    | some d =>
      rw [hd] at h
      exact ⟨addr, data, hs, reads, a, d, hev, hd, h⟩
  · cases h

lemma creds_of_callsOf (h : c ∈ callsOf cfg digest p l) : c.creds = l.creds := by
  obtain ⟨_, _, _, _, _, _, _, _, hc⟩ := mem_callsOf h
  exact (mem_drainCalls hc).1

lemma Drained.inv {I : List Call → Plane → Prop} {ds : List Call}
    (hI : ∀ cs, ∀ c ∈ ds, I cs c.plane → I (c :: cs) (c.after cfg digest))
    (h : Drained cfg digest p ds p') (h0 : I cs p) : I (ds ++ cs) p' := by
  induction h with
  | nil => exact h0
  | call _ ih =>
    exact hI _ _ mem_cons_self (ih fun cs c hc => hI cs c (mem_cons_of_mem _ hc))

structure Wins (p p' : Plane) : Prop where
  next : p.nextRef ≤ p'.nextRef
  win : ∀ x' ∈ p'.sessions, (∃ x ∈ p.sessions, x.ref = x'.ref ∧ x'.pktWin = x.pktWin) ∨
    p.nextRef ≤ x'.ref ∧ x'.pktWin = {}

namespace Wins

variable {p'' : Plane}

lemma trans (h : Wins p p') (h' : Wins p' p'') : Wins p p'' where
  next := h.next.trans h'.next
  win x'' hx'' := by
    obtain ⟨x', hx', hr', hw'⟩ | ⟨hn, hw⟩ := h'.win x'' hx''
    · rw [← hr', hw']
      exact h.win x' hx'
    · exact .inr ⟨h.next.trans hn, hw⟩

lemma of_same (hn : p.nextRef ≤ p'.nextRef) (hs : p'.sessions = p.sessions) : Wins p p' :=
  ⟨hn, fun x hx => .inl ⟨x, hs ▸ hx, rfl, rfl⟩⟩

lemma refl : Wins p p := .of_same le_rfl rfl

lemma upd (hf : ∀ x ∈ p.sessions, x.ref = s →
    ∃ y ∈ p.sessions, y.ref = (f x).ref ∧ (f x).pktWin = y.pktWin) : Wins p (p.upd s f) :=
  ⟨le_rfl, forall_upd (fun x hx _ => .inl ⟨x, hx, rfl, rfl⟩) fun x hx he => .inl (hf x hx he)⟩

lemma udpSendRaw : Wins p (udpSendRaw cfg o dst body send p) := by
  unfold Udp.udpSendRaw
  split_ifs <;> exact .of_same le_rfl rfl

lemma pumpOut : Wins p (pumpOut cfg s a p) := by
  have hp : ∀ l, Wins p { p with pumps := l } := fun l => .of_same le_rfl rfl
  refine pumpOut_rule refl hp (fun x hx _ y l hy => ?_) fun _ _ _ _ _ _ hu _ => hu.trans .udpSendRaw
  obtain ⟨v, -, -⟩ := hy
  exact (hp l).trans (.upd fun _ _ _ => ⟨x, hx, rfl, rfl⟩)

lemma sessionQueue (q : Queued) : Wins p (sessionQueue cfg s q a p) := by
  refine sessionQueue_rule refl (fun _ => .of_same le_rfl rfl) (.trans ?_ pumpOut)
  exact .upd fun x hx _ => ⟨x, hx, rfl, rfl⟩

lemma close (s : Ref) : Wins p (tmUdpSessionClose s p) := by
  unfold tmUdpSessionClose
  split
  · exact refl
  · exact ⟨le_rfl, fun x hx => .inl ⟨x, (mem_del.1 hx).1, rfl, rfl⟩⟩

end Wins

structure Silent (p p' : Plane) : Prop extends Idle p p', Wins p p' where
  keeps : ∀ A P, Rightful A P p → Rightful A P p'

namespace Silent

variable {p'' : Plane}

lemma trans (h : Silent p p') (h' : Silent p' p'') : Silent p p'' :=
  { h.toIdle.trans h'.toIdle, h.toWins.trans h'.toWins with
    keeps := fun A P hp => h'.keeps A P (h.keeps A P hp) }

lemma of_same (hn : p.nextRef ≤ p'.nextRef) (hs : p'.sessions = p.sessions)
    (ha : p'.agentSession = p.agentSession) (ho : p'.sent = p.sent)
    (hg : p'.assigned = p.assigned) (hf : p'.flows ⊆ p.flows) : Silent p p' :=
  { Idle.of_same hs ho hg, Wins.of_same hn hs with
    keeps := fun _ _ h => h.relays (.of_same hn hs ha ho fun f hm => .inl ⟨f, hf hm, rfl⟩ :
      Relays (fun _ => False) False (fun _ => False) p p') nofun }

lemma refl : Silent p p := .of_same le_rfl rfl rfl rfl rfl (.refl _)

lemma upd (hr : ∀ x, (f x).role = x.role)
    (hq : ∀ x, (f x).outq = x.outq) (hb : ∀ x q, some q ∈ (f x).wbio → some q ∈ x.wbio)
    (hw : ∀ x, (f x).pktWin = x.pktWin) : Silent p (p.upd s f) :=
  { Idle.flags (fun x => congrArg Role.ref (hr x)) hq hb,
    Wins.upd fun x hx _ => ⟨x, hx, (congrArg Role.ref (hr x)).symm, hw x⟩ with
    keeps := fun _ _ h => h.relays (.upd (fun x _ _ => hr x) (fun h => absurd trivial h) :
      Relays (fun _ => True) False (fun _ => False) p _) nofun }

lemma addRecs (recs : ℕ) : Silent p (addRecs s recs p) := by
  refine .upd (fun _ => rfl) (fun _ => rfl) (fun x q hm => ?_) fun _ => rfl
  simpa [mem_replicate] using hm

lemma pumpOut : Silent p (pumpOut cfg s a p) :=
  { Idle.pumpOut, Wins.pumpOut with
    keeps := fun _ _ h => h.relays (.pumpOut h.fresh.nodup trivial :
      Relays (fun _ => True) False (fun _ => False) p _) nofun }

lemma create (addr : Addr) : Silent p (sessionCreate addr p) where
  queue := forall_mem_cons.2 ⟨.inl rfl, fun x hx => .inr ⟨x, hx, rfl, suffix_refl _⟩⟩
  wbio := forall_mem_cons.2 ⟨nofun, fun x hx _ hq => ⟨x, hx, rfl, .inr hq⟩⟩
  sent := ⟨[], rfl, nofun⟩
  assigned := rfl
  next := Nat.le_succ _
  win := forall_mem_cons.2 ⟨.inr ⟨le_rfl, rfl⟩, fun x hx => .inl ⟨x, hx, rfl, rfl⟩⟩
  keeps _ _ h := h.create addr

lemma close (s : Ref) : Silent p (tmUdpSessionClose s p) where
  toIdle := .close s
  toWins := .close s
  keeps _ _ h := h.close s

lemma stop : Silent p (tmUdpStop p) where
  toIdle := .of_subset (nil_subset _) rfl rfl
  next := le_rfl
  win := by simp [tmUdpStop]
  keeps _ _ h := h.stop

lemma sessionTimer (recs : ℕ) : Silent p (sessionTimer cfg s recs a p) := by
  unfold Udp.sessionTimer
  split
  · exact refl
  split_ifs
  · exact close _
  · exact refl
  · exact (addRecs recs).trans pumpOut

lemma closing (l : List Closing) : Silent p { p with closing := l } :=
  .of_same le_rfl rfl rfl rfl rfl (.refl _)

lemma sessionMaybeFree : Silent p (sessionMaybeFree s p) := by
  rw [sessionMaybeFree_eq]
  exact closing _

lemma sendDone : Silent p (sendDone cfg o a p) := by
  have hp : Silent p
      { p with pending := p.pending.erase o, udpRawInflight := p.udpRawInflight - 1 } :=
    .of_same le_rfl rfl rfl rfl rfl (.refl _)
  unfold Udp.sendDone
  cases o with
  | none => exact hp
  | some =>
    dsimp only
    split_ifs
    · exact .trans (hp.trans (closing _)) sessionMaybeFree
    · refine .trans (hp.trans ?_) pumpOut
      exact upd (fun _ => rfl) (fun _ => rfl) (fun _ _ => id) fun _ => rfl

end Silent

/-! ## Events -/

lemma silent_pumpInStart (h : pumpInStart s hs p = some p₁) : Silent p p₁ := by
  unfold pumpInStart at h
  split at h
  · cases h
  split_ifs at h
  · cases h
    exact .refl
  cases hs with
  | done recs =>
    cases h
    refine (Silent.addRecs (s := s) recs).trans ?_
    exact .upd (fun _ => rfl) (fun _ => rfl) (fun _ _ => id) fun _ => rfl
  | want | failed => cases h

lemma pumpIn_some (h : pumpInStart s hs p = some p₁) :
    pumpIn cfg digest k s hs reads a p = pumpOut cfg s a (drainSsl cfg digest k s reads p₁) := by
  cases hx : get s p.sessions with
  | none => simp [pumpInStart, hx] at h
  | some =>
  simp only [pumpInStart, hx] at h
  simp only [pumpIn, hx]
  split_ifs at h with hd
  · cases h
    rw [if_pos hd]
  rw [if_neg hd]
  cases hs with
  | done =>
    cases h
    rfl
  | want => cases h
  | failed => cases h

lemma pumpIn_none
    (h : pumpInStart s hs p = none) : Silent p (pumpIn cfg digest k s hs reads a p) := by
  cases hx : get s p.sessions with
  | none =>
    simp only [pumpIn, hx]
    exact .refl
  | some =>
  simp only [pumpInStart, hx] at h
  simp only [pumpIn, hx]
  split_ifs at h with hd
  rw [if_neg hd]
  cases hs with
  | done recs => cases h
  | want recs => exact (Silent.addRecs recs).trans .pumpOut
  | failed recs => exact .addRecs recs

lemma step_cases (h : step cfg digest p l = some p') :
    (∃ p₁ p₂, Silent p p₁ ∧ Drained cfg digest p₁ (callsOf cfg digest p l) p₂ ∧ Silent p₂ p') ∨
      l.creds.closed = false ∧ callsOf cfg digest p l = [] ∧ ∃ addr data a,
          p' = openClientDatagram cfg addr data a { p with now := l.now, loop := l.loop } := by
  unfold step at h
  split_ifs at h with ht
  have hp : Silent p { p with now := l.now, loop := l.loop } :=
    .of_same le_rfl rfl rfl rfl rfl (.refl _)
  -- an event without a call
  have idle : ∀ q, callsOf cfg digest p l = [] → Silent { p with now := l.now, loop := l.loop } q →
      ∃ p₁ p₂, Silent p p₁ ∧ Drained cfg digest p₁ (callsOf cfg digest p l) p₂ ∧ Silent p₂ q :=
    fun q hc hq => ⟨p, p, .refl, hc ▸ .nil, hp.trans hq⟩
  unfold callsOf at idle ⊢
  generalize { p with now := l.now, loop := l.loop } = q at h hp idle ⊢
  cases hev : l.ev with
  | packet addr data hs reads a =>
    simp only [hev, handle] at h idle ⊢
    cases h
    have run : ∀ {s : Ref} {q₁ : Plane}, Silent q q₁ →
        ((pumpInStart s hs q₁).map (s, ·) = drainStart cfg l.creds addr data hs q) →
        ∃ p₁ p₂, Silent p p₁ ∧ Drained cfg digest p₁ (((drainStart cfg l.creds addr data hs q).map
          fun d => drainCalls cfg digest l.creds d.1 reads d.2).getD []) p₂ ∧
          Silent p₂ (pumpIn cfg digest l.creds s hs reads a q₁) := by
      intro s q₁ hq hd
      cases hq₁ : pumpInStart s hs q₁ with
      | none =>
        rw [hq₁, map_none] at hd
        rw [← hd] at idle ⊢
        exact idle _ rfl (hq.trans (pumpIn_none hq₁))
      | some p₁ =>
        rw [hq₁, map_some] at hd
        rw [← hd, pumpIn_some hq₁]
        exact ⟨p₁, _, hp.trans (hq.trans (silent_pumpInStart hq₁)), drained_drainSsl _ _ _ _,
          .pumpOut⟩
    unfold onUdpPacket
    split_ifs with hc hl
    · refine .inl (idle _ ?_ (.of_same le_rfl rfl rfl rfl rfl (.refl _)))
      rw [drainStart, if_pos hc]
      rfl
    · simp only [and_eq_true, not_eq_true'] at hc
      refine .inr ⟨hc.1, ?_, addr, data, a, rfl⟩
      rw [drainStart, if_pos (by simp [hc])]
      rfl
    refine .inl ?_
    split
    · rename_i x hx
      refine run (.upd (fun _ => rfl) (fun _ => rfl) (fun _ _ => id) fun _ => rfl) ?_
      rw [drainStart, if_neg hc, hx]
    · rename_i hx
      dsimp only
      split_ifs with hr
      · refine idle _ ?_ (.of_same le_rfl rfl rfl rfl rfl (.refl _))
        simp only [drainStart, if_neg hc, hx, if_pos hr]
        rfl
      · refine run (.trans ?_ (.create addr)) ?_
        · exact .of_same le_rfl rfl rfl rfl rfl (.refl _)
        simp only [drainStart, if_neg hc, hx, if_neg hr]
  | sendDone =>
    simp only [hev, handle] at h idle ⊢
    split_ifs at h
    cases h
    exact .inl (idle _ trivial .sendDone)
  | sessionTimer s recs =>
    simp only [hev, handle] at h idle ⊢
    cases h
    exact .inl (idle _ trivial (.sessionTimer recs))
  | timerClosed =>
    simp only [hev, handle] at h idle ⊢
    split_ifs at h
    cases h
    exact .inl (idle _ trivial (.trans (.closing _) .sessionMaybeFree))
  | flowIdle =>
    rw [hev] at h idle
    rw [← handle_flowIdle h]
    exact .inl (idle _ rfl (.of_same le_rfl rfl rfl rfl rfl fun _ hm => (mem_del.1 hm).1))
  | stop =>
    simp only [hev, handle] at h idle ⊢
    cases h
    exact .inl (idle _ trivial .stop)

/-! ## Runs -/

def Call.Emits (cfg : BrokerCfg) (digest : Bytes → Digest) (c : Call) (o : Out) : Prop :=
  ∃ new, (c.after cfg digest).sent = new ++ c.plane.sent ∧ o ∈ new

/-- The call changes the queue, the BIO or the send flag of the session `y`, or sends its peer a
datagram. -/
def Call.Gives (cfg : BrokerCfg) (digest : Bytes → Digest) (c : Call) (y : Ref) : Prop :=
  (∃ x ∈ c.plane.sessions, x.ref = y ∧ ∃ x' ∈ (c.after cfg digest).sessions, x'.ref = y ∧
    x'.link ≠ x.link) ∨ ∃ o, c.Emits cfg digest o ∧ o.session = some y

/-- What a call may give: its session meets `P` to give something to the agent, and to give
something to a client or to another session it is the current agent session and meets `A`. -/
structure Call.Sound (cfg : BrokerCfg) (digest : Bytes → Digest) (c : Call) (A P : Ref → Prop) :
    Prop where
  toAgent : ∀ y, c.plane.agentSession = some y → c.Gives cfg digest y → P c.session
  toPeer : ∀ y, c.Gives cfg digest y → y ≠ c.session → c.plane.agentSession ≠ some y →
    c.plane.agentSession = some c.session ∧ A c.session
  toClient : ∀ o, c.Emits cfg digest o → o.session = none →
    c.plane.agentSession = some c.session ∧ A c.session
  /-- The session itself gets answers to its AUTH envelopes. -/
  toSelf : c.Gives cfg digest c.session → ∃ flag p₁, (flag = tmEnvFlagAuthOk ∨
      flag = tmEnvFlagAuthErr) ∧
    c.after cfg digest = sessionQueue cfg c.session (answer flag) c.ans p₁ ∧
    p₁.sent = c.plane.sent ∧
    ∀ x₁ ∈ p₁.sessions, ∃ x ∈ c.plane.sessions, x.ref = x₁.ref ∧ x₁.link = x.link

section

variable (h : Relays fed raw eps p (c.after cfg digest))
include h

lemma Relays.emits {o : Out} (hp : p.sent = c.plane.sent) (he : c.Emits cfg digest o) :
    (o.session = none → raw) ∧ ∀ y, o.session = some y → fed y := by
  obtain ⟨new, hn, hm⟩ := he
  obtain ⟨new', hn', hr⟩ := h.sent
  rw [hp] at hn'
  rw [append_cancel_right (hn.symm.trans hn')] at hm
  exact hr o hm

lemma Relays.gives {y : Ref}
    (hn : (c.plane.sessions.map Keyed.key).Nodup) (hs : p.sent = c.plane.sent)
    (hp : ∀ x₁ ∈ p.sessions, ∃ x ∈ c.plane.sessions, x.ref = x₁.ref ∧ x₁.link = x.link)
    (hg : c.Gives cfg digest y) : fed y := by
  obtain ⟨x, hx, rfl, x', hx', hr, hl⟩ | ⟨o, he, ho⟩ := hg
  · by_contra hf
    obtain ⟨x₁, hx₁, hr₁, hl₁⟩ := h.link x' hx' (hr ▸ hf)
    obtain ⟨x₀, hx₀, hr₀, hl₀⟩ := hp x₁ hx₁
    rw [eq_of_key hn hx hx₀ (hr.symm.trans (hr₁.symm.trans hr₀.symm))] at hl
    exact hl (hl₁.trans hl₀)
  · exact (h.emits hs he).2 y ho

end

lemma authAccept_link : (authAccept s isAgent p).sent = p.sent ∧
    ∀ x₁ ∈ (authAccept s isAgent p).sessions,
      ∃ x ∈ p.sessions, x.ref = x₁.ref ∧ x₁.link = x.link := by
  have hu : ∀ x₁ ∈ (p.upd s fun x =>
      { x with authenticated := true, isAgent := isAgent }).sessions,
      ∃ x ∈ p.sessions, x.ref = x₁.ref ∧ x₁.link = x.link :=
    forall_upd (fun x hx _ => ⟨x, hx, rfl, rfl⟩) fun x hx _ => ⟨x, hx, rfl, rfl⟩
  unfold authAccept tmUdpSessionClose
  dsimp only
  split_ifs
  · split
    · exact ⟨rfl, hu⟩
    · split_ifs
      · exact ⟨rfl, hu⟩
      · split
        · exact ⟨rfl, hu⟩
        · exact ⟨rfl, fun x hx => hu x (mem_del.1 hx).1⟩
  · exact ⟨rfl, hu⟩

lemma Call.sound (h : Rightful A P c.plane) : c.Sound cfg digest A P := by
  have hn := h.fresh.nodup
  have same : ∀ x₁ ∈ c.plane.sessions, ∃ x ∈ c.plane.sessions, x.ref = x₁.ref ∧ x₁.link = x.link :=
    fun x hx => ⟨x, hx, rfl, rfl⟩
  have role : ∀ {x : Session} {r : Role}, get c.session c.plane.sessions = some x →
      r ∈ c.plane.roles → r.ref = c.session → r = x.role := fun hx hr he =>
    h.role_eq hr (mem_map_of_mem (mem_of_get hx)) (he.trans (key_of_get hx).symm)
  -- a session that is not authenticated
  have new : ∀ {x : Session} {p : Plane} {flag : UInt8},
      get c.session c.plane.sessions = some x → x.authenticated = false →
      Relays (· = c.session) False (fun _ => False) p (c.after cfg digest) →
      p.sent = c.plane.sent →
      (∀ x₁ ∈ p.sessions, ∃ x ∈ c.plane.sessions, x.ref = x₁.ref ∧ x₁.link = x.link) →
      (c.Gives cfg digest c.session → (flag = tmEnvFlagAuthOk ∨ flag = tmEnvFlagAuthErr) ∧
        c.after cfg digest = sessionQueue cfg c.session (answer flag) c.ans p) →
      c.Sound cfg digest A P := by
    intro x p flag hx hu hr hs hl ha
    refine ⟨fun y hy hg => ?_, fun y hg hne _ => absurd (hr.gives hn hs hl hg) hne,
      fun o he ho => ((hr.emits hs he).1 ho).elim,
      fun hg => ⟨flag, p, (ha hg).1, (ha hg).2, hs, hl⟩⟩
    obtain rfl := hr.gives hn hs hl hg
    have := congrArg Role.authenticated (role hx (h.current _ hy) rfl)
    exact absurd (this.trans hu) (by simp)
  cases c.does cfg digest hn with
  | gone he =>
    have hr : Relays (fun _ => False) False (fun _ => False) c.plane (c.after cfg digest) :=
      he ▸ .refl
    exact ⟨fun y _ hg => (hr.gives hn rfl same hg).elim, fun y hg => (hr.gives hn rfl same hg).elim,
      fun o he ho => ((hr.emits rfl he).1 ho).elim, fun hg => (hr.gives hn rfl same hg).elim⟩
  | unheard hx hu he =>
    have hr : Relays (fun _ => False) False (fun _ => False) c.plane (c.after cfg digest) :=
      he ▸ .ctr _
    exact ⟨fun y _ hg => (hr.gives hn rfl same hg).elim, fun y hg => (hr.gives hn rfl same hg).elim,
      fun o he ho => ((hr.emits rfl he).1 ho).elim, fun hg => (hr.gives hn rfl same hg).elim⟩
  | refused hx hu he =>
    refine new hx hu ?_ ?_ ?_ fun _ => ⟨.inr rfl, he⟩
    · rw [he]
      refine .sessionQueue ?_ ?_ _
      · exact hn
      · rfl
    · rfl
    · exact same
  | accepted isAgent hx hu hA hP he =>
    have hall : Rightful (fun _ => True) (fun _ => True) c.plane :=
      h.mono (fun _ _ => trivial) fun _ _ => trivial
    have hacc : Rightful _ _ (authAccept c.session isAgent c.plane) :=
      hall.authAccept hx hu (fun _ => trivial) fun _ => trivial
    refine new hx hu ?_ authAccept_link.1 authAccept_link.2 fun _ => ⟨.inl rfl, he⟩
    rw [he]
    refine .sessionQueue hacc.fresh.nodup ?_ _
    rfl
  | agent hx hu hi hr =>
    have hright := h.agent _ (mem_map_of_mem (mem_of_get hx)) hu hi
    rw [show (Session.role _).ref = _ from key_of_get hx] at hright
    refine ⟨fun y hy hg => ?_, fun _ _ _ _ => hright, fun _ _ _ => hright, fun hg => ?_⟩
    · obtain ⟨f, hf, i, he⟩ := hr.gives hn rfl same hg
      have := h.role_eq (h.flows f hf y i he) (h.current y hy) rfl
      simp at this
    · obtain ⟨f, hf, i, he⟩ := hr.gives hn rfl same hg
      have := congrArg Role.isAgent (role hx (h.flows f hf _ i he) rfl)
      exact absurd (this.trans hi) (by simp)
  | peer hx hu hi hr _ =>
    have hright := h.peer _ (mem_map_of_mem (mem_of_get hx)) hu hi
    rw [show (Session.role _).ref = _ from key_of_get hx] at hright
    refine ⟨fun _ _ _ => hright, fun y hg _ hy => absurd (hr.gives hn rfl same hg) hy,
      fun o he ho => ((hr.emits rfl he).1 ho).elim, fun hg => ?_⟩
    have := congrArg Role.isAgent (role hx (h.current _ (hr.gives hn rfl same hg)) rfl)
    exact absurd (this.trans hi) (by simp)

def RunOk (cfg : BrokerCfg) (digest : Bytes → Digest) (A P : Ref → Prop) (cs : List Call)
    (p : Plane) : Prop :=
  Rightful (fun s => A s ∨ Said (·.AuthAgent digest) cs s)
    (fun s => P s ∨ Said (·.AuthPeer digest) cs s) p ∧
  ∀ c cs', c :: cs' <:+ cs → c.Sound cfg digest (fun s => A s ∨ Said (·.AuthAgent digest) cs' s)
    fun s => P s ∨ Said (·.AuthPeer digest) cs' s

lemma RunOk.start (h : Rightful A P p) : RunOk cfg digest A P [] p :=
  ⟨h.mono (fun _ => .inl) fun _ => .inl, fun c cs hc => by simp at hc⟩

lemma RunOk.call (h : RunOk cfg digest A P cs c.plane) :
    RunOk cfg digest A P (c :: cs) (c.after cfg digest) := by
  have cons : ∀ {B : Ref → Prop} {K : Call → Prop} (s : Ref),
      (B s ∨ Said K cs s) ∨ c.session = s ∧ K c → B s ∨ Said K (c :: cs) s := by
    rintro B K s ((hb | ⟨c', hc', hs, hk⟩) | ⟨hs, hk⟩)
    · exact .inl hb
    · exact .inr ⟨c', mem_cons_of_mem _ hc', hs, hk⟩
    · exact .inr ⟨c, mem_cons_self, hs, hk⟩
  refine ⟨h.1.call.mono cons cons, fun c' cs' hc' => ?_⟩
  obtain he | hc' := suffix_cons_iff.1 hc'
  · obtain ⟨rfl, rfl⟩ := List.cons.inj he
    exact Call.sound h.1
  · exact h.2 c' cs' hc'

lemma Relays.ofClient {data : Bytes} {now loop : ℕ} (hn : (p.sessions.map Keyed.key).Nodup) :
    Relays (p.agentSession = some ·) False (fun ep => ∃ addr, ep = .client addr) p
      (Udp.openClientDatagram cfg addr data a { p with now := now, loop := loop }) := by
  refine .trans ?_ (.openClientDatagram (p := { p with now := now, loop := loop }) hn ?_ data)
  · exact .of_same le_rfl rfl rfl rfl fun f hf => .inl ⟨f, hf, rfl⟩
  · exact ⟨addr, rfl⟩

lemma RunOk.step (h : RunOk cfg digest A P cs p) (hs : step cfg digest p l = some p') :
    RunOk cfg digest A P (callsOf cfg digest p l ++ cs) p' := by
  obtain ⟨p₁, p₂, h₁, hd, h₂⟩ | ⟨-, hc, addr, data, a, rfl⟩ := step_cases hs
  · have hok : RunOk cfg digest A P cs p₁ := ⟨h₁.keeps _ _ h.1, h.2⟩
    have hok₂ := hd.inv (fun _ _ _ h => h.call) hok
    exact ⟨h₂.keeps _ _ hok₂.1, hok₂.2⟩
  · rw [hc]
    exact ⟨h.1.relays (.ofClient h.1.fresh.nodup) fun s i ⟨_, he⟩ => (nomatch he), h.2⟩

lemma RunOk.of_trace {tr : List (Plane × Label)} (h : Trace (Udp.step cfg digest) Init tr p) :
    RunOk cfg digest (fun _ => False) (fun _ => False) (calls cfg digest tr) p :=
  h.inv_hist (I := fun tr p => RunOk cfg digest (fun _ => False) (fun _ => False)
    (calls cfg digest tr) p) (fun p hi => by subst hi; exact .start .init)
    fun _ _ _ _ _ h hs => h.step hs

/-- In every run only a session that has presented the shared token gives the agent something, and
only the current agent session, which has presented the agent's secret, gives something to a client
or to another session. -/
theorem relay_needs_auth {tr : List (Plane × Label)} (h : Trace (step cfg digest) Init tr p) :
    (∀ c cs, c :: cs <:+ calls cfg digest tr →
      c.Sound cfg digest (Said (·.AuthAgent digest) cs) (Said (·.AuthPeer digest) cs)) ∧
    ∀ l p', step cfg digest p l = some p' →
      (∃ p₁ p₂, Idle p p₁ ∧ Drained cfg digest p₁ (callsOf cfg digest p l) p₂ ∧ Idle p₂ p') ∨
      l.creds.closed = false ∧ callsOf cfg digest p l = [] ∧
        Relays (p.agentSession = some ·) False (fun ep => ∃ addr, ep = .client addr) p p' := by
  have hok := RunOk.of_trace h
  refine ⟨fun c cs hc => by simpa only [false_or] using hok.2 c cs hc, fun l p' hs => ?_⟩
  obtain ⟨p₁, p₂, h₁, hd, h₂⟩ | ⟨hc, hcs, addr, data, a, rfl⟩ := step_cases hs
  · exact .inl ⟨p₁, p₂, h₁.toIdle, hd, h₂.toIdle⟩
  · exact .inr ⟨hc, hcs, .ofClient hok.1.fresh.nodup⟩

end Calls

def headDigest (s : Bytes) : Digest := .replicate 32 (s.headD 0)

def closedCreds : Creds :=
  { closed := true, agentSecretHmac := toHex (headDigest [1]).toList,
    sharedTokenHmac := toHex (headDigest [2]).toList }

def recordFrom (host : UInt8) (env : Bytes) : Label :=
  { now := 0, loop := 0, creds := closedCreds,
    ev := .packet { family := .inet, ip := [10, 0, 0, host], port := 6000 } [] (.done 0)
      [(env, { ssl := .whole, send := true })] { ssl := .want, send := true } }

theorem relay_needs_auth_peer : ∃ tr p c cs, Trace (step {} headDigest) Init tr p ∧
    calls {} headDigest tr = c :: cs ∧ c.plane.agentSession = some 0 ∧ c.session = 1 ∧
    c.Gives {} headDigest 0 ∧ Said (·.AuthPeer headDigest) cs 1 := by
  obtain ⟨tr, p, h, hq⟩ := exists_trace (step {} headDigest) Init rfl
    [recordFrom 1 (tmEnvEncode 0 2 [1]), recordFrom 2 (tmEnvEncode 0 2 [2]),
      recordFrom 2 (tmEnvEncode 5 0 [7])]
    (fun r => (calls {} headDigest r.1).head?.any (fun c => c.plane.agentSession = some 0 ∧
      c.session = 1 ∧ ∃ x ∈ c.plane.sessions, x.ref = 0 ∧
        ∃ x' ∈ (c.after {} headDigest).sessions, x'.ref = 0 ∧ x'.link ≠ x.link) = true) (by decide)
  obtain ⟨c, hc, hq⟩ := (any_eq_true _ _).1 hq
  obtain ⟨ha, hs, hg⟩ := of_decide_eq_true hq
  obtain ⟨cs, hcs⟩ := head?_eq_some_iff.1 hc
  have hsound := (relay_needs_auth h).1 c cs (hcs ▸ suffix_refl _)
  have hsaid := hsound.toAgent 0 ha (.inl hg)
  rw [hs] at hsaid
  exact ⟨tr, p, c, cs, h, hcs, ha, hs, .inl hg, hsaid⟩

end TunnelMate.Udp
