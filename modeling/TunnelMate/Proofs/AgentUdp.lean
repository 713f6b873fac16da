import Mathlib.Data.List.Pairwise
import TunnelMate.Proofs.ClientMoves
import TunnelMate.Proofs.UdpGate

/-!
# The agent's UDP session and the broker's

The broker closes a session of which it has heard nothing for twice the flow timeout.
-/

variable {addr : Addr} {recs : ℕ}

namespace TunnelMate

open List Option Table Udp

variable {a b : Addr} {x : Session} {l : Label} {q : Plane}

lemma tmAddrEq_iff : tmAddrEq a b = true ↔
    a.family = b.family ∧ a.family ≠ .unspec ∧ a.port = b.port ∧ a.ip = b.ip := by
  simp [tmAddrEq, and_assoc]

lemma tmAddrEq_of_common {c : Addr} (ha : tmAddrEq a c = true) (hb : tmAddrEq b c = true) :
    tmAddrEq a b = true := by
  obtain ⟨h1, h2, h3, h4⟩ := tmAddrEq_iff.1 ha
  obtain ⟨g1, -, g3, g4⟩ := tmAddrEq_iff.1 hb
  exact tmAddrEq_iff.2 ⟨h1.trans g1.symm, h2, h3.trans g3.symm, h4.trans g4.symm⟩

lemma tmAddrEq_comm : tmAddrEq a b = tmAddrEq b a := by
  rw [Bool.eq_iff_iff, tmAddrEq_iff, tmAddrEq_iff]
  constructor
  all_goals
    rintro ⟨h1, h2, h3, h4⟩
    exact ⟨h1.symm, h1 ▸ h2, h3.symm, h4.symm⟩

namespace Udp

/-! ## The sessions of a plane and their addresses -/

structure Roster where
  faces : List (Ref × Addr)
  opened : List (Ref × Addr)
  agent : Option Ref

def Plane.roster (p : Plane) : Roster :=
  ⟨p.sessions.map fun x => (x.ref, x.peer), p.opened, p.agentSession⟩

variable {cfg : BrokerCfg} {digest : Bytes → Digest} {ev : Event} {o : Option Ref}
  {p₀ p p' : Plane} {s : Ref} {a : PumpAns}

variable {f : Session → Session}

lemma roster_upd (hf : ∀ x ∈ p.sessions, x.ref = s → (f x).ref = x.ref ∧ (f x).peer = x.peer) :
    (p.upd s f).roster = p.roster := by
  have h : (upd s f p.sessions).map (fun x => (x.ref, x.peer)) =
      p.sessions.map fun x => (x.ref, x.peer) :=
    map_upd fun x hx he => by rw [(hf x hx he).1, (hf x hx he).2]
  rw [Plane.roster, Plane.roster, Plane.upd, h]

section

variable (hn : (p.sessions.map Keyed.key).Nodup)
include hn

lemma nodup_upd (hf : ∀ x, (f x).ref = x.ref) : ((p.upd s f).sessions.map Keyed.key).Nodup := by
  have h : (upd s f p.sessions).map Keyed.key = p.sessions.map Keyed.key :=
    map_upd fun x _ _ => hf x
  exact h ▸ hn

lemma roster_pumpOut : (pumpOut cfg s a p).roster = p.roster := by
  refine pumpOut_rule (I := fun q => q.roster = p.roster) rfl (fun _ => rfl)
    (fun x hx hk y l hy => ?_) fun _ _ _ y l _ hu _ => ?_
  · obtain ⟨v, -, -⟩ := hy
    refine roster_upd fun z hz he => ?_
    rw [eq_of_key hn hz hx (he.trans hk.symm)]
    exact ⟨rfl, rfl⟩
  · rw [← hu]
    unfold udpSendRaw
    split_ifs <;> rfl

lemma roster_sessionQueue {q : Queued} : (sessionQueue cfg s q a p).roster = p.roster := by
  refine sessionQueue_rule (I := fun q => q.roster = p.roster) rfl (fun _ => rfl) ?_
  refine (roster_pumpOut ?_).trans (roster_upd fun _ _ _ => ⟨rfl, rfl⟩)
  exact nodup_upd hn fun _ => rfl

lemma roster_sendDone {s : Option Ref} : (sendDone cfg s a p).roster = p.roster := by
  unfold sendDone
  dsimp only
  split
  · rfl
  split_ifs
  · rw [sessionMaybeFree_eq]
    rfl
  · refine (roster_pumpOut ?_).trans (roster_upd fun _ _ _ => ⟨rfl, rfl⟩)
    exact nodup_upd hn fun _ => rfl

end

lemma roster_close (old : Ref) : (tmUdpSessionClose old p).roster.faces =
    p.roster.faces.filter (·.1 ≠ old) ∧ (tmUdpSessionClose old p).opened = p.opened := by
  unfold tmUdpSessionClose
  split
  · rename_i hg
    refine ⟨(filter_eq_self.2 fun f hf => ?_).symm, rfl⟩
    obtain ⟨x, hx, rfl⟩ := mem_map.1 hf
    simpa using get_none.1 hg x hx
  · refine ⟨?_, rfl⟩
    simp only [Plane.roster, Table.del, List.filter_map]
    rfl

/-- What an event has done so far to the sessions of `p₀`: each is still there, or the event is the
end of the plane or of that session's silence, or the session of the datagram has become the agent's
in its place. -/
structure Stays (cfg : BrokerCfg) (p₀ : Plane) (ev : Event) (o : Option Ref) (r : Roster) :
    Prop where
  known : r.faces ⊆ r.opened
  apart : r.faces.Pairwise fun f g => tmAddrEq f.2 g.2 = false
  opened : p₀.opened ⊆ r.opened
  new : ∀ f ∈ r.opened, f ∈ p₀.opened ∨ f ∈ r.faces ∧ o = some f.1
  agent : r.agent = p₀.agentSession ∨ r.agent = none ∨ ∃ s, o = some s ∧ r.agent = some s
  kept : ∀ f ∈ p₀.roster.faces, f ∈ r.faces ∨ ev = .stop ∨
    (∃ x ∈ p₀.sessions, x.ref = f.1 ∧ (∃ recs a, ev = .sessionTimer x.ref recs a) ∧
      x.Silent cfg p₀.now) ∨
    ∃ s peer, o = some s ∧ r.agent = some s ∧ p₀.agentSession ≠ some s ∧ (s, peer) ∈ r.opened ∧
      tmAddrEq f.2 peer = false

lemma Stays.start (hk : p.roster.faces ⊆ p.opened)
    (ha : p.roster.faces.Pairwise fun f g => tmAddrEq f.2 g.2 = false) :
    Stays cfg p ev o p.roster :=
  ⟨hk, ha, .refl _, fun _ hf => .inl hf, .inl rfl, fun _ hf => .inl hf⟩

variable {r : Roster}

lemma Stays.become (h : Stays cfg p₀ ev o r) (ho : o = some s)
    (ha : r.agent = none ∨ r.agent = some s) : Stays cfg p₀ ev o { r with agent := some s } :=
  { h with
    agent := .inr (.inr ⟨s, ho, rfl⟩)
    kept := fun f hf => by
      rcases h.kept f hf with hk | hk | hk | ⟨s', peer, ho', hr, hrest⟩
      · exact .inl hk
      · exact .inr (.inl hk)
      · exact .inr (.inr (.inl hk))
      · obtain rfl : s' = s := some.inj (ho'.symm.trans ho)
        exact .inr (.inr (.inr ⟨s', peer, ho', rfl, hrest⟩)) }

lemma Stays.replace {old : Ref} {peer : Addr} (h : Stays cfg p₀ ev o r)
    (ho : o = some s) (hs : (s, peer) ∈ r.faces) (ha : r.agent = some old) (hne : old ≠ s) :
    Stays cfg p₀ ev o { r with faces := r.faces.filter (·.1 ≠ old), agent := some s } := by
  have hold : p₀.agentSession ≠ some s := by
    rcases h.agent with he | he | ⟨s', ho', he⟩
    · rw [← he, ha]
      simpa using hne
    · rw [ha] at he
      cases he
    · obtain rfl : s' = s := some.inj (ho'.symm.trans ho)
      exact absurd (some.inj (ha.symm.trans he)) hne
  have hsub : (r.faces.filter (·.1 ≠ old)).Sublist r.faces := filter_sublist
  refine ⟨fun f hf => h.known (hsub.subset hf), h.apart.sublist hsub, h.opened, fun f hf => ?_,
    .inr (.inr ⟨s, ho, rfl⟩), fun f hf => ?_⟩
  · refine (h.new f hf).imp_right fun ⟨hm, he⟩ => ⟨mem_filter.2 ⟨hm, ?_⟩, he⟩
    have : f.1 = s := some.inj (he.symm.trans ho)
    simpa [this] using hne.symm
  · rcases h.kept f hf with hk | hk | hk | ⟨s', peer', ho', -, hrest⟩
    · by_cases hf1 : f.1 = old
      · refine .inr (.inr (.inr ⟨s, peer, ho, rfl, hold, h.known hs, ?_⟩))
        have hsymm : Std.Symm fun f g : Ref × Addr => tmAddrEq f.2 g.2 = false :=
          ⟨fun f g hfg => by rw [tmAddrEq_comm]; exact hfg⟩
        exact h.apart.forall hk hs fun he => hne (by rw [← hf1, he])
      · exact .inl (mem_filter.2 ⟨hk, by simpa using hf1⟩)
    · exact .inr (.inl hk)
    · exact .inr (.inr (.inl hk))
    · obtain rfl : s' = s := some.inj (ho'.symm.trans ho)
      exact .inr (.inr (.inr ⟨s', peer', ho', rfl, hrest⟩))

lemma Stays.filter (q : Ref × Addr → Bool) (agent : Option Ref)
    (h : Stays cfg p₀ ev o r) (ho : o = none) (ha : agent = r.agent ∨ agent = none)
    (hq : ∀ f ∈ r.faces, q f = false → ev = .stop ∨ ∃ x ∈ p₀.sessions, x.ref = f.1 ∧
      (∃ recs a, ev = .sessionTimer x.ref recs a) ∧ x.Silent cfg p₀.now) :
    Stays cfg p₀ ev o { r with faces := r.faces.filter q, agent := agent } := by
  have hsub : (r.faces.filter q).Sublist r.faces := filter_sublist
  refine ⟨fun f hf => h.known (hsub.subset hf), h.apart.sublist hsub, h.opened, fun f hf => ?_, ?_,
    fun f hf => ?_⟩
  · refine (h.new f hf).imp_right fun ⟨_, he⟩ => ?_
    rw [ho] at he
    cases he
  · rcases ha with rfl | rfl
    · exact h.agent
    · exact .inr (.inl rfl)
  · rcases h.kept f hf with hk | hk | hk | ⟨s', _, ho', -⟩
    · cases hqf : q f with
      | true => exact .inl (mem_filter.2 ⟨hk, hqf⟩)
      | false => exact .inr ((hq f hk hqf).imp_right .inl)
    · exact .inr (.inl hk)
    · exact .inr (.inr (.inl hk))
    · rw [ho] at ho'
      cases ho'

lemma Stays.create {n : Ref} (h : Stays cfg p₀ ev o r)
    (ho : o = some n) (hn : ∀ f ∈ r.faces, tmAddrEq f.2 addr = false) : Stays cfg p₀ ev o
      { r with faces := (n, addr) :: r.faces, opened := (n, addr) :: r.opened } where
  known := cons_subset_cons _ h.known
  apart := pairwise_cons.2 ⟨fun f hf => by rw [tmAddrEq_comm]; exact hn f hf, h.apart⟩
  opened := List.Subset.trans h.opened (subset_cons_self _ _)
  new f hf := by
    rcases mem_cons.1 hf with rfl | hf
    · exact .inr ⟨mem_cons_self, ho⟩
    · exact (h.new f hf).imp_right fun ⟨hm, he⟩ => ⟨mem_cons_of_mem _ hm, he⟩
  agent := h.agent
  kept f hf := by
    rcases h.kept f hf with hk | hk | hk | ⟨s', peer, ho', hr, hne, hm, hd⟩
    · exact .inl (mem_cons_of_mem _ hk)
    · exact .inr (.inl hk)
    · exact .inr (.inr (.inl hk))
    · exact .inr (.inr (.inr ⟨s', peer, ho', hr, hne, mem_cons_of_mem _ hm, hd⟩))

lemma Turn.stays (ht : Turn cfg p₀ ev o p p') (hg : Gated cfg p)
    (h : Stays cfg p₀ ev o p.roster) : Stays cfg p₀ ev o p'.roster := by
  have hn := nodup_sessions hg.fresh
  have same : p'.roster = p.roster → Stays cfg p₀ ev o p'.roster := fun he => he ▸ h
  cases ht with
  | relay ha =>
    refine same ?_
    cases ha with
    | count | touch | flow => rfl
    | toAgent | toPeer => exact roster_sessionQueue hn
    | toClient =>
      unfold udpSendRaw
      split_ifs <;> rfl
  | flags hf => exact same (roster_upd fun x _ _ => ⟨(hf x).1, (hf x).2.1⟩)
  | pump => exact same (roster_pumpOut hn)
  | answer => exact same (roster_sessionQueue hn)
  | flowIdle => exact same rfl
  | become ho ha => exact h.become ho ha
  | replace ho hs ha hne =>
    obtain ⟨x, hx, rfl⟩ := hs
    have := h.replace ho (mem_map.2 ⟨x, hx, rfl⟩) ha hne
    rw [← (roster_close _).1, show p.roster.opened = p.opened from rfl, ← (roster_close _).2]
      at this
    exact this
  | @expire x _ _ hx he hs ho =>
    have := h.filter (fun f => f.1 ≠ x.ref) (tmUdpSessionClose x.ref p).agentSession ho ?_ ?_
    · rw [← (roster_close _).1, show p.roster.opened = p.opened from rfl,
        ← (roster_close (p := p) x.ref).2] at this
      exact this
    · unfold tmUdpSessionClose
      split
      · exact .inl rfl
      · split_ifs
        · exact .inr rfl
        · exact .inl rfl
    · intro f _ hf
      exact .inr ⟨x, hx, (by simpa using hf : f.1 = x.ref).symm, ⟨_, _, he⟩, hs⟩
  | create _ ho hne =>
    refine h.create ho fun f hf => ?_
    obtain ⟨x, hx, rfl⟩ := mem_map.1 hf
    exact hne x hx
  | done => exact same (roster_sendDone hn)
  | timerClosed =>
    refine same ?_
    rw [sessionTimerClosed, sessionMaybeFree_eq]
    rfl
  | stop he ho =>
    have := h.filter (fun _ => false) none ho (.inr rfl) fun _ _ _ => .inl he
    rw [filter_false] at this
    exact this

lemma sessionTimer_silent (hx : get s p.sessions = some x)
    (hs : x.Silent cfg p.now) : sessionTimer cfg s recs a p = tmUdpSessionClose s p := by
  simp only [sessionTimer, hx]
  exact if_pos hs

lemma ref_ne_of_close {y : Session} (hy : y ∈ (tmUdpSessionClose s p).sessions) : y.ref ≠ s := by
  unfold tmUdpSessionClose at hy
  split at hy
  · rename_i hg
    exact get_none.1 hg y hy
  · exact (mem_del.1 hy).2

lemma ref_ne_of_silent (hn : (p.sessions.map Keyed.key).Nodup) (hx : x ∈ p.sessions)
    (hl : l.ev = .sessionTimer x.ref recs a) (hs : x.Silent cfg l.now)
    (h : step cfg digest p l = some q) : ∀ y ∈ q.sessions, y.ref ≠ x.ref := by
  have hg : get x.ref p.sessions = some x := get_of_mem hn hx
  have hc (loop : ℕ) : sessionTimer cfg x.ref recs a { p with now := l.now, loop := loop } =
      tmUdpSessionClose x.ref { p with now := l.now, loop := loop } := sessionTimer_silent hg hs
  unfold step at h
  split_ifs at h
  rw [hl, handle, hc] at h
  cases h
  exact fun y hy => ref_ne_of_close hy

lemma step_stays (hg : Gated cfg p ∧ Queues p none) (hk : p.roster.faces ⊆ p.opened)
    (ha : p.roster.faces.Pairwise fun f g => tmAddrEq f.2 g.2 = false)
    (hs : step cfg digest p l = some q) : (Gated cfg q ∧ Queues q none) ∧
      ∃ o, Stays cfg { p with now := l.now, loop := l.loop } l.ev o q.roster := by
  obtain ⟨-, o, ht⟩ := step_turns hs
  have := ht.inv (I := fun q => (Gated cfg q ∧ Queues q none) ∧ Stays cfg _ l.ev o q.roster)
    (fun _ _ ht h => ⟨ht.gated h.1, ht.stays h.1.1 h.2⟩) ⟨hg, .start hk ha⟩
  exact ⟨this.1, o, this.2⟩

end Udp

namespace AgentUdp

variable {bcfg : BrokerCfg} {cfg : Cfg} {digest : Bytes → Digest} {c c' : Pair} {l : Label}

/-! ## The agent alone -/

/-- An agent that has a socket only if `up`, and one with the address `addr`: it is authenticated
only after its handshake, which ended with a session that `P` allows. -/
structure Linked (P : Ref → Prop) (up : Prop) (addr : Addr) (gone : List Ref) (a : App) : Prop where
  addr : a.ssl.isSome = true → up ∧ a.addr = addr ∧ a.ended = gone
  authed : a.udpAuthed = true → ∃ x ∈ a.ssl, x.initFinished = true
  session : ∀ x ∈ a.ssl, x.initFinished = true → ∃ s, x.session = some s ∧ P s

variable {now : ℕ} {ok : Bool}

namespace Linked

variable {P : Ref → Prop} {up : Prop} {addr : Addr} {gone : List Ref} {a a' : App}
  {S : Bytes → Prop}

lemma stopped (a : App) (hs : a.ssl = none) (ha : a.udpAuthed = false) : Linked P up addr gone a :=
  ⟨by simp [hs], by simp [ha], by simp [hs]⟩

lemma setSsl {x y : Ssl} {q : List Bytes} {l : List (Option Bytes)}
    (h : Linked P up addr gone a) (hx : a.ssl = some x)
    (hi : x.initFinished = true → y.initFinished = true)
    (hy : y.initFinished = true → ∃ s, y.session = some s ∧ P s) :
    Linked P up addr gone { a with ssl := some y, udpOutq := q, sent := l } := by
  refine ⟨fun _ => h.addr (by rw [hx]; rfl), fun ha => ⟨y, rfl, ?_⟩, ?_⟩
  · obtain ⟨z, hz, hf⟩ := h.authed ha
    cases hx.symm.trans hz
    exact hi hf
  · rintro _ ⟨⟩
    exact hy

lemma act (h : Linked P up addr gone a) (ha : Act S P a a') : Linked P up addr gone a' := by
  cases ha with
  | pump hp =>
    cases hp with
    | stop =>
      unfold udpStop
      split_ifs
      · exact h
      · exact .stopped _ rfl rfl
    | flush hx | write hx =>
      have hy := h.session _ hx
      exact h.setSsl hx id hy
  | queue | flows => exact { h with }
  | shake hx hi _ hs =>
    refine h.setSsl hx (fun hf => by rw [hi] at hf; cases hf) fun hf => ?_
    obtain ⟨hn, -⟩ | ⟨s, hP, hs⟩ := hs
    · rw [hn] at hf
      cases hf
    · exact ⟨s, hs, hP⟩
  | auth hx hi => exact { h with authed := fun _ => ⟨_, hx, hi⟩ }

lemma acts (h : Linked P up addr gone a) (ha : Acts S P a a') : Linked P up addr gone a' := by
  induction ha with
  | refl => exact h
  | tail _ ha ih => exact ih.act ha

lemma udpStart (addr' : Addr) (ok : Bool) (recs : ℕ) (gone' : List Ref) (ans : List Udp.SslAns)
    (h : Linked P up addr gone a) : (AgentUdp.udpStart addr' ok recs gone' ans a = a) ∨
      a.ssl = none ∧
        ∀ Q, Linked Q True addr' gone' (AgentUdp.udpStart addr' ok recs gone' ans a) := by
  obtain he | ⟨hn, he⟩ := udpStart_cases addr' ok recs gone'
  · exact .inl he
  · rw [he]
    refine .inr ⟨hn, fun Q => acts (S := fun _ => True)
      ⟨fun _ => ⟨trivial, rfl, rfl⟩, fun ha => ?_, ?_⟩ acts_pumpOut⟩
    · obtain ⟨x, hx, -⟩ := h.authed ha
      rw [hn] at hx
      cases hx
    · intro x hx hi
      cases hx
      cases hi

end Linked

/-! ## The agent and the plane -/

def Event.timer : Event → Option Ref
  | .broker _ _ (.sessionTimer s _ _) => some s
  | _ => none

def Event.keeps : Event → Bool
  | .broker _ _ .stop => false
  | _ => true

instance (x : Udp.Session) (now : ℕ) : Decidable (x.Silent bcfg now) :=
  inferInstanceAs (Decidable (_ > _))

def OnlyAgent (bcfg : BrokerCfg) (cfg : Cfg) (digest : Bytes → Digest) (c : Pair) (l : Label) :
    Prop :=
  ∀ c' ∈ step bcfg cfg digest c l, ∀ s ∈ c'.plane.agentSession,
    c.plane.agentSession = some s ∨ c'.AtAgent s

/-- When a session timer runs for a session of the agent's address, the broker has had a datagram of
it within twice the flow timeout. -/
def Heard (bcfg : BrokerCfg) (c : Pair) (l : Label) : Prop :=
  ∀ x ∈ c.plane.sessions, l.ev.timer = some x.ref → c.AtAgent x.ref → ¬ x.Silent bcfg l.now

def Agree (c : Pair) : Prop :=
  c.app.udpAuthed = true → ∃ s, c.app.ssl.bind Ssl.session = some s ∧
    ∃ x ∈ c.plane.sessions, x.ref = s

instance : Decidable (OnlyAgent bcfg cfg digest c l) :=
  inferInstanceAs (Decidable (∀ c' ∈ step bcfg cfg digest c l, _))

instance : Decidable (Heard bcfg c l) :=
  inferInstanceAs (Decidable (∀ x ∈ c.plane.sessions, _))

def Own (p : Udp.Plane) (addr : Addr) (gone : List Ref) (s : Ref) : Prop :=
  s ∉ gone ∧ ∃ o ∈ p.opened, o.1 = s ∧ tmAddrEq o.2 addr = true

structure PairInv (bcfg : BrokerCfg) (c : Pair) : Prop where
  plane : Udp.Inv c.plane
  gated : Udp.Gated bcfg c.plane ∧ Udp.Queues c.plane none
  known : c.plane.roster.faces ⊆ c.plane.opened
  apart : c.plane.roster.faces.Pairwise fun f g => tmAddrEq f.2 g.2 = false
  linked : Linked (Own c.plane c.app.addr c.app.ended) True c.app.addr c.app.ended c.app
  live : ∀ s, c.AtAgent s → ∃ x ∈ c.plane.sessions, x.ref = s

lemma PairInv.init : PairInv bcfg {} where
  plane := .init
  gated := Udp.Gated.init
  known := by simp [Udp.Plane.roster]
  apart := by simp [Udp.Plane.roster]
  linked := .stopped _ rfl rfl
  live s h := by simp [Pair.AtAgent] at h

lemma PairInv.app {a : App} (h : PairInv bcfg c)
    (hl : Linked (Own c.plane c.app.addr c.app.ended) (c.app.ssl.isSome = true) c.app.addr
      c.app.ended a) : PairInv bcfg { c with app := a, now := now } where
  plane := h.plane
  gated := h.gated
  known := h.known
  apart := h.apart
  linked := by
    refine ⟨fun _ => ⟨trivial, rfl, rfl⟩, hl.authed, fun x hx hi => ?_⟩
    obtain ⟨-, ha, ho⟩ := hl.addr (isSome_of_mem hx)
    rw [ha, ho]
    exact hl.session x hx hi
  live s hs := by
    obtain ⟨hu, hg, ho⟩ := hs
    obtain ⟨hup, haddr, hover⟩ := hl.addr hu
    refine h.live s ⟨hup, ?_, ?_⟩
    · rw [← hover]
      exact hg
    · rw [← haddr]
      exact ho

lemma PairInv.up (h : PairInv bcfg c) :
    Linked (Own c.plane c.app.addr c.app.ended) (c.app.ssl.isSome = true) c.app.addr c.app.ended
      c.app :=
  { h.linked with addr := fun hs => ⟨hs, rfl, rfl⟩ }

lemma live_of_not_ended {p : Udp.Plane} {o : Ref × Addr} (ho : o ∈ p.opened)
    (hn : o.1 ∉ endedSessions p) : ∃ x ∈ p.sessions, x.ref = o.1 := by
  have hg : (get o.1 p.sessions).isNone = false := by
    by_contra hg
    exact hn (mem_filter.2 ⟨mem_map_of_mem ho, by simpa using hg⟩)
  obtain ⟨x, hx⟩ := isSome_iff_exists.1 (isNone_eq_false_iff.1 hg)
  exact ⟨x, mem_of_get hx, key_of_get hx⟩

section

variable (h : PairInv bcfg c)
include h

lemma PairInv.start {ans : List Udp.SslAns} : PairInv bcfg
      { c with app := udpStart addr ok recs (endedSessions c.plane) ans c.app, now := now } := by
  obtain he | ⟨-, hl⟩ := h.linked.udpStart addr ok recs (endedSessions c.plane) ans
  · rw [he]
    exact h.app h.up
  refine ⟨h.plane, h.gated, h.known, h.apart, { hl _ with addr := fun _ => ⟨trivial, rfl, rfl⟩ },
    fun s hs => ?_⟩
  obtain ⟨hu, hg, o, ho, rfl, -⟩ := hs
  rw [((hl fun _ => True).addr hu).2.2] at hg
  exact live_of_not_ended ho hg

lemma PairInv.broker {loop : ℕ} {creds : Udp.Creds} {ev : Udp.Event} {q : Udp.Plane}
    (hs : Udp.step bcfg digest c.plane { now := now, loop := loop, creds := creds, ev := ev } =
      some q)
    (hev : ev ≠ .stop)
    (hagent : ∀ s ∈ q.agentSession, c.plane.agentSession = some s ∨
      ({ c with plane := q, now := now } : Pair).AtAgent s)
    (hheard : ∀ x ∈ c.plane.sessions, (∃ recs a, ev = .sessionTimer x.ref recs a) →
      c.AtAgent x.ref → ¬ x.Silent bcfg now) :
    PairInv bcfg { c with plane := q, now := now } := by
  obtain ⟨hg, o, hst⟩ := step_stays h.gated h.known h.apart hs
  have hopened : c.plane.opened ⊆ q.opened := hst.opened
  have hi := h.plane.step hs
  refine ⟨hi, hg, hst.known, hst.apart, ?_, fun s hs => ?_⟩
  · refine { h.linked with session := fun x hx hx' => ?_ }
    obtain ⟨s, hs, hn, o, ho, hr⟩ := h.linked.session x hx hx'
    exact ⟨s, hs, hn, o, hopened ho, hr⟩
  obtain ⟨hu, hn, f, hf, rfl, hfa⟩ := hs
  have hface : f ∈ q.roster.faces → ∃ x ∈ q.sessions, x.ref = f.1 := fun hm => by
    obtain ⟨x, hx, he⟩ := mem_map.1 hm
    exact ⟨x, hx, by rw [← he]⟩
  rcases hst.new f hf with hold | ⟨hm, -⟩
  · -- an old session: its face in the plane before
    have hat : c.AtAgent f.1 := ⟨hu, hn, f, hold, rfl, hfa⟩
    obtain ⟨x, hx, hxr⟩ := h.live f.1 hat
    have hxf : (x.ref, x.peer) ∈ c.plane.roster.faces := mem_map.2 ⟨x, hx, rfl⟩
    obtain rfl : (x.ref, x.peer) = f :=
      inj_on_of_nodup_map hi.opened.1 (hopened (h.known hxf)) hf hxr
    rcases hst.kept _ hxf with hk | hk | ⟨y, hy, hyr, hyt, hys⟩ | ⟨s, peer, -, hq, hne, hm, hd⟩
    · exact hface hk
    · exact absurd hk hev
    · exact absurd hys (hheard y hy hyt (by rw [hyr]; exact hat))
    · -- the session that took its place would have the same address
      rcases hagent s hq with he | ⟨-, -, g, hg, hgs, hga⟩
      · exact absurd he hne
      · have : g = (s, peer) := inj_on_of_nodup_map hi.opened.1 hg hm hgs
        rw [this] at hga
        rw [tmAddrEq_of_common hfa hga] at hd
        cases hd
  · exact hface hm

section

variable (hs : step bcfg cfg digest c l = some c')
include hs

lemma PairInv.step
    (hk : l.ev.keeps = true) (ho : OnlyAgent bcfg cfg digest c l) (hh : Heard bcfg c l) :
    PairInv bcfg c' := by
  have honly := ho c' hs
  unfold AgentUdp.step at hs
  split_ifs at hs
  cases hev : l.ev with
  | broker =>
    rw [hev] at hs hk
    obtain ⟨q, hq, rfl⟩ := map_eq_some_iff.1 hs
    refine h.broker hq (by rintro rfl; cases hk) honly fun x hx hr => hh x hx ?_
    obtain ⟨recs, a, rfl⟩ := hr
    rw [hev]
    rfl
  | udpStart =>
    rw [hev] at hs
    cases hs
    exact h.start
  | udpRecv =>
    simp only [hev, handle] at hs
    split_ifs at hs with hc
    cases hs
    refine h.app (h.up.acts (acts_udpRecv (S := fun _ => True) trivial fun x hx hi => ?_))
    simp only [Pair.canRecv, hx, hi, Bool.false_eq_true, if_false, decide_eq_true_eq] at hc
    exact hc.2
  | flowRecv =>
    rw [hev] at hs
    cases hs
    exact h.app (h.up.acts (acts_flowRecv (S := fun _ => True) fun _ _ _ => trivial))
  | flowSweep =>
    rw [hev] at hs
    cases hs
    exact h.app (h.up.acts (S := fun _ => True) acts_flowSweep)
  | udpStop =>
    rw [hev] at hs
    cases hs
    exact h.app (h.up.acts (S := fun _ => True) acts_udpStop)

omit hs in
lemma PairInv.agree : Agree c := by
  intro ha
  obtain ⟨x, hx, hi⟩ := h.linked.authed ha
  obtain ⟨s, hs, hn, ho⟩ := h.linked.session x hx hi
  have hx' : c.app.ssl = some x := hx
  exact ⟨s, by rw [hx']; exact hs, h.live s ⟨by rw [hx']; rfl, hn, ho⟩⟩

lemma closed_of_silent {x : Udp.Session} (hx : x ∈ c.plane.sessions) (ht : l.ev.timer = some x.ref)
    (hsil : x.Silent bcfg l.now) : ∀ y ∈ c'.plane.sessions, y.ref ≠ x.ref := by
  obtain ⟨loop, creds, recs, a, hev⟩ :
      ∃ loop creds recs a, l.ev = .broker loop creds (.sessionTimer x.ref recs a) := by
    unfold Event.timer at ht
    split at ht
    · rename_i he
      cases ht
      exact ⟨_, _, _, _, he⟩
    · cases ht
  unfold AgentUdp.step at hs
  split_ifs at hs
  rw [hev] at hs
  obtain ⟨q, hq, rfl⟩ := map_eq_some_iff.1 hs
  exact ref_ne_of_silent (nodup_sessions h.gated.1.fresh) hx rfl hsil hq

lemma step_side : c'.plane = c.plane ∨ c'.app = c.app ∧ c.plane.opened ⊆ c'.plane.opened := by
  unfold AgentUdp.step at hs
  split_ifs at hs
  cases hev : l.ev with
  | broker =>
    rw [hev] at hs
    obtain ⟨q, hq, rfl⟩ := map_eq_some_iff.1 hs
    obtain ⟨-, o, hst⟩ := step_stays h.gated h.known h.apart hq
    exact .inr ⟨rfl, hst.opened⟩
  | udpRecv =>
    simp only [hev, handle] at hs
    split_ifs at hs with hc
    cases hs
    exact .inl rfl
  | _ =>
    rw [hev] at hs
    cases hs
    exact .inl rfl

end

end

/-- In a run in which the tunnel's plane is not stopped, no session of another address becomes the
agent's, and the broker hears of the agent in time, an agent that takes itself for authenticated has
its session. The last condition is exact. -/
theorem agent_session_kept {tr : List (Pair × Label)}
    (h : Trace (step bcfg cfg digest) Init tr c) (hk : ∀ e ∈ tr, e.2.ev.keeps = true)
    (ho : ∀ e ∈ tr, OnlyAgent bcfg cfg digest e.1 e.2) (hh : ∀ e ∈ tr, Heard bcfg e.1 e.2) :
    Agree c ∧ ∀ l c', step bcfg cfg digest c l = some c' → l.ev.keeps = true →
      OnlyAgent bcfg cfg digest c l →
      ((∀ x ∈ c.plane.sessions, c.AtAgent x.ref → ∃ y ∈ c'.plane.sessions, y.ref = x.ref) ↔
        Heard bcfg c l) := by
  have hinv : PairInv bcfg c :=
    h.inv_of_ok (by rintro _ rfl; exact .init)
      (fun c l c' hc
        (hok : l.ev.keeps = true ∧ OnlyAgent bcfg cfg digest c l ∧ Heard bcfg c l) hs =>
        hc.step hs hok.1 hok.2.1 hok.2.2)
      fun e he => ⟨hk e he, ho e he, hh e he⟩
  refine ⟨hinv.agree, fun l c' hs hk ho =>
    ⟨fun hkept x hx ht hat hsil => ?_, fun hh x hx hat => ?_⟩⟩
  · obtain ⟨y, hy, he⟩ := hkept x hx hat
    exact closed_of_silent hinv hs hx ht hsil y hy he
  · rcases step_side hinv hs with hp | ⟨happ, hop⟩
    · exact ⟨x, by rw [hp]; exact hx, rfl⟩
    · refine (hinv.step hs hk ho hh).live x.ref ?_
      obtain ⟨hu, hn, o, hom, hoa⟩ := hat
      rw [Pair.AtAgent, happ]
      exact ⟨hu, hn, o, hop hom, hoa⟩

section Runs

open Udp (zeroDigest zeroCreds whole)

def agentAddr : Addr := { family := .inet, ip := [10, 0, 0, 2], port := 6000 }

def reaches (ms : ℕ) (hs : Udp.HsAns) (envs : List Bytes) : Label :=
  { now := ms, ev := .broker ms zeroCreds (.packet agentAddr
      (22 :: 0xfe :: .replicate 11 0xfd) hs (envs.map fun e => (e, whole)) whole) }

def timerAt (ms : ℕ) : Label :=
  { now := ms, ev := .broker ms zeroCreds (.sessionTimer 0 0 whole) }

def sweepAt (ms : ℕ) : Label := { now := ms, ev := .flowSweep }

def sentAt (ms : ℕ) : Label :=
  { now := ms, ev := .broker ms zeroCreds (.sendDone (some 0) whole) }

def authenticates : List Label :=
  [{ now := 0, ev := .udpStart agentAddr true 1 [] }, reaches 0 (.want 1) [], sentAt 0,
   reaches 0 (.done 1) [], { now := 0, ev := .udpRecv (.done 0) 0 [] [.whole] }, sentAt 0,
   reaches 0 (.want 0) [tmEnvEncode 0 tmEnvFlagAuthReq [1]], sentAt 0,
   { now := 0, ev := .udpRecv (.want 0) 0 [(tmEnvEncode 0 tmEnvFlagAuthOk [], true)] [] }]

theorem agent_session_kept_heard : ∃ tr c,
    Trace (step {} { agentSecret := [1] } zeroDigest) Init tr c ∧
    (∀ e ∈ tr, e.2.ev.keeps = true) ∧
    (∀ e ∈ tr, OnlyAgent {} { agentSecret := [1] } zeroDigest e.1 e.2) ∧
    (∀ e ∈ tr, Heard {} e.1 e.2) ∧ c.app.udpAuthed = true ∧ Agree c := by
  obtain ⟨tr, c, h, hk, ho, hh, ha⟩ := exists_trace
    (step {} { agentSecret := [1] } zeroDigest) Init rfl
    (authenticates ++ [timerAt 500, reaches 20000 (.want 0) [tmEnvEncode 1 0 [9]], timerAt 30500,
      timerAt 60500])
    (fun r => (∀ e ∈ r.1, e.2.ev.keeps = true) ∧
      (∀ e ∈ r.1, OnlyAgent {} { agentSecret := [1] } zeroDigest e.1 e.2) ∧
      (∀ e ∈ r.1, Heard {} e.1 e.2) ∧ r.2.app.udpAuthed = true) (by decide)
  exact ⟨tr, c, h, hk, ho, hh, ha, (agent_session_kept h hk ho hh).1⟩

/-- The tunnel carries nothing, and the broker's third timer, at 60500 ms, closes the session of an
agent that stays authenticated. -/
theorem agent_session_dropped : ∃ tr c,
    Trace (step {} { agentSecret := [1] } zeroDigest) Init tr c ∧
    (∀ e ∈ tr, e.2.ev.keeps = true) ∧
    (∀ e ∈ tr, OnlyAgent {} { agentSecret := [1] } zeroDigest e.1 e.2) ∧ ¬ Agree c := by
  obtain ⟨tr, c, h, hk, ho, ha, hs⟩ := exists_trace
    (step {} { agentSecret := [1] } zeroDigest) Init rfl
    (authenticates ++ [timerAt 500, sweepAt 15000, sweepAt 30000, timerAt 30500, sweepAt 45000,
      sweepAt 60000, timerAt 60500])
    (fun r => (∀ e ∈ r.1, e.2.ev.keeps = true) ∧
      (∀ e ∈ r.1, OnlyAgent {} { agentSecret := [1] } zeroDigest e.1 e.2) ∧
      r.2.app.udpAuthed = true ∧ r.2.plane.sessions = []) (by decide)
  refine ⟨tr, c, h, hk, ho, fun hagree => ?_⟩
  obtain ⟨_, -, x, hx, -⟩ := hagree ha
  rw [hs] at hx
  cases hx

end Runs

end AgentUdp

end TunnelMate
