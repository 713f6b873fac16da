import TunnelMate.Proofs.UdpMoves

/-!
# What every run of a UDP plane keeps

A reply waits and leaves only for the endpoint its flow id was given to; flow ids are the numbers 1,
2, 3, … until they wrap.
-/

namespace TunnelMate.Udp

open List Table Nat

def Carries (assigned : List (ℕ × Endpoint)) (s : Ref) (q : Queued) : Prop :=
  ∀ r, q.reply = some r →
    ∃ srcFlowId, (r.flowId, .peer s srcFlowId) ∈ assigned ∧
      q.env = tmEnvEncode srcFlowId 0 r.payload

structure Wired (opened : List (Ref × Addr)) (assigned : List (ℕ × Endpoint)) (x : Session) :
    Prop where
  peer : (x.ref, x.peer) ∈ opened
  outq : ∀ q ∈ x.outq, Carries assigned x.ref q
  wbio : ∀ q, some q ∈ x.wbio → Carries assigned x.ref q

def Delivered (opened : List (Ref × Addr)) (assigned : List (ℕ × Endpoint)) (o : Out) : Prop :=
  match o.body with
  | .raw r => o.session = none ∧ (r.flowId, .client o.dst) ∈ assigned
  | .record q => ∃ s, o.session = some s ∧ (s, o.dst) ∈ opened ∧ ∀ q', q = some q' →
      Carries assigned s q'

def Counted (next : ℕ) (assigned : List (ℕ × Endpoint)) : Prop :=
  assigned.length < 2 ^ 64 →
    next = (assigned.length + 1) % 2 ^ 64 ∧ (assigned.map Prod.fst).Nodup ∧
      ∀ e ∈ assigned, 1 ≤ e.1 ∧ e.1 ≤ assigned.length

structure Inv (p : Plane) : Prop where
  sessions : Table.Fresh p.nextRef p.sessions
  opened : (p.opened.map Prod.fst).Nodup ∧ ∀ o ∈ p.opened, o.1 < p.nextRef
  wired : ∀ x ∈ p.sessions, Wired p.opened p.assigned x
  sent : ∀ o ∈ p.sent, Delivered p.opened p.assigned o
  flows : Table.Fresh p.nextRef p.flows
  ids : ∀ f ∈ p.flows, (f.flowId, f.ep) ∈ p.assigned
  counted : Counted p.nextFlowId p.assigned
  clock : p.loop ≤ p.now
  seen : ∀ e ∈ p.seen, e.1 < p.nextRef ∧ e.2 ≤ p.now
  last : ∀ f ∈ p.flows, (f.ref, f.lastSeenMs) ∈ p.seen ∧
    ∀ e ∈ p.seen, e.1 = f.ref → e.2 ≤ f.lastSeenMs

section Monotone

variable {opened opened' : List (Ref × Addr)} {assigned assigned' : List (ℕ × Endpoint)}

lemma Carries.mono {s : Ref} {q : Queued} (h : Carries assigned s q)
    (ha : assigned ⊆ assigned') : Carries assigned' s q := by
  intro r hr
  obtain ⟨i, hi, he⟩ := h r hr
  exact ⟨i, ha hi, he⟩

lemma Wired.mono {x : Session} (h : Wired opened assigned x) (ho : opened ⊆ opened')
    (ha : assigned ⊆ assigned') : Wired opened' assigned' x :=
  ⟨ho h.peer, fun q hq => (h.outq q hq).mono ha, fun q hq => (h.wbio q hq).mono ha⟩

lemma Delivered.mono {o : Out} (h : Delivered opened assigned o) (ho : opened ⊆ opened')
    (ha : assigned ⊆ assigned') : Delivered opened' assigned' o := by
  unfold Delivered at h ⊢
  split at h
  · exact ⟨h.1, ha h.2⟩
  · obtain ⟨s, h1, h2, h3⟩ := h
    exact ⟨s, h1, ho h2, fun q hq => (h3 q hq).mono ha⟩

end Monotone

namespace Inv

variable {cfg : BrokerCfg} {digest : Bytes → Digest} {p : Plane} {s : Ref} {a : PumpAns}

lemma init : Inv {} where
  sessions := .nil
  opened := by simp
  wired := by simp
  sent := by simp
  flows := .nil
  ids := by simp
  counted := fun _ => by simp
  clock := le_refl _
  seen := by simp
  last := by simp

lemma ctr (h : Inv p) (c : Counters) : Inv { p with ctr := c } := { h with }

variable {f : Session → Session} {assigned : List (ℕ × Endpoint)} {ep : Endpoint}

lemma upd (h : Inv p)
    (hf : ∀ x ∈ p.sessions, x.ref = s → (f x).ref = s ∧ Wired p.opened p.assigned (f x)) :
    Inv (p.upd s f) :=
  { h with
    sessions := h.sessions.upd fun x hx he => (hf x hx he).1
    wired := forall_upd (fun x hx _ => h.wired x hx) fun x hx he => (hf x hx he).2 }

lemma updFlags (h : Inv p) (hr : ∀ x, (f x).ref = x.ref)
    (hp : ∀ x, (f x).peer = x.peer) (hq : ∀ x, (f x).outq = x.outq)
    (hw : ∀ x q, some q ∈ (f x).wbio → some q ∈ x.wbio) : Inv (p.upd s f) := by
  refine h.upd fun x hx he => ⟨(hr x).trans he, ?_, ?_, ?_⟩
  · rw [hr, hp]; exact (h.wired x hx).peer
  · rw [hr, hq]; exact (h.wired x hx).outq
  · rw [hr]; exact fun q hm => (h.wired x hx).wbio q (hw x q hm)

lemma udpSendRaw (h : Inv p) {s : Option Ref} {dst : Addr} {body : Body} {send : Bool}
    (hd : Delivered p.opened p.assigned ⟨s, dst, body⟩) :
    Inv (udpSendRaw cfg s dst body send p) := by
  unfold Udp.udpSendRaw
  split_ifs
  · exact h.ctr _
  · refine { h with sent := fun o ho => ?_ }
    rcases mem_cons.1 ho with rfl | ho
    · exact hd
    · exact h.sent o ho
  · exact h.ctr _

lemma pumps (h : Inv p) (l : List Pump) : Inv { p with pumps := l } := { h with }

lemma pumpOut (h : Inv p) : Inv (pumpOut cfg s a p) := by
  refine pumpOut_rule h h.pumps (fun x hx hk y l hy => ?_) fun x hx hk y l r hu hr => ?_
  · have hw := h.wired x hx
    obtain ⟨v, hq, hb⟩ := hy
    refine (h.pumps l).upd fun _ _ _ => ⟨hk, hw.peer, fun q hm => hw.outq q (hq.subset hm), ?_⟩
    exact fun q hm => (hb q hm).elim (hw.outq q) (hw.wbio q)
  · have hw := h.wired x hx
    subst hk
    refine hu.udpSendRaw ⟨x.ref, rfl, hw.peer, fun q hq => ?_⟩
    exact (hr q hq).elim (hw.outq q) (hw.wbio q)

lemma sessionQueue (h : Inv p) {q : Queued} (hq : Carries p.assigned s q) :
    Inv (sessionQueue cfg s q a p) := by
  refine sessionQueue_rule h h.ctr (Inv.pumpOut (h.upd fun x hx he => ?_))
  refine ⟨he, (h.wired x hx).peer, fun q' hq' => ?_, (h.wired x hx).wbio⟩
  rcases mem_append.1 hq' with hq' | hq'
  · exact (h.wired x hx).outq q' hq'
  · rw [mem_singleton.1 hq', he]
    exact hq

lemma closing (h : Inv p) (l : List Closing) : Inv { p with closing := l } := { h with }

lemma sessionMaybeFree (h : Inv p) : Inv (sessionMaybeFree s p) := by
  rw [sessionMaybeFree_eq]
  exact h.closing _

lemma sendDone (h : Inv p) {s : Option Ref} : Inv (sendDone cfg s a p) := by
  unfold Udp.sendDone
  have h' : Inv { p with pending := p.pending.erase s, udpRawInflight := p.udpRawInflight - 1 } :=
    { h with }
  dsimp only
  split
  · exact h'
  · split_ifs
    · exact (h'.closing _).sessionMaybeFree
    · refine .pumpOut (h'.updFlags ?_ ?_ ?_ fun _ _ => id) <;> intro x <;> rfl

lemma tmUdpFlowExpire (h : Inv p) {f : Ref} : Inv (tmUdpFlowExpire f p) :=
  { h with
    flows := h.flows.del
    ids := fun x hx => h.ids x (mem_del.1 hx).1
    last := fun x hx => h.last x (mem_del.1 hx).1 }

lemma touch (h : Inv p) {f : Flow} (hf : f ∈ p.flows) {plen : ℕ} : Inv (touch f.ref plen p) where
  __ := h
  flows := h.flows.upd fun _ _ he => he
  ids := forall_upd (fun x hx _ => h.ids x hx) fun x hx _ => h.ids x hx
  seen := by
    intro e he
    rcases mem_cons.1 he with rfl | he
    · exact ⟨h.flows.lt f hf, le_rfl⟩
    · exact h.seen e he
  last := by
    refine forall_upd (fun x hx hne => ⟨?_, fun e he hr => ?_⟩) fun x hx hr => ⟨?_, ?_⟩
    · exact mem_cons_of_mem _ (h.last x hx).1
    · rcases mem_cons.1 he with rfl | he
      · exact absurd hr.symm hne
      · exact (h.last x hx).2 e he hr
    · rw [← hr]
      exact mem_cons_self
    · intro e he _
      rcases mem_cons.1 he with rfl | he
      · exact le_rfl
      · exact (h.seen e he).2

lemma counted_cons {next : ℕ} (h : Counted next assigned) :
    Counted (((if next = 0 then 1 else next) + 1) % 2 ^ 64)
      ((if next = 0 then 1 else next, ep) :: assigned) := by
  intro hl
  rw [length_cons] at hl
  obtain ⟨hn, hd, hle⟩ := h (by omega)
  have hf : (if next = 0 then 1 else next) = assigned.length + 1 := by
    rw [hn, mod_eq_of_lt hl, if_neg (succ_ne_zero _)]
  rw [hf, length_cons, map_cons, nodup_cons]
  refine ⟨rfl, ⟨fun hm => ?_, hd⟩, ?_⟩
  · obtain ⟨e, he, h1⟩ := mem_map.1 hm
    have := (hle e he).2
    omega
  · intro e he
    rcases mem_cons.1 he with rfl | he
    · exact ⟨succ_pos _, le_rfl⟩
    · exact ⟨(hle e he).1, le_succ_of_le (hle e he).2⟩

lemma flowNew (h : Inv p) : Inv (flowNew ep p).2 := by
  have ha : p.assigned ⊆ (Udp.flowNew ep p).2.assigned := subset_cons_self _ _
  exact {
    sessions := h.sessions.mono (le_succ _)
    opened := ⟨h.opened.1, fun o ho => lt_succ_of_lt (h.opened.2 o ho)⟩
    wired := fun x hx => (h.wired x hx).mono (.refl _) ha
    sent := fun o ho => (h.sent o ho).mono (.refl _) ha
    flows := h.flows.cons rfl
    ids := by
      intro f hf
      rcases mem_cons.1 hf with rfl | hf
      · exact mem_cons_self
      · exact ha (h.ids f hf)
    counted := counted_cons h.counted
    clock := h.clock
    seen := by
      intro e he
      rcases mem_cons.1 he with rfl | he
      · exact ⟨lt_succ_self _, le_rfl⟩
      · exact ⟨lt_succ_of_lt (h.seen e he).1, (h.seen e he).2⟩
    last := by
      intro f hf
      rcases mem_cons.1 hf with rfl | hf
      · refine ⟨mem_cons_self, fun e he hr => ?_⟩
        rcases mem_cons.1 he with rfl | he
        · exact le_rfl
        · exact absurd hr (Nat.ne_of_lt (h.seen e he).1)
      · refine ⟨mem_cons_of_mem _ (h.last f hf).1, fun e he hr => ?_⟩
        rcases mem_cons.1 he with rfl | he
        · exact absurd hr.symm (Nat.ne_of_lt (h.flows.lt f hf))
        · exact (h.last f hf).2 e he hr }

lemma tmUdpSessionClose (h : Inv p) : Inv (tmUdpSessionClose s p) := by
  unfold Udp.tmUdpSessionClose
  split
  · exact h
  · exact { h with
      sessions := h.sessions.del
      wired := fun x hx => h.wired x (mem_del.1 hx).1
      flows := h.flows.sublist filter_sublist
      ids := fun f hf => h.ids f (mem_filter.1 hf).1
      last := fun f hf => h.last f (mem_filter.1 hf).1 }

lemma sessionCreate (h : Inv p) {peer : Addr} : Inv (sessionCreate peer p) where
  sessions := h.sessions.cons rfl
  opened := by
    refine ⟨?_, ?_⟩
    · refine nodup_cons.2 ⟨fun hm => ?_, h.opened.1⟩
      obtain ⟨o, ho, he⟩ := mem_map.1 hm
      exact absurd he (Nat.ne_of_lt (h.opened.2 o ho))
    · intro o ho
      rcases mem_cons.1 ho with rfl | ho
      · exact lt_succ_self _
      · exact lt_succ_of_lt (h.opened.2 o ho)
  wired := by
    intro x hx
    rcases mem_cons.1 hx with rfl | hx
    · exact ⟨mem_cons_self, by simp, by simp⟩
    · exact (h.wired x hx).mono (subset_cons_self _ _) (.refl _)
  sent := fun o ho => (h.sent o ho).mono (subset_cons_self _ _) (List.Subset.refl _)
  flows := h.flows.mono (le_succ _)
  ids := h.ids
  counted := h.counted
  clock := h.clock
  seen := fun e he => ⟨lt_succ_of_lt (h.seen e he).1, (h.seen e he).2⟩
  last := h.last

lemma tmUdpStop (h : Inv p) : Inv (tmUdpStop p) :=
  { h with
    sessions := .nil
    wired := by simp [Udp.tmUdpStop]
    flows := .nil
    ids := by simp [Udp.tmUdpStop]
    last := by simp [Udp.tmUdpStop] }

lemma tick (h : Inv p) {now loop : ℕ} (ht : p.now ≤ now ∧ p.loop ≤ loop ∧ loop ≤ now) :
    Inv { p with now := now, loop := loop } :=
  { h with
    clock := ht.2.2
    seen := fun e he => ⟨(h.seen e he).1, le_trans (h.seen e he).2 ht.1⟩ }

lemma act {P : Bytes → Prop} {R : Reply → Prop} {N : Endpoint → Prop} {q : Plane} (h : Inv p)
    (ha : Act cfg P R N p q) : Inv q := by
  cases ha with
  | count => exact { h with }
  | touch _ hf => exact h.touch hf
  | flow => exact h.flowNew
  | toAgent => exact h.sessionQueue nofun
  | toPeer _ _ hf hid he =>
    refine h.sessionQueue fun r hr => ?_
    cases hr
    exact ⟨_, hid ▸ he ▸ h.ids _ hf, rfl⟩
  | toClient _ _ hf hid he => exact h.udpSendRaw ⟨rfl, hid ▸ he ▸ h.ids _ hf⟩

lemma turn {p₀ q : Plane} {ev : Event} {o : Option Ref} (h : Inv p)
    (ht : Turn cfg p₀ ev o p q) : Inv q := by
  cases ht with
  | relay ha => exact h.act ha
  | flags hf =>
    exact h.updFlags (fun x => (hf x).1) (fun x => (hf x).2.1) (fun x => (hf x).2.2.2.1)
      fun x => (hf x).2.2.2.2
  | pump => exact h.pumpOut
  | answer => exact h.sessionQueue nofun
  | become => exact { h with }
  | replace => exact { h.tmUdpSessionClose with }
  | create => exact h.sessionCreate
  | expire => exact h.tmUdpSessionClose
  | done => exact h.sendDone
  | timerClosed => exact (h.closing _).sessionMaybeFree
  | flowIdle => exact h.tmUdpFlowExpire
  | stop => exact h.tmUdpStop

lemma step {l : Label} {q : Plane} (h : Inv p) (hs : step cfg digest p l = some q) : Inv q := by
  obtain ⟨ht, o, hq⟩ := step_turns hs
  exact Turns.inv hq (fun _ _ hm hi => hi.turn hm) (h.tick ht)

lemma of_trace {tr : List (Plane × Label)} (h : Trace (Udp.step cfg digest) Init tr p) : Inv p :=
  h.inv (fun _ hp => by rw [hp]; exact init) fun _ _ _ => Inv.step

end Inv

end TunnelMate.Udp
