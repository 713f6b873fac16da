import TunnelMate.Proofs.AgentUdp
import TunnelMate.Proofs.UdpAuth
import TunnelMate.Proofs.UdpClients

/-!
# Where a closed tunnel delivers what the service sends

A datagram of the service passes three tables: those of the agent, of the broker and of the peer.
-/

namespace TunnelMate

open List Option Table AgentUdp.Ssl

variable {data : Bytes} {s : Ref}

namespace Udp

variable {cfg : BrokerCfg} {digest : Bytes → Digest} {A P : Ref → Prop}
  {J : Ref → Queued → Prop} {E : List (ℕ × Endpoint) → Prop} {p p' : Plane} {l : Label} {c : Call}

/-! ## The broker -/

structure Call.Fits (digest : Bytes → Digest) (A P : Ref → Prop) (J : Ref → Queued → Prop)
    (E : List (ℕ × Endpoint) → Prop) (c : Call) : Prop where
  authAgent : c.AuthAgent digest → A c.session
  authPeer : c.AuthPeer digest → P c.session
  answer : ∀ flag, J c.session (answer flag)
  agent : A c.session → ∀ e, tmEnvDecode c.data = some e → e.flowId ≠ 0 → ∀ s i,
    J s { env := tmEnvEncode i 0 e.payload, reply := some ⟨e.flowId, e.payload⟩ }
  peer : P c.session → ∀ e, tmEnvDecode c.data = some e → e.flowId ≠ 0 → ∀ i l,
    E l → E ((i, .peer c.session e.flowId) :: l)

lemma Rightful.current_agent (h : Rightful A P p) (hs : p.agentSession = some s) : A s :=
  (h.agent _ (h.current s hs) rfl rfl).2

lemma Filled.call (hr : Rightful A P c.plane) (h : Filled J E c.plane)
    (hJ : ∀ s flowId payload, A s → J s { env := tmEnvEncode flowId 0 payload, reply := none })
    (hc : c.Fits digest A P J E) : Filled J E (c.after cfg digest) := by
  cases c.does cfg digest hr.fresh.nodup with
  | gone he => exact he ▸ h
  | unheard _ _ he =>
    rw [he]
    exact h.ctr _
  | refused _ _ he =>
    rw [he]
    exact (h.ctr _).sessionQueue (hc.answer _)
  | accepted isAgent _ _ _ _ he =>
    rw [he]
    exact (h.idle (.authAccept isAgent)).sessionQueue (hc.answer _)
  | agent hx hu hi _ hruns =>
    have hA := (hr.agent _ (mem_map_of_mem (mem_of_get hx)) hu hi).2
    rw [show (Session.role _).ref = _ from key_of_get hx] at hA
    obtain ⟨k, he⟩ | ⟨e, hd, he⟩ := hruns
    · rw [he]
      exact h.ctr k
    · rw [he]
      exact h.agentSessionEnv (hc.agent hA e hd)
  | peer hx hu hi _ hruns =>
    have hP := hr.peer _ (mem_map_of_mem (mem_of_get hx)) hu hi
    rw [show (Session.role _).ref = _ from key_of_get hx] at hP
    obtain ⟨k, he⟩ | ⟨e, hd, he⟩ := hruns
    · rw [he]
      exact h.ctr k
    · rw [he]
      refine h.peerSessionEnv (fun _ s flowId hs => hJ s flowId _ (hr.current_agent hs)) ?_
      rw [show Session.ref _ = _ from key_of_get hx]
      exact hc.peer hP e hd

lemma Rightful.call_fits (h : Rightful A P c.plane) (hc : c.Fits digest A P J E) :
    Rightful A P (c.after cfg digest) := by
  refine h.call.mono ?_ ?_
  · rintro s (hs | ⟨rfl, hs⟩)
    · exact hs
    · exact hc.authAgent hs
  · rintro s (hs | ⟨rfl, hs⟩)
    · exact hs
    · exact hc.authPeer hs

lemma Filled.step (hs : step cfg digest p l = some p') (hr : Rightful A P p) (h : Filled J E p)
    (hJ : ∀ s flowId payload, A s → J s { env := tmEnvEncode flowId 0 payload, reply := none })
    (hE : ∀ addr i l, E l → E ((i, .client addr) :: l))
    (hc : ∀ c ∈ callsOf cfg digest p l, c.Fits digest A P J E) :
    Rightful A P p' ∧ Filled J E p' := by
  obtain ⟨p₁, p₂, h₁, hd, h₂⟩ | ⟨-, -, addr, data, a, rfl⟩ := step_cases hs
  · have hdr : Rightful A P p₂ ∧ Filled J E p₂ :=
      @Drained.inv _ _ _ _ [] (fun _ p => Rightful A P p ∧ Filled J E p) _
        (fun _ c hm h => ⟨h.1.call_fits (hc c hm), h.2.call h.1 hJ (hc c hm)⟩) hd
        ⟨h₁.keeps _ _ hr, h.idle h₁.toIdle⟩
    exact ⟨h₂.keeps _ _ hdr.1, hdr.2.idle h₂.toIdle⟩
  · refine ⟨hr.relays (.ofClient hr.fresh.nodup) fun s i ⟨_, he⟩ => (nomatch he), ?_⟩
    refine openClientDatagram ?_ (fun s flowId hs => hJ s flowId data ?_) (hE addr)
    · exact h.idle (.of_same rfl rfl rfl)
    · exact hr.current_agent hs

variable {k : Creds}

lemma drainStart_session {addr : Addr} {hs : HsAns} {d : Ref × Plane}
    {x : Session} (h : drainStart cfg k addr data hs p = some d)
    (hx : p.sessions.find? (tmAddrEq ·.peer addr) = some x) : d.1 = x.ref := by
  unfold drainStart at h
  split_ifs at h
  rw [hx] at h
  obtain ⟨q, -, rfl⟩ := map_eq_some_iff.1 h
  rfl

lemma packet_of_callsOf (h : c ∈ callsOf cfg digest p l) :
    c.creds = l.creds ∧ ∃ addr data hs reads a, l.ev = .packet addr data hs reads a ∧
      (∃ r ∈ reads, r.1 = c.data) ∧
      ∀ x, p.sessions.find? (tmAddrEq ·.peer addr) = some x → c.session = x.ref := by
  obtain ⟨addr, data, hs, reads, a, d, hev, hd, hc⟩ := mem_callsOf h
  obtain ⟨hk, hs', -, hr⟩ := mem_drainCalls hc
  exact ⟨hk, addr, data, hs, reads, a, hev, hr, fun x hx => hs'.trans (drainStart_session hd hx)⟩

end Udp

namespace UdpWorld

open Udp (Carries Filled Queued Rightful answer)

variable {ι : Type} {bcfg : BrokerCfg} {acfg : AgentUdp.Cfg}
  {pcfg : ι → PeerUdp.Cfg} {digest : Bytes → Digest} {w w' : World ι} {k : ι} {c : Party ι}

lemma step_cases [DecidableEq ι] {l : Label ι} (h : step bcfg acfg pcfg digest w l = some w') :
    w.now ≤ l.now ∧ ((∃ ev c, l.ev = .pair ev ∧ w.agentMay ev = true ∧
        AgentUdp.handle bcfg acfg digest { w.toPair with now := l.now } l.now ev = some c ∧
        w' = w.setPair ev c) ∨
      ∃ k ev p, l.ev = .peer k ev ∧ w.peerMay k ev = true ∧
        PeerUdp.handle (pcfg k) (AgentUdp.endedSessions w.plane) l.now (w.peers k) ev = some p ∧
        w' = w.setPeer l.now k p) := by
  unfold step at h
  split_ifs at h with ht
  refine ⟨ht, ?_⟩
  cases hev : l.ev with
  | pair ev =>
    simp only [hev, handle] at h
    split_ifs at h with hm
    obtain ⟨c, hc, rfl⟩ := map_eq_some_iff.1 h
    exact .inl ⟨ev, c, rfl, hm, hc, rfl⟩
  | peer k ev =>
    simp only [hev, handle] at h
    split_ifs at h with hm
    obtain ⟨p, hp, rfl⟩ := map_eq_some_iff.1 h
    exact .inr ⟨k, ev, p, rfl, hm, hp, rfl⟩

/-! ## The sessions of the clients -/

namespace World

lemma peers_setPeer_self [DecidableEq ι] (w : World ι) (now : ℕ) (k : ι) (p : PeerUdp.App) :
    (w.setPeer now k p).peers k = p :=
  Function.update_self ..

lemma peers_setPeer_of_ne [DecidableEq ι] (w : World ι) (now : ℕ) {j k : ι} (p : PeerUdp.App)
    (hj : j ≠ k) : (w.setPeer now k p).peers j = w.peers j :=
  Function.update_of_ne hj ..

variable {bound : List (Ref × Party ι)} {x y : Option AgentUdp.Ssl}

lemma mem_newBound (hx : ∀ s, x.bind session = some s → (s, c) ∈ bound)
    (hy : y.bind session = some s) : (s, c) ∈ newBound c x y ++ bound := by
  unfold newBound
  split_ifs with he
  · exact hx s (he.symm.trans hy)
  · rw [hy]
    exact mem_cons_self

lemma nodup_newBound (hb : (bound.map Prod.fst).Nodup)
    (hy : ∀ s, y.bind session = some s → x.bind session = some s ∨ ∀ b ∈ bound, b.1 ≠ s) :
    ((newBound c x y ++ bound).map Prod.fst).Nodup := by
  unfold newBound
  split_ifs with he
  · exact hb
  cases hs : y.bind session with
  | none => exact hb
  | some s =>
    obtain hx | hn := hy s hs
    · exact absurd (hs.trans hx.symm) he
    · refine nodup_cons.2 ⟨fun hm => ?_, hb⟩
      obtain ⟨b, hm, hbs⟩ := mem_map.1 hm
      exact hn b hm hbs

end World

/-! ## The invariant -/

namespace World

def AgentSaid (acfg : AgentUdp.Cfg) (w : World ι) (env : Bytes) : Prop :=
  env = tmEnvEncode 0 tmEnvFlagAuthReq acfg.agentSecret ∨
    ∃ r ∈ w.served, r.flowId ≠ 0 ∧ r.flowId < 2 ^ 64 ∧ env = tmEnvEncode r.flowId 0 r.payload

/-- What the broker puts into a session: what the service sent, its answers to authentication
requests, and into the agent's session anything. -/
def Fair (w : World ι) (s : Ref) (q : Queued) : Prop :=
  (∀ r, q.reply = some r → r ∈ w.served) ∧
    (q.reply = none → (∃ flag, q = answer flag) ∨ (s, .agent) ∈ w.bound)

def Made (w : World ι) (e : ℕ × Udp.Endpoint) : Prop :=
  ∀ s i, e.2 = .peer s i → i < 2 ^ 64 ∧ ∃ k src, (s, .peer k) ∈ w.bound ∧ (e.1, k, src) ∈ w.caused

def Heard (w : World ι) (k : ι) (q : Queued) : Prop :=
  ∃ s, (s, .peer k) ∈ w.bound ∧ w.Fair s q ∧ Carries w.plane.assigned s q

def Causes (w : World ι) (e : ℕ × ι × Addr) : Prop :=
  ∃ s, ∃ d ∈ (w.peers e.2.1).taken, (e.1, .peer s d.flowId) ∈ w.plane.assigned ∧
    (s, .peer e.2.1) ∈ w.bound ∧ d.src = e.2.2

end World

structure Inv (acfg : AgentUdp.Cfg) (pcfg : ι → PeerUdp.Cfg) (w : World ι) : Prop where
  plane : Udp.Inv w.plane
  rightful :
    Rightful (fun s => (s, .agent) ∈ w.bound) (fun s => ∃ k, (s, .peer k) ∈ w.bound) w.plane
  filled : Filled w.Fair (fun l => ∀ e ∈ l, w.Made e) w.plane
  agent : AgentUdp.Says (w.AgentSaid acfg) (fun s => (s, .agent) ∈ w.bound) w.app
  peers : ∀ k, PeerUdp.Kept (pcfg k) (fun s => (s, .peer k) ∈ w.bound) (w.Heard k) (fun _ => False)
    (w.peers k)
  bound : (w.bound.map Prod.fst).Nodup
  caused : ∀ e ∈ w.caused, w.Causes e

structure Later (w w' : World ι) : Prop where
  bound : w.bound ⊆ w'.bound
  served : w.served ⊆ w'.served
  caused : w.caused ⊆ w'.caused
  assigned : w.plane.assigned ⊆ w'.plane.assigned
  taken : ∀ k, (w.peers k).taken ⊆ (w'.peers k).taken

variable {e : ℕ × ι × Addr} {ev : AgentUdp.Event} {now : ℕ} {p : PeerUdp.App}
variable {a : ℕ × Udp.Endpoint} {call : Udp.Call} {l : Udp.Label}

namespace Later

section

variable (h : Later w w')
include h

lemma agentSaid (env : Bytes) : w.AgentSaid acfg env → w'.AgentSaid acfg env :=
  .imp_right fun ⟨r, hr, he⟩ => ⟨r, h.served hr, he⟩

lemma fair (s : Ref) (q : Queued) (hq : w.Fair s q) : w'.Fair s q :=
  ⟨fun r hr => h.served (hq.1 r hr), fun hn => (hq.2 hn).imp_right fun hb => h.bound hb⟩

lemma made {e : ℕ × Udp.Endpoint} (he : w.Made e) : w'.Made e := by
  intro s i hs
  obtain ⟨hi, k, src, hb, hc⟩ := he s i hs
  exact ⟨hi, k, src, h.bound hb, h.caused hc⟩

lemma heard (k : ι) (q : Queued) (hq : w.Heard k q) : w'.Heard k q := by
  obtain ⟨s, hb, hf, hc⟩ := hq
  exact ⟨s, h.bound hb, h.fair s q hf, hc.mono h.assigned⟩

lemma causes (he : w.Causes e) : w'.Causes e := by
  obtain ⟨s, d, hd, ha, hb, hs⟩ := he
  exact ⟨s, d, h.taken _ hd, h.assigned ha, h.bound hb, hs⟩

end

end Later

namespace Inv

lemma later (h : Inv acfg pcfg w) (hl : Later w w') (hp : w'.plane = w.plane) : Udp.Inv w'.plane ∧
    Rightful (fun s => (s, .agent) ∈ w'.bound) (fun s => ∃ k, (s, .peer k) ∈ w'.bound) w'.plane ∧
    Filled w'.Fair (fun l => ∀ e ∈ l, w'.Made e) w'.plane := by
  rw [hp]
  refine ⟨h.plane, h.rightful.mono (fun s hs => hl.bound hs) fun s ⟨k, hs⟩ => ⟨k, hl.bound hs⟩, ?_⟩
  exact h.filled.mono hl.fair fun l hm e he => hl.made (hm e he)

lemma eq_of_bound (h : Inv acfg pcfg w) {c c' : Party ι} (hc : (s, c) ∈ w.bound)
    (hc' : (s, c') ∈ w.bound) : c = c' :=
  congrArg Prod.snd (inj_on_of_nodup_map h.bound hc hc' rfl)

lemma setPair_app (h : Inv acfg pcfg w) {a : AgentUdp.App} (hc : w.newCaused w.plane ev = [])
    (ha : AgentUdp.Says ({ w with served := w.newServed ev ++ w.served }.AgentSaid acfg)
      (fun s => w.app.ssl.bind session = some s ∨ w.Offers .agent s) a) :
    Inv acfg pcfg (w.setPair ev { w.toPair with app := a, now := now }) := by
  have hl : Later w (w.setPair ev { w.toPair with app := a, now := now }) :=
    ⟨subset_append_right _ _, subset_append_right _ _, subset_append_right _ _,
      .refl _, fun _ => .refl _⟩
  obtain ⟨hp, hr, hf⟩ := h.later hl rfl
  exact {
    plane := hp
    rightful := hr
    filled := hf
    agent := { ha with session := fun s hs => World.mem_newBound h.agent.session hs }
    peers := fun k => (h.peers k).rebase (fun s hs => hl.bound ((h.peers k).wire.session s hs))
      (hl.heard k) nofun
    bound := World.nodup_newBound h.bound fun s hs => (ha.session s hs).imp_right fun ho => ho.2.2
    caused := fun e he => by
      rw [World.setPair, hc] at he
      exact hl.causes (h.caused e he) }

lemma setPeer [DecidableEq ι] (h : Inv acfg pcfg w) (hp : PeerUdp.Kept (pcfg k)
      (fun s => (w.peers k).ssl.bind session = some s ∨ w.Offers (.peer k) s)
      (w.Heard k) (· ∈ (w.peers k).taken) p) : Inv acfg pcfg (w.setPeer now k p) := by
  have hl : Later w (w.setPeer now k p) := by
    refine ⟨subset_append_right _ _, .refl _, .refl _, .refl _, fun j => ?_⟩
    by_cases hj : j = k
    · subst hj
      rw [World.peers_setPeer_self]
      exact hp.tabled.old
    · rw [World.peers_setPeer_of_ne w now p hj]
      exact .refl _
  obtain ⟨hplane, hr, hf⟩ := h.later hl rfl
  exact {
    plane := hplane
    rightful := hr
    filled := hf
    agent := ⟨h.agent.mono hl.agentSaid fun s hs => hl.bound hs, h.agent.flows⟩
    peers := fun j => by
      by_cases hj : j = k
      · subst hj
        rw [World.peers_setPeer_self]
        exact hp.rebase (fun s hs => World.mem_newBound (h.peers j).wire.session hs) (hl.heard j)
          nofun
      · rw [World.peers_setPeer_of_ne w now p hj]
        exact (h.peers j).rebase (fun s hs => hl.bound ((h.peers j).wire.session s hs))
          (hl.heard j) nofun
    bound := World.nodup_newBound h.bound fun s hs =>
      (hp.wire.session s hs).imp_right fun ho => ho.2.2
    caused := fun e he => hl.causes (h.caused e he) }

end Inv

/-! ## The broker's events -/

section

variable (h : Inv acfg pcfg w)
include h

lemma Inv.taken_lt {d : PeerUdp.Taken} (hd : d ∈ (w.peers k).taken) :
    d.flowId ≠ 0 ∧ d.flowId < 2 ^ 64 := by
  obtain ⟨src, hc, -⟩ := (h.peers k).tabled.taken d hd
  exact (h.peers k).tabled.ids.ids _ hc

omit h in
lemma decode_of_authReq {e : Env} (h : Udp.authReq data = some e) :
    tmEnvDecode data = some e ∧ e.flags ≠ 0 := by
  unfold Udp.authReq at h
  split_ifs at h
  obtain ⟨hd, hf⟩ := filter_eq_some_iff.1 h
  refine ⟨hd, fun h0 => ?_⟩
  simp [h0] at hf

lemma Inv.agent_authReq {e : Env} (hd : some data ∈ w.app.sent) (he : Udp.authReq data = some e) :
    e.payload = acfg.agentSecret := by
  obtain ⟨hdec, hf⟩ := decode_of_authReq he
  obtain rfl | ⟨r, -, -, hlt, rfl⟩ := h.agent.sent data hd
  · rw [eq_of_decode_encode (by decide) hdec]
  · rw [eq_of_decode_encode hlt hdec] at hf
    exact absurd rfl hf

lemma Inv.agent_env {e : Env}
    (hd : some data ∈ w.app.sent) (he : tmEnvDecode data = some e) (h0 : e.flowId ≠ 0) :
    ⟨e.flowId, e.payload⟩ ∈ w.served := by
  obtain rfl | ⟨r, hr, -, hlt, rfl⟩ := h.agent.sent data hd
  · rw [eq_of_decode_encode (by decide) he] at h0
    exact absurd rfl h0
  · rw [eq_of_decode_encode hlt he]
    exact hr

lemma Inv.peer_authReq {e : Env}
    (hd : some data ∈ (w.peers k).sent) (he : Udp.authReq data = some e) :
    e.payload = (pcfg k).token := by
  obtain ⟨hdec, hf⟩ := decode_of_authReq he
  obtain rfl | rfl | ⟨d, hm, rfl⟩ := (h.peers k).wire.sent data hd
  · rw [eq_of_decode_encode (by decide) hdec]
  · rw [eq_of_decode_encode (by decide) hdec] at hf
    exact absurd rfl hf
  · rw [eq_of_decode_encode (h.taken_lt hm).2 hdec] at hf
    exact absurd rfl hf

lemma Inv.peer_env {e : Env}
    (hd : some data ∈ (w.peers k).sent) (he : tmEnvDecode data = some e) (h0 : e.flowId ≠ 0) :
    ∃ d ∈ (w.peers k).taken, d.flowId = e.flowId ∧ data = tmEnvEncode d.flowId 0 d.data := by
  obtain rfl | rfl | ⟨d, hm, rfl⟩ := (h.peers k).wire.sent data hd
  · rw [eq_of_decode_encode (by decide) he] at h0
    exact absurd rfl h0
  · rw [eq_of_decode_encode (by decide) he] at h0
    exact absurd rfl h0
  · exact ⟨d, hm, by rw [eq_of_decode_encode (h.taken_lt hm).2 he], rfl⟩

end

variable {reads : List (Bytes × Udp.PumpAns)}

lemma World.mem_causes :
    e ∈ w.causes reads a ↔ ∃ s k, ∃ d ∈ (w.peers k).taken, a.2 = .peer s d.flowId ∧
      (s, .peer k) ∈ w.bound ∧ (∃ r ∈ reads, r.1 = tmEnvEncode d.flowId 0 d.data) ∧
      e = (a.1, k, d.src) := by
  unfold World.causes
  constructor
  · intro h
    split at h
    · cases h
    rename_i s i ha
    obtain ⟨b, hb, h⟩ := mem_flatMap.1 h
    split at h
    · cases h
    rename_i k hk
    split_ifs at h with hs
    swap
    · cases h
    obtain ⟨d, hd, rfl⟩ := mem_map.1 h
    simp only [mem_filter, Bool.and_eq_true, decide_eq_true_eq, List.any_eq_true] at hd
    obtain ⟨hm, rfl, r, hr, he⟩ := hd
    refine ⟨s, k, d, hm, ha, ?_, ⟨r, hr, he⟩, rfl⟩
    rw [← hs, ← hk]
    exact hb
  · rintro ⟨s, k, d, hm, ha, hb, ⟨r, hr, he⟩, rfl⟩
    rw [ha]
    refine mem_flatMap.2 ⟨_, hb, ?_⟩
    dsimp only
    rw [if_pos rfl]
    refine mem_map.2 ⟨d, mem_filter.2 ⟨hm, ?_⟩, rfl⟩
    simp only [decide_true, Bool.true_and, List.any_eq_true, decide_eq_true_eq]
    exact ⟨r, hr, he⟩

/-- No credential is taken for one of another kind: the agent's secret is not the shared token, and
no peer's token is the agent's secret. -/
def Apart (acfg : AgentUdp.Cfg) (pcfg : ι → PeerUdp.Cfg) (digest : Bytes → Digest)
    (k : Udp.Creds) : Prop :=
  tmCtEqHex (toHex (digest acfg.agentSecret).toList) k.sharedTokenHmac = false ∧
    ∀ j, tmCtEqHex (toHex (digest (pcfg j).token).toList) k.agentSecretHmac = false

lemma not_fromHex {d h : Bytes} (hd : tmCtEqHex (toHex d) h = false) : fromHex h ≠ some d :=
  fun he => Bool.noConfusion (hd.symm.trans ((tmCtEqHex_toHex d h).2 he))

def World.Fresh (w : World ι) (reads : List (Bytes × Udp.PumpAns)) (e : ℕ × Udp.Endpoint) : Prop :=
  ∀ s i, e.2 = .peer s i → ∃ k, ∃ d ∈ (w.peers k).taken, d.flowId = i ∧ (s, .peer k) ∈ w.bound ∧
    ∃ r ∈ reads, r.1 = tmEnvEncode d.flowId 0 d.data

lemma bound_of_call (hm : w.agentMay (.broker l.loop l.creds l.ev) = true)
    (hc : call ∈ Udp.callsOf bcfg digest w.plane l) : (∃ r ∈ World.readsOf l.ev, r.1 = call.data) ∧
      ∃ c, (call.session, c) ∈ w.bound ∧ some call.data ∈ (w.client c).sent := by
  obtain ⟨-, addr, data, hs, reads, a, he, ⟨r, hr, hd⟩, hx⟩ := Udp.packet_of_callsOf hc
  rw [he] at hm ⊢
  refine ⟨⟨r, hr, hd⟩, ?_⟩
  obtain ⟨x, hfind, hb⟩ := (Option.any_eq_true ..).mp (List.all_eq_true.1 hm r hr)
  obtain ⟨b, hbm, hb⟩ := any_eq_true.1 hb
  obtain ⟨hbx, hsent⟩ := (Bool.and_eq_true ..).mp hb
  refine ⟨b.2, ?_, ?_⟩
  · rw [hx x hfind, ← of_decide_eq_true hbx]
    exact hbm
  · rw [← hd]
    exact contains_iff_mem.1 hsent

lemma Inv.fits (h : Inv acfg pcfg w)
    (hm : w.agentMay (.broker l.loop l.creds l.ev) = true) (ha : Apart acfg pcfg digest l.creds)
    (hc : call ∈ Udp.callsOf bcfg digest w.plane l) :
    call.Fits digest (fun s => (s, .agent) ∈ w.bound) (fun s => ∃ k, (s, .peer k) ∈ w.bound) w.Fair
      fun l' => ∃ new, l' = new ++ w.plane.assigned ∧
        ∀ e ∈ new, w.Fresh (World.readsOf l.ev) e := by
  obtain ⟨⟨r, hr, hrd⟩, c, hb, hsent⟩ := bound_of_call hm hc
  have hk := (Udp.packet_of_callsOf hc).1
  refine ⟨?_, ?_, fun flag => ⟨nofun, fun _ => .inl ⟨flag, rfl⟩⟩, ?_, ?_⟩
  · rintro ⟨e, he, hx⟩
    cases c with
    | agent => exact hb
    | peer j =>
      rw [h.peer_authReq hsent he, hk] at hx
      exact absurd hx (not_fromHex (ha.2 j))
  · rintro ⟨e, he, -, hx⟩
    cases c with
    | agent =>
      rw [h.agent_authReq hsent he, hk] at hx
      exact absurd hx (not_fromHex ha.1)
    | peer j => exact ⟨j, hb⟩
  · intro hA e he h0 s i
    obtain rfl := h.eq_of_bound hb hA
    refine ⟨?_, nofun⟩
    rintro _ ⟨⟩
    exact h.agent_env hsent he h0
  · rintro ⟨j, hP⟩ e he h0 i l' ⟨new, rfl, hnew⟩
    obtain rfl := h.eq_of_bound hb hP
    obtain ⟨d, hd, hid, hdata⟩ := h.peer_env hsent he h0
    refine ⟨_ :: new, rfl, forall_mem_cons.2 ⟨?_, hnew⟩⟩
    rintro _ _ ⟨⟩
    exact ⟨j, d, hd, hid, hb, r, hr, hrd.trans hdata⟩

lemma World.newCaused_append {p : Udp.Plane} {new : List (ℕ × Udp.Endpoint)}
    (he : p.assigned = new ++ w.plane.assigned) (loop : ℕ) (k : Udp.Creds) (ev : Udp.Event) :
    w.newCaused p (.broker loop k ev) = new.flatMap (w.causes (World.readsOf ev)) := by
  simp [World.newCaused, he]

lemma Inv.made_of_fresh (h : Inv acfg pcfg w) (hl : Later w w')
    {e : ℕ × Udp.Endpoint} (he : w.Fresh reads e)
    (hc : w.causes reads e ⊆ w'.caused) : w'.Made e := by
  intro s i hep
  obtain ⟨k, d, hd, rfl, hb, hr⟩ := he s i hep
  exact ⟨(h.taken_lt hd).2, k, d.src, hl.bound hb,
    hc (World.mem_causes.2 ⟨s, k, d, hd, hep, hb, hr, rfl⟩)⟩

lemma Later.causes_of_mem (hl : Later w w') (ha : a ∈ w'.plane.assigned)
    (he : e ∈ w.causes reads a) : w'.Causes e := by
  obtain ⟨s, k, d, hd, hep, hb, -, rfl⟩ := World.mem_causes.1 he
  refine ⟨s, d, hl.taken k hd, ?_, hl.bound hb, rfl⟩
  rw [← hep]
  exact ha

lemma Inv.setPair_plane (h : Inv acfg pcfg w) {p : Udp.Plane}
    (hm : w.agentMay (.broker l.loop l.creds l.ev) = true) (ha : Apart acfg pcfg digest l.creds)
    (hs : Udp.step bcfg digest w.plane l = some p) (now : ℕ) : Inv acfg pcfg
      (w.setPair (.broker l.loop l.creds l.ev) { w.toPair with plane := p, now := now }) := by
  obtain ⟨hr, hf⟩ := Filled.step hs h.rightful
    (E := fun l' => ∃ new, l' = new ++ w.plane.assigned ∧ ∀ e ∈ new, w.Fresh (World.readsOf l.ev) e)
    { h.filled with assigned := ⟨[], rfl, nofun⟩ }
    (fun s _ _ hs => ⟨nofun, fun _ => .inr hs⟩)
    (fun addr i l' ⟨new, he, hnew⟩ => ⟨_ :: new, congrArg _ he, forall_mem_cons.2 ⟨nofun, hnew⟩⟩)
    fun c hc => h.fits hm ha hc
  obtain ⟨new, he, hnew⟩ := hf.assigned
  set w' := w.setPair (.broker l.loop l.creds l.ev) { w.toPair with plane := p, now := now } with hw
  have hcaused : w'.caused = new.flatMap (w.causes (World.readsOf l.ev)) ++ w.caused := by
    rw [← World.newCaused_append he l.loop l.creds l.ev]
    rfl
  have hassigned : w'.plane.assigned = new ++ w.plane.assigned := he
  have hl : Later w w' := by
    refine ⟨subset_append_right _ _, subset_append_right _ _,
      subset_append_right _ _, ?_, fun _ => .refl _⟩
    rw [hassigned]
    exact subset_append_right _ _
  exact {
    plane := h.plane.step hs
    rightful := hr.mono (fun s hs => hl.bound hs) fun s ⟨k, hs⟩ => ⟨k, hl.bound hs⟩
    filled := { hf.mono hl.fair (fun _ => id) with
      assigned := by
        rw [hassigned]
        refine forall_mem_append.2 ⟨fun e hm => ?_, fun e hm => hl.made (h.filled.assigned e hm)⟩
        refine h.made_of_fresh hl (hnew e hm) fun c hc => ?_
        rw [hcaused]
        exact mem_append_left _ (mem_flatMap.2 ⟨e, hm, hc⟩) }
    agent := ⟨h.agent.mono hl.agentSaid fun s hs => hl.bound hs, h.agent.flows⟩
    peers := fun k => (h.peers k).rebase (fun s hs => hl.bound ((h.peers k).wire.session s hs))
      (hl.heard k) nofun
    bound := World.nodup_newBound h.bound fun _ hs => .inl hs
    caused := by
      rw [hcaused]
      refine forall_mem_append.2 ⟨fun e hm => ?_, fun e hm => hl.causes (h.caused e hm)⟩
      obtain ⟨a, hn, hc⟩ := mem_flatMap.1 hm
      refine hl.causes_of_mem ?_ hc
      rw [hassigned]
      exact mem_append_left _ hn }

/-! ## Whole runs -/

def Event.creds : Event ι → Option Udp.Creds
  | .pair (.broker _ k _) => some k
  | _ => none

namespace Inv

variable {r : ι → PeerUdp.StartAns}

lemma init (hi : Init r w) : Inv acfg pcfg w := by
  obtain ⟨hw, hp⟩ := hi
  rw [hw]
  exact {
    plane := .init
    rightful := .init
    filled := .init nofun
    agent := .init
    peers := fun k => .init (hp k)
    bound := nodup_nil
    caused := nofun }

section

variable (h : Inv acfg pcfg w)
include h

lemma wire_app (ev : AgentUdp.Event) :
    AgentUdp.Says ({ w with served := w.newServed ev ++ w.served }.AgentSaid acfg)
      (fun s => w.app.ssl.bind session = some s ∨ w.Offers .agent s) w.app :=
  { h.agent.mono (fun _ => Or.imp_right fun ⟨r, hr, he⟩ => ⟨r, mem_append_right _ hr, he⟩)
      fun _ => id with
    session := fun _ hs => .inl hs
    flows := h.agent.flows }

lemma pair {c : AgentUdp.Pair} (hm : w.agentMay ev = true)
    (ha : ∀ k ∈ (Event.pair ev : Event ι).creds, Apart acfg pcfg digest k)
    (hs : AgentUdp.handle bcfg acfg digest { w.toPair with now := now } now ev = some c) :
    Inv acfg pcfg (w.setPair ev c) := by
  have hwire := h.wire_app ev
  cases ev with
  | broker loop creds bev =>
    obtain ⟨p, hp, rfl⟩ := map_eq_some_iff.1 hs
    exact h.setPair_plane (l := ⟨now, loop, creds, bev⟩) hm (ha creds rfl) hp now
  | udpStart addr ok recs =>
    cases hs
    exact h.setPair_app rfl (hwire.udpStart addr ok recs _)
  | udpRecv =>
    obtain ⟨-, rfl⟩ := of_guard hs
    refine h.setPair_app rfl (hwire.acts (AgentUdp.acts_udpRecv (.inl rfl) fun x hx hf => .inr ?_))
    simpa [World.agentMay, World.mayFinish, World.client, hx, hf] using hm
  | flowRecv flowId data =>
    cases hs
    refine h.setPair_app rfl (hwire.acts (AgentUdp.acts_flowRecv fun f hf hid =>
      .inr ⟨⟨flowId, data⟩, ?_, ?_, ?_, rfl⟩))
    · have hany : w.app.udpFlows.any (·.flowId = flowId) = true :=
        any_eq_true.2 ⟨f, hf, decide_eq_true hid⟩
      simp [World.newServed, hany]
    · exact hid ▸ (h.agent.flows f hf).1
    · exact hid ▸ (h.agent.flows f hf).2
  | flowSweep =>
    cases hs
    exact h.setPair_app rfl (hwire.acts AgentUdp.acts_flowSweep)
  | udpStop =>
    cases hs
    exact h.setPair_app rfl (hwire.acts AgentUdp.acts_udpStop)

lemma heard_of_mayRead {x : AgentUdp.Ssl} {reads : List Queued}
    (hx : (w.peers k).ssl = some x) (hf : x.initFinished = true) (hm : w.mayRead k reads = true) :
    ∀ q ∈ reads, w.Heard k q := by
  intro q hq
  simp only [World.mayRead, hx, hf, Bool.not_true, Bool.false_or, List.all_eq_true,
    List.any_eq_true, Bool.and_eq_true, decide_eq_true_eq] at hm
  obtain ⟨o, ho, hos, hob⟩ := hm q hq
  have hd := h.plane.sent o ho
  simp only [Udp.Delivered, hob] at hd
  obtain ⟨s, hs, -, hc⟩ := hd
  have hxs : (w.peers k).ssl.bind session = some s := by
    rw [hx]
    exact hos.symm.trans hs
  exact ⟨s, (h.peers k).wire.session s hxs, h.filled.sent o ho s q hs hob, hc q rfl⟩

lemma peer [DecidableEq ι] {ev : PeerUdp.Event} (hm : w.peerMay k ev = true)
    (hs : PeerUdp.handle (pcfg k) (AgentUdp.endedSessions w.plane) now (w.peers k) ev = some p) :
    Inv acfg pcfg (w.setPeer now k p) := by
  refine h.setPeer (.handle ?_ hs ?_ ?_)
  · exact (h.peers k).rebase (fun s hs => .inl hs) (fun _ => id) fun _ => id
  · rintro hsa s reads ans rfl x hx hf
    obtain ⟨hfin, -⟩ := (Bool.and_eq_true ..).mp hm
    refine .inr ?_
    simpa [World.mayFinish, World.client, hx, hf] using hfin
  · rintro hsa s reads ans rfl x hx hf
    exact h.heard_of_mayRead hx hf ((Bool.and_eq_true ..).mp hm).2

lemma step [DecidableEq ι] {l : Label ι} (ha : ∀ k ∈ l.ev.creds, Apart acfg pcfg digest k)
    (hs : step bcfg acfg pcfg digest w l = some w') : Inv acfg pcfg w' := by
  obtain ⟨-, ⟨ev, c, he, hm, hc, rfl⟩ | ⟨k, ev, p, -, hm, hp, rfl⟩⟩ := step_cases hs
  · rw [he] at ha
    exact h.pair hm ha hc
  · exact h.peer hm hp

end

lemma of_trace [DecidableEq ι] {tr : List (World ι × Label ι)}
    (h : Trace (UdpWorld.step bcfg acfg pcfg digest) (Init r) tr w)
    (ha : ∀ q ∈ tr, ∀ k ∈ q.2.ev.creds, Apart acfg pcfg digest k) : Inv acfg pcfg w :=
  h.inv_of_ok (fun _ => init) (fun _ _ _ hi hok hs => .step hi hok hs) ha

end Inv

/-! ## Deliveries -/

/-- No two applications that `tm_addr_eq` takes for one send to the same peer: who sends under a
flow is who the flow was made for. -/
def World.Told (w : World ι) : Prop :=
  ∀ k, ∀ e ∈ (w.peers k).created, ∀ d ∈ (w.peers k).taken, tmAddrEq e.2 d.src = true → e.2 = d.src

lemma Inv.heard_reply (h : Inv acfg pcfg w) {q : Queued} {e : Env} (hq : w.Heard k q)
    (he : tmEnvDecode q.env = some e) (h0 : e.flowId ≠ 0) :
    ∃ r ∈ w.served, q.reply = some r ∧ ∃ s, (r.flowId, .peer s e.flowId) ∈ w.plane.assigned ∧
      (s, .peer k) ∈ w.bound ∧ e.payload = r.payload := by
  obtain ⟨s, hb, ⟨hserved, hnone⟩, hc⟩ := hq
  cases hr : q.reply with
  | none =>
    obtain ⟨flag, rfl⟩ | hb' := hnone hr
    · rw [eq_of_decode_encode (by decide) he] at h0
      exact absurd rfl h0
    · cases h.eq_of_bound hb hb'
  | some r =>
    obtain ⟨i, hm, henv⟩ := hc r hr
    obtain ⟨hi, -⟩ := h.filled.assigned _ hm s i rfl
    rw [henv] at he
    obtain rfl := eq_of_decode_encode hi he
    exact ⟨r, hserved r hr, rfl, s, hm, hb, rfl⟩

lemma Inv.cause_unique (h : Inv acfg pcfg w) (ht : w.Told)
    (hb : w.plane.assigned.length < 2 ^ 64) (hp : ∀ k, (w.peers k).created.length < 2 ^ 64)
    {flow i : ℕ} {dst : Addr} (hm : (flow, .peer s i) ∈ w.plane.assigned)
    (hs : (s, .peer k) ∈ w.bound) (hc : (i, dst) ∈ (w.peers k).created) :
    ∀ c ∈ w.caused, c.1 = flow → c.2 = (k, dst) := by
  rintro ⟨_, k', src⟩ hcm rfl
  obtain ⟨s', d, hd, hm', hs', rfl⟩ := h.caused _ hcm
  -- the flow was given out once, so both are about one session and one id of its peer
  obtain ⟨-, hn, -⟩ := h.plane.counted hb
  cases inj_on_of_nodup_map hn hm hm' rfl
  obtain rfl := Party.peer.inj (h.eq_of_bound hs' hs)
  -- and the peer gave its id out once
  obtain ⟨src, hc', he⟩ := (h.peers k').tabled.taken d hd
  obtain ⟨-, hn, -⟩ := (h.peers k').tabled.ids.counted (hp k')
  cases inj_on_of_nodup_map hn hc hc' rfl
  obtain rfl | he := he
  · rfl
  · exact congrArg (Prod.mk k') (ht k' _ hc' d hd he).symm

/-- As long as no flow id wraps, the credentials are apart and no two applications of a peer are
taken for one, what a peer delivers goes to the application whose datagram made the broker open its
flow. -/
theorem replies_reach_cause [DecidableEq ι] {r : ι → PeerUdp.StartAns}
    {tr : List (World ι × Label ι)} (h : Trace (step bcfg acfg pcfg digest) (Init r) tr w)
    (ha : ∀ q ∈ tr, ∀ k ∈ q.2.ev.creds, Apart acfg pcfg digest k) (ht : w.Told)
    (hb : w.plane.assigned.length < 2 ^ 64) (hp : ∀ k, (w.peers k).created.length < 2 ^ 64) :
    ∀ k, ∀ d ∈ (w.peers k).delivered, ∃ r ∈ w.served, d.reply = some r ∧ d.payload = r.payload ∧
      (r.flowId, k, d.dst) ∈ w.caused ∧ ∀ c ∈ w.caused, c.1 = r.flowId → c.2 = (k, d.dst) := by
  intro k d hd
  have hi := Inv.of_trace h ha
  obtain ⟨hc, q, hq, hreply, hdec⟩ := (hi.peers k).tabled.delivered d hd
  have h0 : d.flowId ≠ 0 := ((hi.peers k).tabled.ids.ids _ hc).1
  obtain ⟨r, hr, hqr, s, hm, hs, hpay⟩ := hi.heard_reply hq hdec h0
  have hu := hi.cause_unique ht hb hp hm hs hc
  obtain ⟨-, k', src, -, hcm⟩ := hi.filled.assigned _ hm s _ rfl
  refine ⟨r, hr, hreply.symm.trans hqr, hpay, ?_, hu⟩
  rw [← hu _ hcm rfl]
  exact hcm

section Runs

open Udp (closedCreds headDigest whole)
open AgentUdp (agentAddr)

def agentCfg : AgentUdp.Cfg := { agentSecret := [1] }

def peerCfg (_ : Unit) : PeerUdp.Cfg := { token := [2] }

def peerAddr : Addr := { family := .inet, ip := [10, 0, 0, 3], port := 7000 }

def linkLocal (scope : ℕ) : Addr :=
  { family := .inet6, ip := 0xfe :: 0x80 :: .replicate 13 0 ++ [7], port := 5000,
    scope := scope }

def reaches (addr : Addr) (hs : Udp.HsAns) (envs : List Bytes) : Label Unit :=
  ⟨0, .pair (.broker 0 closedCreds (.packet addr (22 :: 0xfe :: .replicate 11 0xfd) hs
    (envs.map fun e => (e, whole)) whole))⟩

def sendDone (s : Ref) : Label Unit :=
  ⟨0, .pair (.broker 0 closedCreds (.sendDone (some s) whole))⟩

def agentDoes (ev : AgentUdp.Event) : Label Unit := ⟨0, .pair ev⟩

def peerDoes (ev : PeerUdp.Event) : Label Unit := ⟨0, .peer () ev⟩

def agentShakes : List (Label Unit) :=
  [agentDoes (.udpStart agentAddr true 1 []), reaches agentAddr (.want 1) [], sendDone 0,
   agentDoes (.udpRecv (.want 1) 0 [] []), reaches agentAddr (.done 1) [], sendDone 0,
   agentDoes (.udpRecv (.done 0) 0 [] [.whole])]

def peerShakes : List (Label Unit) :=
  [reaches peerAddr (.want 1) [], sendDone 1,
   peerDoes (.udpRecv (.want 1) 1 [] []), reaches peerAddr (.done 1) [], sendDone 1,
   peerDoes (.udpRecv (.done 0) 1 [] [.whole]),
   reaches peerAddr (.want 0) [tmEnvEncode 0 tmEnvFlagAuthReq [2]], sendDone 1]

def bothAuthenticate : List (Label Unit) :=
  agentShakes ++
    [reaches agentAddr (.want 0) [tmEnvEncode 0 tmEnvFlagAuthReq [1]], sendDone 0,
     agentDoes (.udpRecv (.want 0) 0 [(tmEnvEncode 0 tmEnvFlagAuthOk [], true)] [])] ++
    peerShakes ++ [peerDoes (.udpRecv (.want 0) 1 [Udp.answer tmEnvFlagAuthOk] [])]

def exchange (src src' : Addr) : List (Label Unit) :=
  [peerDoes (.localRecv src [1] [.whole]), peerDoes (.localRecv src' [2] [.whole]),
   reaches peerAddr (.want 0) [tmEnvEncode 1 0 [2]], sendDone 0,
   agentDoes (.udpRecv (.want 0) 0 [(tmEnvEncode 1 0 [2], true)] []),
   agentDoes (.flowRecv 1 [9] [.whole]),
   reaches agentAddr (.want 0) [tmEnvEncode 1 0 [9]], sendDone 1,
   peerDoes (.udpRecv (.want 0) 1 [⟨tmEnvEncode 1 0 [9], some ⟨1, [9]⟩⟩] [])]

def started : World Unit := { peers := fun _ => PeerUdp.tmPeerUdpStart (.ok peerAddr 1) [] {} }

lemma init_started : Init (fun _ => .ok peerAddr 1) started := ⟨rfl, fun _ => ⟨[], 30000, [], rfl⟩⟩

lemma apart_closedCreds : Apart agentCfg peerCfg headDigest closedCreds := by
  refine ⟨by decide, fun j => ?_⟩
  change tmCtEqHex (toHex (headDigest [2]).toList) closedCreds.agentSecretHmac = false
  decide

theorem replies_reach_cause_one : ∃ tr w,
    Trace (step {} agentCfg peerCfg headDigest) (Init fun _ => .ok peerAddr 1) tr w ∧
    (∀ q ∈ tr, ∀ k ∈ q.2.ev.creds, Apart agentCfg peerCfg headDigest k) ∧ w.Told ∧
    (w.peers ()).delivered.map PeerUdp.Delivery.dst = [linkLocal 1] ∧
    ∀ d ∈ (w.peers ()).delivered, ∃ r ∈ w.served, d.reply = some r ∧
      (r.flowId, (), d.dst) ∈ w.caused := by
  obtain ⟨tr, w, h, hk, ht, hb, hp, hd⟩ := exists_trace
    (step {} agentCfg peerCfg headDigest) (Init fun _ => .ok peerAddr 1) init_started
    (bothAuthenticate ++ exchange (linkLocal 1) (linkLocal 1))
    (fun r => (∀ q ∈ r.1, ∀ k ∈ q.2.ev.creds, k = closedCreds) ∧
      (∀ e ∈ (r.2.peers ()).created, ∀ d ∈ (r.2.peers ()).taken,
        tmAddrEq e.2 d.src = true → e.2 = d.src) ∧
      r.2.plane.assigned.length < 2 ^ 64 ∧ (r.2.peers ()).created.length < 2 ^ 64 ∧
      (r.2.peers ()).delivered.map PeerUdp.Delivery.dst = [linkLocal 1]) (by decide)
  have ha : ∀ q ∈ tr, ∀ k ∈ q.2.ev.creds, Apart agentCfg peerCfg headDigest k := by
    intro q hq k hkm
    rw [hk q hq k hkm]
    exact apart_closedCreds
  have ht' : w.Told := fun _ => ht
  refine ⟨tr, w, h, ha, ht', hd, fun d hm => ?_⟩
  obtain ⟨r, hr, hreply, -, hc, -⟩ := replies_reach_cause h ha ht' hb (fun _ => hp) () d hm
  exact ⟨r, hr, hreply, hc⟩

/-- Two applications have the same link-local address on two links: the answer to the second one's
datagram goes to the first. -/
theorem reply_reaches_other_link : ∃ tr w,
    Trace (step {} agentCfg peerCfg headDigest) (Init fun _ => .ok peerAddr 1) tr w ∧
    (∀ q ∈ tr, ∀ k ∈ q.2.ev.creds, Apart agentCfg peerCfg headDigest k) ∧
    w.served = [⟨1, [9]⟩] ∧ w.caused = [(1, (), linkLocal 2)] ∧
    (w.peers ()).delivered = [⟨1, linkLocal 1, [9], some ⟨1, [9]⟩⟩] := by
  obtain ⟨tr, w, h, hk, hw⟩ := exists_trace
    (step {} agentCfg peerCfg headDigest) (Init fun _ => .ok peerAddr 1) init_started
    (bothAuthenticate ++ exchange (linkLocal 1) (linkLocal 2))
    (fun r => (∀ q ∈ r.1, ∀ k ∈ q.2.ev.creds, k = closedCreds) ∧ r.2.served = [⟨1, [9]⟩] ∧
      r.2.caused = [(1, (), linkLocal 2)] ∧
      (r.2.peers ()).delivered = [⟨1, linkLocal 1, [9], some ⟨1, [9]⟩⟩]) (by decide)
  refine ⟨tr, w, h, fun q hq k hkm => ?_, hw⟩
  rw [hk q hq k hkm]
  exact apart_closedCreds

end Runs

end UdpWorld

end TunnelMate
