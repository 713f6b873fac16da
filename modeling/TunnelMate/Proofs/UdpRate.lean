import TunnelMate.Lib.RateWindow
import TunnelMate.Proofs.UdpAuth
import TunnelMate.Proofs.UdpFlows

/-!
# How much one source may send

A session of a peer has its own packet window, and what passes it is bounded in every interval
(`RateWindow`).
-/

namespace TunnelMate.Udp

open List Option Table Bool Nat

open RateWindow (Limited)

/-! ## What is forwarded -/

def toAgent (p p' : Plane) : Bool :=
  p.agentSession.any fun y => p.sessions.any fun x => x.ref = y &&
    p'.sessions.any fun x' => x'.ref = y && x'.link ≠ x.link

section

variable (cfg : BrokerCfg) (digest : Bytes → Digest)

def forwarded (src : Addr) (p : Plane) (l : Label) : ℕ :=
  match l.ev with
  | .packet addr data _ _ _ =>
    if !tmAddrEq addr src then 0
    else if !l.creds.closed && !looksLikeDtls data then
      if (step cfg digest p l).any (toAgent p) then 1 else 0
    else (callsOf cfg digest p l).countP fun c => toAgent c.plane (c.after cfg digest)
  | _ => 0

def during (t : ℕ) (e : Plane × Label) : Bool := t ≤ e.2.now && e.2.now ≤ t + 1000

def forwardedIn (src : Addr) (t : ℕ) (tr : List (Plane × Label)) : ℕ :=
  ((tr.filter (during t)).map fun e => forwarded cfg digest src e.1 e.2).sum

end

def envelope (data : Bytes) : Option Env :=
  if data.length < tmEnvHdrLen ∨ data.getD 0 0 ≠ 0 then none else tmEnvDecode data

def Call.admitted (cfg : BrokerCfg) (c : Call) : Bool :=
  (get c.session c.plane.sessions).any fun x =>
    x.authenticated && !x.isAgent && (envelope c.data).isSome &&
      (rateCheck cfg.udpMaxPacketsPerSource c.plane.now x.pktWin).1

def times (cfg : BrokerCfg) (s : Ref) (cs : List Call) : List ℕ :=
  (cs.filter fun c => c.session = s && c.admitted cfg).map (·.plane.now)

/-! ## What leaves the packet windows alone -/

variable {c : Call} {limit : ℤ} {w : Window}

section Windows

variable {cfg : BrokerCfg} {digest : Bytes → Digest} {p p' : Plane} {s : Ref} {a : PumpAns}

namespace Wins

lemma acts (ha : Acts cfg (fun _ => True) (fun _ => True) (fun _ => True) p p') : Wins p p' := by
  induction ha with
  | refl => exact refl
  | tail _ ha ih =>
    refine ih.trans ?_
    cases ha with
    | count | touch => exact .of_same le_rfl rfl
    | flow => exact .of_same (le_succ _) rfl
    | toAgent | toPeer => exact sessionQueue _
    | toClient => exact udpSendRaw

lemma authAccept (isAgent : Bool) : Wins p (authAccept s isAgent p) := by
  have hu : Wins p (p.upd s fun x => { x with authenticated := true, isAgent := isAgent }) :=
    .upd fun x hx _ => ⟨x, hx, rfl, rfl⟩
  unfold Udp.authAccept
  dsimp only
  split_ifs
  · refine hu.trans ?_
    split
    · exact .of_same le_rfl rfl
    · split_ifs
      · exact .of_same le_rfl rfl
      · exact (close _).trans (.of_same le_rfl rfl)
  · exact hu

end Wins

variable {x : Session}

section

variable (hx : get c.session c.plane.sessions = some x)
include hx

variable (cfg digest) in
lemma after_of_authenticated (hu : x.authenticated = true) :
    (envelope c.data = none ∧ ∃ k, c.after cfg digest = { c.plane with ctr := k }) ∨
    ∃ e, envelope c.data = some e ∧ c.after cfg digest =
      if x.isAgent then agentSessionEnv cfg e c.ans c.plane
      else peerSessionEnv cfg x e c.ans c.plane := by
  unfold Call.after sessionAppdata envelope
  simp only [hx, hu, Bool.not_true, false_eq_true, if_false]
  by_cases hd : c.data.length < tmEnvHdrLen ∨ c.data.getD 0 0 ≠ 0
  · rw [if_pos hd, if_pos hd]
    exact .inl ⟨rfl, _, rfl⟩
  rw [if_neg hd, if_neg hd]
  cases he : tmEnvDecode c.data with
  | none => exact .inl ⟨rfl, _, rfl⟩
  | some e => exact .inr ⟨e, rfl, rfl⟩

lemma wins_new (hu : x.authenticated = false) : Wins c.plane (c.after cfg digest) := by
  unfold Call.after sessionAppdata
  simp only [hx, hu, Bool.not_false, if_true]
  split
  · exact .of_same le_rfl rfl
  split_ifs
  · refine .trans ?_ (.sessionQueue _)
    exact .of_same le_rfl rfl
  · exact (Wins.authAccept _).trans (.sessionQueue _)

end

lemma rateCheck_cases (hl : 0 < limit) (now : ℕ) (w : Window) :
    (1000 ≤ now - w.start ∧ rateCheck limit now w = (true, ⟨now, 1⟩)) ∨
    (now - w.start < 1000 ∧ limit ≤ w.count ∧ rateCheck limit now w = (false, w)) ∨
    (now - w.start < 1000 ∧ w.count < limit ∧
      rateCheck limit now w = (true, { w with count := w.count + 1 })) := by
  unfold rateCheck
  rw [if_neg (by omega)]
  by_cases hn : now - w.start ≥ 1000
  · simp only [if_pos hn]
    rw [if_neg (by simpa using hl)]
    exact .inl ⟨hn, rfl⟩
  simp only [if_neg hn]
  by_cases hc : w.count ≥ limit
  · rw [if_pos hc]
    exact .inr (.inl ⟨by omega, hc, rfl⟩)
  · rw [if_neg hc]
    exact .inr (.inr ⟨by omega, by omega, rfl⟩)

lemma rateCheck_refused {now : ℕ}
    (h : (rateCheck limit now w).1 = false) : (rateCheck limit now w).2 = w := by
  by_cases hl : 0 < limit
  · obtain ⟨-, he⟩ | ⟨-, -, he⟩ | ⟨-, -, he⟩ := rateCheck_cases hl now w
    · simp [he] at h
    · rw [he]
    · simp [he] at h
  · simp [rateCheck, show limit ≤ 0 by omega] at h

lemma peerSessionEnv_refused {e : Env} (hx : x ∈ p.sessions)
    (h : (rateCheck cfg.udpMaxPacketsPerSource p.now x.pktWin).1 = false) :
    Wins p (peerSessionEnv cfg x e a p) ∧
      Relays (fun _ => False) False (fun _ => False) p (peerSessionEnv cfg x e a p) := by
  have hu : Wins p (p.upd x.ref fun y => { y with
      pktWin := (rateCheck cfg.udpMaxPacketsPerSource p.now x.pktWin).2 }) :=
    .upd fun y _ he => ⟨x, hx, he.symm, rateCheck_refused h⟩
  have hr : Relays (fun _ => False) False (fun _ => False) p (p.upd x.ref fun y => { y with
      pktWin := (rateCheck cfg.udpMaxPacketsPerSource p.now x.pktWin).2 }) :=
    .upd (fun _ _ _ => rfl) fun _ _ _ _ => rfl
  unfold Udp.peerSessionEnv
  simp only [h, Bool.not_false, if_true]
  exact ⟨hu.trans (.of_same le_rfl rfl), hr.trans (.ctr _)⟩

variable (digest) in
lemma wins_refused (h : c.admitted cfg = false) : Wins c.plane (c.after cfg digest) := by
  cases hx : get c.session c.plane.sessions with
  | none =>
    have he : c.after cfg digest = c.plane := by
      unfold Call.after sessionAppdata
      rw [hx]
    rw [he]
    exact .refl
  | some x =>
  cases hu : x.authenticated with
  | false => exact wins_new hx hu
  | true =>
  obtain ⟨-, k, he⟩ | ⟨e, hd, he⟩ := after_of_authenticated cfg digest hx hu
  · rw [he]
    exact .of_same le_rfl rfl
  · rw [he]
    cases hi : x.isAgent with
    | true => exact .acts (acts_agentSessionEnv fun _ => trivial)
    | false =>
      have hr : (rateCheck cfg.udpMaxPacketsPerSource c.plane.now x.pktWin).1 = false := by
        simpa [Call.admitted, hx, hu, hi, hd] using h
      exact (peerSessionEnv_refused (mem_of_get hx) hr).1

variable (digest) in
lemma wins_admitted (h : c.admitted cfg = true) :
    ∃ x, get c.session c.plane.sessions = some x ∧
      (rateCheck cfg.udpMaxPacketsPerSource c.plane.now x.pktWin).1 = true ∧
      Wins (c.plane.upd x.ref fun y => { y with
        pktWin := (rateCheck cfg.udpMaxPacketsPerSource c.plane.now x.pktWin).2 })
        (c.after cfg digest) := by
  obtain ⟨x, hx, hc⟩ := (any_eq_true _ _).1 h
  simp only [and_eq_true, not_eq_true'] at hc
  obtain ⟨⟨⟨hu, hi⟩, hd⟩, hr⟩ := hc
  refine ⟨x, hx, hr, ?_⟩
  obtain ⟨hn, -⟩ | ⟨e, -, he⟩ := after_of_authenticated cfg digest hx hu
  · simp [hn] at hd
  · rw [he, hi]
    exact .acts (acts_peerSessionEnv (fun _ => trivial) fun _ => trivial)

section

variable (h : Rightful (fun _ => True) (fun _ => True) c.plane)
include h

section

variable (ht : toAgent c.plane (c.after cfg digest) = true)
include ht

lemma peer_of_toAgent :
    ∃ y x, c.Gives cfg digest y ∧ get c.session c.plane.sessions = some x ∧
      x.authenticated = true ∧ x.isAgent = false := by
  obtain ⟨y, hy, ht⟩ := (any_eq_true _ _).1 ht
  obtain ⟨x, hx, ht⟩ := any_eq_true.1 ht
  obtain ⟨hxy, ht⟩ := and_eq_true_iff.1 ht
  obtain ⟨x', hx', ht⟩ := any_eq_true.1 ht
  obtain ⟨hxy', hl⟩ := and_eq_true_iff.1 ht
  have hg : c.Gives cfg digest y :=
    .inl ⟨x, hx, of_decide_eq_true hxy, x', hx', of_decide_eq_true hxy', of_decide_eq_true hl⟩
  have hp : Rightful (fun _ => True)
      (fun s => ∃ r ∈ c.plane.roles, r.ref = s ∧ r.authenticated = true ∧ r.isAgent = false)
      c.plane := { h with peer := fun r hr ha hi => ⟨r, hr, rfl, ha, hi⟩ }
  obtain ⟨r, hr, hrs, ha, hi⟩ := (Call.sound hp).toAgent y hy hg
  obtain ⟨z, hz, rfl⟩ := mem_map.1 hr
  exact ⟨y, z, hg, hrs ▸ get_of_mem h.fresh.nodup hz, ha, hi⟩

lemma admitted_of_toAgent : c.admitted cfg = true := by
  obtain ⟨y, x, hg, hx, hu, hi⟩ := peer_of_toAgent h ht
  have some_relay : ¬ Relays (fun _ => False) False (fun _ => False) c.plane (c.after cfg digest) :=
    fun hr => hr.gives h.fresh.nodup rfl (fun x hx => ⟨x, hx, rfl, rfl⟩) hg
  obtain ⟨-, k, he⟩ | ⟨e, hd, he⟩ := after_of_authenticated cfg digest hx hu
  · exact absurd (he ▸ .ctr k) some_relay
  rw [hi] at he
  cases hr : (rateCheck cfg.udpMaxPacketsPerSource c.plane.now x.pktWin).1 with
  | false => exact absurd (he ▸ (peerSessionEnv_refused (mem_of_get hx) hr).2) some_relay
  | true => simp [Call.admitted, hx, hu, hi, hd, hr]

end

end

end Windows

/-! ## The limit -/

section Limit

variable {cfg : BrokerCfg} {digest : Bytes → Digest} {p p' : Plane} {T T' : ℕ} {cs : List Call}

structure Fair (limit : ℤ) (T : ℕ) (w : Window) (ts : List ℕ) : Prop where
  nonneg : 0 ≤ w.count
  start : w.start ≤ T
  limited : Limited 1000 limit.toNat w.start w.count.toNat ts

variable {ts : List ℕ} {k : Creds} {hs : HsAns} {l : Label} {tr : List (Plane × Label)} {src : Addr}

lemma Fair.mono (h : Fair limit T w ts) (hT : T ≤ T') :
    Fair limit T' w ts := { h with start := h.start.trans hT }

lemma Fair.init (limit : ℤ) (T : ℕ) : Fair limit T {} [] := ⟨le_rfl, zero_le _, .nil⟩

lemma Fair.rateCheck (hl : 0 < limit)
    (h : Fair limit T w ts) (hr : (rateCheck limit T w).1 = true) :
    Fair limit T (Udp.rateCheck limit T w).2 (T :: ts) := by
  have hn := h.nonneg
  have hs := h.start
  obtain ⟨hw, he⟩ | ⟨-, -, he⟩ | ⟨hw, hc, he⟩ := rateCheck_cases hl T w
  · rw [he]
    refine ⟨Int.one_nonneg, le_rfl, ?_⟩
    have hw' : w.start + 1000 ≤ T := by omega
    exact (h.limited.renew hw').take le_rfl (Nat.lt_add_of_pos_right (by omega)) (by omega)
  · simp [he] at hr
  · rw [he]
    refine ⟨by dsimp only; omega, hs, ?_⟩
    have ha := h.limited.take hs (by omega) (by omega : w.count.toNat < limit.toNat)
    rwa [show w.count.toNat + 1 = (w.count + 1).toNat by omega] at ha

/-- After the calls `cs` every session's window is fair, and no session, present or gone, has passed
more than its limit in an interval. -/
structure Rated (cfg : BrokerCfg) (digest : Bytes → Digest) (T : ℕ) (cs : List Call) (p : Plane) :
    Prop where
  right : Rightful (fun _ => True) (fun _ => True) p
  admitted : ∀ c ∈ cs, toAgent c.plane (c.after cfg digest) = true → c.admitted cfg = true
  old : ∀ c ∈ cs, c.admitted cfg = true → c.session < p.nextRef
  span : ∀ s t, (times cfg s cs).countP (fun x => t ≤ x && x ≤ t + 1000) ≤
    2 * cfg.udpMaxPacketsPerSource.toNat
  win : ∀ x ∈ p.sessions, Fair cfg.udpMaxPacketsPerSource T x.pktWin (times cfg x.ref cs)

lemma times_cons (s : Ref) (c : Call) (cs : List Call) : times cfg s (c :: cs) =
    if c.session = s ∧ c.admitted cfg = true then c.plane.now :: times cfg s cs
    else times cfg s cs := by
  unfold times
  rw [filter_cons]
  split_ifs with h h' h'
  · rfl
  · exact absurd (by simpa using h) h'
  · exact absurd (by simpa using h') h
  · rfl

variable {s : Ref}

lemma times_eq_nil (h : ∀ c ∈ cs, c.admitted cfg = true → c.session ≠ s) : times cfg s cs = [] := by
  unfold times
  rw [map_eq_nil_iff, filter_eq_nil_iff]
  intro c hc hs
  simp only [and_eq_true, decide_eq_true_eq] at hs
  exact h c hc hs.2 hs.1

namespace Rated

lemma init : Rated cfg digest 0 [] {} :=
  ⟨.init, by simp, by simp, by simp [times], by simp⟩

lemma wins_fair (hold : ∀ c ∈ cs, c.admitted cfg = true → c.session < p.nextRef)
    (hwin : ∀ x ∈ p.sessions, Fair cfg.udpMaxPacketsPerSource T x.pktWin (times cfg x.ref cs))
    (hw : Wins p p') : ∀ x ∈ p'.sessions,
      Fair cfg.udpMaxPacketsPerSource T x.pktWin (times cfg x.ref cs) := by
  intro x' hx'
  obtain ⟨x, hx, hr, he⟩ | ⟨hn, he⟩ := hw.win x' hx'
  · rw [he, ← hr]
    exact hwin x hx
  · rw [he, times_eq_nil fun c hc ha => ((hold c hc ha).trans_le hn).ne]
    exact .init _ _

lemma silent (h : Rated cfg digest T cs p) (hs : Silent p p') (hT : T ≤ T') :
    Rated cfg digest T' cs p' where
  right := hs.keeps _ _ h.right
  admitted := h.admitted
  old c hc ha := (h.old c hc ha).trans_le hs.next
  span := h.span
  win x hx := (wins_fair h.old h.win hs.toWins x hx).mono hT

lemma call (hl : 0 < cfg.udpMaxPacketsPerSource) (hT : c.plane.now = T)
    (h : Rated cfg digest T cs c.plane) : Rated cfg digest T (c :: cs) (c.after cfg digest) := by
  have right : Rightful (fun _ => True) (fun _ => True) (c.after cfg digest) :=
    h.right.call.mono (fun _ _ => trivial) fun _ _ => trivial
  have admitted : ∀ c' ∈ c :: cs, toAgent c'.plane (c'.after cfg digest) = true →
      c'.admitted cfg = true :=
    forall_mem_cons.2 ⟨admitted_of_toAgent h.right, h.admitted⟩
  cases ha : c.admitted cfg with
  | false =>
    have hw := wins_refused digest ha
    have ht : ∀ s, times cfg s (c :: cs) = times cfg s cs := fun s => by simp [times_cons, ha]
    refine ⟨right, admitted, forall_mem_cons.2 ⟨by simp [ha], fun c' hc' ha' =>
      (h.old c' hc' ha').trans_le hw.next⟩, fun s t => ht s ▸ h.span s t, fun x hx => ?_⟩
    rw [ht]
    exact wins_fair h.old h.win hw x hx
  | true =>
    obtain ⟨x, hx, hr, hw⟩ := wins_admitted digest ha
    have hxs : x.ref = c.session := key_of_get hx
    have hlt : c.session < c.plane.nextRef := hxs ▸ h.right.fresh.lt x (mem_of_get hx)
    have hfair : Fair cfg.udpMaxPacketsPerSource T
        (rateCheck cfg.udpMaxPacketsPerSource c.plane.now x.pktWin).2
        (times cfg c.session (c :: cs)) := by
      rw [times_cons, if_pos ⟨rfl, ha⟩, hT]
      have hf := h.win x (mem_of_get hx)
      rw [hxs] at hf
      rw [hT] at hr
      exact hf.rateCheck hl hr
    have hne : ∀ {s : Ref}, s ≠ c.session → times cfg s (c :: cs) = times cfg s cs := fun hs => by
      rw [times_cons, if_neg fun he => hs he.1.symm]
    have hold : ∀ c' ∈ c :: cs, c'.admitted cfg = true → c'.session < c.plane.nextRef :=
      forall_mem_cons.2 ⟨fun _ => hlt, h.old⟩
    refine ⟨right, admitted, fun c' hc' ha' => (hold c' hc' ha').trans_le hw.next, fun s t => ?_,
      wins_fair (p := c.plane.upd x.ref _) hold (forall_upd (fun y hy he => ?_)
        fun y hy he => ?_) hw⟩
    · by_cases hs : s = c.session
      · exact hs ▸ hfair.limited.span t
      · exact hne hs ▸ h.span s t
    · rw [hne fun hs : y.ref = _ => he (hs.trans hxs.symm)]
      exact h.win y hy
    · rw [show y.ref = c.session from Eq.trans he hxs]
      exact hfair

end Rated

/-! ## Runs -/

lemma now_pumpInStart (h : pumpInStart s hs p = some p') : p'.now = p.now := by
  unfold pumpInStart at h
  split at h
  · cases h
  split_ifs at h
  · rw [some.inj h]
  cases hs with
  | done => rw [← some.inj h]; rfl
  | want | failed => cases h

lemma now_drainStart {addr : Addr} {data : Bytes} {d : Ref × Plane}
    (h : drainStart cfg k addr data hs p = some d) : d.2.now = p.now := by
  unfold drainStart at h
  split_ifs at h
  split at h
  · obtain ⟨q, hq, rfl⟩ := map_eq_some_iff.1 h
    have hn := now_pumpInStart hq
    exact hn
  · dsimp only at h
    split_ifs at h
    obtain ⟨q, hq, rfl⟩ := map_eq_some_iff.1 h
    have hn := now_pumpInStart hq
    exact hn

lemma now_callsOf (h : c ∈ callsOf cfg digest p l) : c.plane.now = l.now := by
  obtain ⟨_, _, _, _, _, _, -, hd, hc⟩ := mem_callsOf h
  exact (mem_drainCalls hc).2.2.1.trans (now_drainStart hd)

lemma Rated.step (hl : 0 < cfg.udpMaxPacketsPerSource)
    (h : Rated cfg digest p.now cs p) (hs : step cfg digest p l = some p') :
    Rated cfg digest p'.now (callsOf cfg digest p l ++ cs) p' := by
  obtain ⟨⟨hle, -⟩, o, ht⟩ := step_turns hs
  have hnow : p'.now = l.now := ht.now
  rw [hnow]
  obtain ⟨p₁, p₂, h₁, hd, h₂⟩ | ⟨-, hc, addr, data, a, hq⟩ := step_cases hs
  · have hr := hd.inv (fun cs c hc h => h.call hl (now_callsOf hc)) (h.silent h₁ hle)
    exact hr.silent h₂ le_rfl
  · rw [hc]
    have hp : Wins p { p with now := l.now, loop := l.loop } := .of_same le_rfl rfl
    have hw : Wins p p' := by
      rw [hq]
      exact hp.trans (.acts (acts_openClientDatagram trivial trivial))
    have right : Rightful (fun _ => True) (fun _ => True) p' := by
      rw [hq]
      exact h.right.relays (.ofClient h.right.fresh.nodup) fun s i ⟨_, he⟩ => (nomatch he)
    exact ⟨right, h.admitted, fun c hc ha => (h.old c hc ha).trans_le hw.next, h.span,
      fun x hx => (wins_fair h.old h.win hw x hx).mono hle⟩

lemma Rated.of_trace (hl : 0 < cfg.udpMaxPacketsPerSource)
    (h : Trace (Udp.step cfg digest) Init tr p) : Rated cfg digest p.now (calls cfg digest tr) p :=
  h.inv_hist (I := fun tr p => Rated cfg digest p.now (calls cfg digest tr) p)
    (fun p hi => by subst hi; exact .init) fun _ _ _ _ _ h hs => h.step hl hs

lemma forwarded_le (hc : l.creds.closed = true)
    (ha : ∀ c ∈ callsOf cfg digest p l, toAgent c.plane (c.after cfg digest) = true →
      c.admitted cfg = true)
    (hs : l.ev.source.any (tmAddrEq · src) = true → ∀ c ∈ callsOf cfg digest p l, c.session = s) :
    forwarded cfg digest src p l ≤ (times cfg s (callsOf cfg digest p l)).length := by
  unfold forwarded
  split
  · rename_i addr data hsa reads a hev
    rw [hev] at hs
    split_ifs with hsrc hd
    · exact zero_le _
    · simp [hc] at hd
    · simp [hc] at hd
    · have hs := hs (by simpa [Event.source] using hsrc)
      rw [times, length_map, ← countP_eq_length_filter]
      refine countP_mono_left fun c hm ht => ?_
      simp [hs c hm, ha c hm ht]
  · exact zero_le _

lemma forwardedIn_le {t : ℕ} (hc : ∀ e ∈ tr, e.2.creds.closed = true)
    (ha : ∀ c ∈ calls cfg digest tr, toAgent c.plane (c.after cfg digest) = true →
      c.admitted cfg = true)
    (hs : ∀ e ∈ tr, during t e = true → e.2.ev.source.any (tmAddrEq · src) = true →
      ∀ c ∈ callsOf cfg digest e.1 e.2, c.session = s) : forwardedIn cfg digest src t tr ≤
      (times cfg s (calls cfg digest tr)).countP (fun x => t ≤ x && x ≤ t + 1000) := by
  induction tr with
  | nil => simp [forwardedIn]
  | cons e tr ih =>
    have hcalls : calls cfg digest (e :: tr) = callsOf cfg digest e.1 e.2 ++ calls cfg digest tr :=
      flatMap_cons
    rw [hcalls] at ha ⊢
    have htimes : ∀ xs ys, times cfg s (xs ++ ys) = times cfg s xs ++ times cfg s ys := by
      simp [times]
    have hi := ih (fun e he => hc e (mem_cons_of_mem _ he))
      (fun c hm => ha c (mem_append_right _ hm)) fun e he => hs e (mem_cons_of_mem _ he)
    rw [htimes, countP_append]
    unfold forwardedIn at hi ⊢
    rw [filter_cons]
    split_ifs with hd
    · have hle := forwarded_le (hc e mem_cons_self)
        (fun c hm => ha c (mem_append_left _ hm)) (hs e mem_cons_self hd)
      have hall : (times cfg s (callsOf cfg digest e.1 e.2)).countP
          (fun x => t ≤ x && x ≤ t + 1000) = (times cfg s (callsOf cfg digest e.1 e.2)).length := by
        refine countP_eq_length.2 fun x hx => ?_
        obtain ⟨c, hm, rfl⟩ := mem_map.1 hx
        rw [now_callsOf (mem_filter.1 hm).1]
        exact hd
      rw [map_cons, sum_cons, hall]
      exact Nat.add_le_add hle hi
    · exact hi.trans (le_add_left _ _)

/-- On a closed tunnel, at most twice the limit of datagrams of a source are forwarded in any
interval of a second, while what it sends in it is read by one session. -/
theorem source_limited {tr : List (Plane × Label)} (h : Trace (step cfg digest) Init tr p)
    (hl : 0 < cfg.udpMaxPacketsPerSource) (hc : ∀ e ∈ tr, e.2.creds.closed = true)
    {src : Addr} {t : ℕ} {s : Ref}
    (hs : ∀ e ∈ tr, during t e = true → e.2.ev.source.any (tmAddrEq · src) = true →
      ∀ c ∈ callsOf cfg digest e.1 e.2, c.session = s) :
    (forwardedIn cfg digest src t tr : ℤ) ≤ 2 * cfg.udpMaxPacketsPerSource := by
  have hr := Rated.of_trace hl h
  have hle := (forwardedIn_le hc hr.admitted hs).trans (hr.span s t)
  omega

end Limit

theorem source_limited_peer : ∃ tr p,
    Trace (step { udpMaxPacketsPerSource := 1 } headDigest) Init tr p ∧
    forwardedIn { udpMaxPacketsPerSource := 1 } headDigest
      { family := .inet, ip := [10, 0, 0, 2], port := 6000 } 0 tr = 1 ∧
    (forwardedIn { udpMaxPacketsPerSource := 1 } headDigest
      { family := .inet, ip := [10, 0, 0, 2], port := 6000 } 0 tr : ℤ) ≤ 2 * 1 := by
  obtain ⟨tr, p, h, hf, hc, hs⟩ := exists_trace (step { udpMaxPacketsPerSource := 1 } headDigest)
    Init rfl
    [recordFrom 1 (tmEnvEncode 0 2 [1]), recordFrom 2 (tmEnvEncode 0 2 [2]),
      recordFrom 2 (tmEnvEncode 5 0 [7]), recordFrom 2 (tmEnvEncode 5 0 [8])]
    (fun r => forwardedIn { udpMaxPacketsPerSource := 1 } headDigest
      { family := .inet, ip := [10, 0, 0, 2], port := 6000 } 0 r.1 = 1 ∧
      (∀ e ∈ r.1, e.2.creds.closed = true) ∧
      ∀ e ∈ r.1, during 0 e = true → e.2.ev.source.any
        (tmAddrEq · { family := .inet, ip := [10, 0, 0, 2], port := 6000 }) = true →
        ∀ c ∈ callsOf { udpMaxPacketsPerSource := 1 } headDigest e.1 e.2, c.session = 1) (by decide)
  exact ⟨tr, p, h, hf, source_limited h (by decide) hc hs⟩

/-- A client of an open tunnel sends three datagrams at once with a limit of 1: all of them are
forwarded. -/
theorem source_above_limit : ∃ tr p,
    Trace (step { udpMaxPacketsPerSource := 1 } zeroDigest) Init tr p ∧
    ¬ (forwardedIn { udpMaxPacketsPerSource := 1 } zeroDigest client 0 tr : ℤ) ≤ 2 * 1 :=
  exists_run rfl [agentSends (tmEnvEncode 0 2 [1]), clientAt 0, clientAt 0, clientAt 0] (by decide)

/-! ## One window -/

section Calls

variable (limit : ℤ)

def rateStep (w : Window) (now : ℕ) : Option Window := some (rateCheck limit now w).2

def admits (c : Window × ℕ) : Bool := (rateCheck limit c.2 c.1).1

def inWindow (s : ℕ) (tr : List (Window × ℕ)) : ℕ :=
  tr.countP fun c => admits limit c && (rateCheck limit c.2 c.1).2.start = s

def admittedAt (tr : List (Window × ℕ)) : List ℕ := (tr.filter (admits limit)).map Prod.snd

end Calls

structure Windowed (limit : ℤ) (tr : List (Window × ℕ)) (w : Window) : Prop where
  fair : ∀ T, (∀ c ∈ tr, c.2 ≤ T) → Fair limit T w (admittedAt limit tr)
  current : inWindow limit w.start tr = w.count
  later : ∀ s, w.start < s → inWindow limit s tr = 0
  le : ∀ s, inWindow limit s tr ≤ limit

section

variable {limit : ℤ} {tr : List (Window × ℕ)} {w w' : Window} {now : ℕ}

lemma Windowed.admit (hl : 0 < limit) (h : Windowed limit tr w) (hnow : ∀ c ∈ tr, c.2 ≤ now)
    (he : rateCheck limit now w = (true, w')) (hs : w.start ≤ w'.start)
    (hc : inWindow limit w'.start tr + 1 = w'.count) (hle : w'.count ≤ limit) :
    Windowed limit ((w, now) :: tr) w' := by
  have hin (s : ℕ) : inWindow limit s ((w, now) :: tr) = inWindow limit s tr +
      if w'.start = s then 1 else 0 := by
    rw [inWindow, countP_cons]
    simp [admits, he, inWindow]
  refine ⟨fun T hT => ?_, ?_, fun s hs' => ?_, fun s => ?_⟩
  · rw [admittedAt, filter_cons_of_pos (by simp [admits, he])]
    have := ((h.fair now hnow).rateCheck hl (by rw [he])).mono (hT _ mem_cons_self)
    rwa [he] at this
  · rw [hin, if_pos rfl]
    exact_mod_cast hc
  · rw [hin, h.later s (by omega), if_neg hs'.ne]
  · rw [hin]
    have := h.le s
    split_ifs with hs'
    · rw [← hs']
      omega
    · simpa using this

lemma Windowed.step (hl : 0 < limit) (h : Windowed limit tr w) (hnow : ∀ c ∈ tr, c.2 ≤ now) :
    Windowed limit ((w, now) :: tr) (rateCheck limit now w).2 := by
  have hc := h.current
  obtain ⟨hw, he⟩ | ⟨-, -, he⟩ | ⟨-, hlt, he⟩ := rateCheck_cases hl now w
  · -- a new window, in which nothing was admitted yet
    rw [he]
    exact h.admit hl hnow he (by simp; omega) (by simp [h.later now (by omega)]) (by simp; omega)
  · have hin (s : ℕ) : inWindow limit s ((w, now) :: tr) = inWindow limit s tr := by
      rw [inWindow, countP_cons_of_neg (by simp [admits, he]), inWindow]
    rw [he]
    refine ⟨fun T hT => ?_, ?_, fun s hs => ?_, fun s => ?_⟩
    · rw [admittedAt, filter_cons_of_neg (by simp [admits, he])]
      exact (h.fair now hnow).mono (hT _ mem_cons_self)
    · rw [hin, hc]
    · rw [hin, h.later s hs]
    · rw [hin]
      exact h.le s
  · rw [he]
    exact h.admit hl hnow he le_rfl (by simp [hc]) (by simp; omega)

lemma Windowed.of_trace (hl : 0 < limit)
    (h : Trace (rateStep limit) (· = {}) tr w) (hm : (tr.map Prod.snd).Pairwise (· ≥ ·)) :
    Windowed limit tr w := by
  induction h with
  | start hi =>
    subst hi
    exact ⟨fun T _ => .init limit T, rfl, fun _ _ => rfl, fun _ => hl.le⟩
  | next _ hs ih =>
    cases hs
    rw [map_cons, pairwise_cons] at hm
    exact (ih hm.2).step hl fun c hc => hm.1 _ (mem_map_of_mem hc)

end

/-- What a window admits, for calls at times that do not decrease. -/
theorem rate_check_limits {limit : ℤ} {tr : List (Window × ℕ)} {w : Window}
    (h : Trace (rateStep limit) (· = {}) tr w) (hm : (tr.map Prod.snd).Pairwise (· ≥ ·)) :
    (limit ≤ 0 → ∀ now w, (rateCheck limit now w).1 = true) ∧
    (0 < limit → (∀ s, inWindow limit s tr ≤ limit) ∧
      (∀ t, (admittedAt limit tr).countP (fun x => t ≤ x && x < t + 1000) ≤ 2 * limit) ∧
      ∀ now, (∀ c ∈ tr, c.2 ≤ now) → (rateCheck limit now w).1 = false →
        limit ≤ (admittedAt limit tr).countP (fun x => now < x + 1000 && x ≤ now)) := by
  refine ⟨fun hl now w => by simp [rateCheck, hl], fun hl => ?_⟩
  have hw := Windowed.of_trace hl h hm
  refine ⟨hw.le, fun t => ?_, fun now hnow hr => ?_⟩
  · obtain ⟨T, hT⟩ : ∃ T, ∀ c ∈ tr, c.2 ≤ T := by
      cases tr with
      | nil => exact ⟨0, by simp⟩
      | cons e =>
        rw [map_cons, pairwise_cons] at hm
        exact ⟨e.2, forall_mem_cons.2 ⟨le_rfl, fun c hc => hm.1 _ (mem_map_of_mem hc)⟩⟩
    have hs := (hw.fair T hT).limited.span t
    have hle : (admittedAt limit tr).countP (fun x => t ≤ x && x < t + 1000) ≤
        (admittedAt limit tr).countP (fun x => t ≤ x && x ≤ t + 1000) := by
      refine countP_mono_left fun x _ hx => ?_
      simp only [and_eq_true, decide_eq_true_eq] at hx ⊢
      omega
    omega
  · obtain ⟨-, he⟩ | ⟨hn, hc, -⟩ | ⟨-, -, he⟩ := rateCheck_cases hl now w
    · simp [he] at hr
    · have hf := hw.fair now hnow
      have hcur := hf.limited.current
      have hle : (admittedAt limit tr).countP (w.start ≤ ·) ≤
          (admittedAt limit tr).countP (fun x => now < x + 1000 && x ≤ now) := by
        refine countP_mono_left fun x hx hs => ?_
        obtain ⟨c, hc, rfl⟩ := mem_map.1 hx
        have := hnow c (mem_filter.1 hc).1
        simp only [and_eq_true, decide_eq_true_eq] at hs ⊢
        omega
      omega
    · simp [he] at hr

theorem rate_check_limits_three : ∃ tr w, Trace (rateStep 2) (· = {}) tr w ∧
    (rateCheck 2 1500 w).1 = false ∧ inWindow 2 1500 tr ≤ (2 : ℤ) := by
  obtain ⟨tr, w, h, hm, hr⟩ := exists_trace (rateStep 2) (· = {}) rfl [900, 1500, 1500, 1500]
    (fun r => (r.1.map Prod.snd).Pairwise (· ≥ ·) ∧ (rateCheck 2 1500 r.2).1 = false) (by decide)
  exact ⟨tr, w, h, hr, ((rate_check_limits h hm).2 (by decide)).1 1500⟩

end TunnelMate.Udp
