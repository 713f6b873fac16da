import TunnelMate.Agent
import TunnelMate.Proofs.AgentRelay

/-!
# What the agent does to a stream

Whatever happens, a stream's record goes through a few moves: an event of its own, a close, a close
callback of one of its handles.
-/

namespace TunnelMate.Agent

open Bool hiding or_assoc
open List Table AgentRelay AStream Keyed
open Option hiding or_assoc

open Duplex (Ans Config tmStreamClose closing_close)

/-! ## The relay of a stream -/

section Relay

open AgentRelay (Same)

variable {c c' : Config AgentRelay.Tail} {i : AgentRelay.Label}

lemma relayWrite_keeps {l : Duplex.Leg} (d : Bytes) (ans : Ans) (s : Duplex.Stream) :
    (Duplex.relayWrite l d ans s : _ × List (Duplex.Op Tail)).1.a.rd = s.a.rd :=
  (same_acts (Duplex.acts_relayWrite d ans)).rd .a

lemma queueEarly_keeps (d : Bytes) (s : Duplex.Stream) :
    (s.closing = true → (Duplex.queueEarly d s).closing = true) ∧
      (Duplex.queueEarly d s).a.rd = s.a.rd := by
  unfold Duplex.queueEarly
  dsimp only
  split_ifs
  · exact ⟨fun _ => closing_close, (same_acts .close).rd .a⟩
  · exact ⟨id, rfl⟩
  · exact ⟨id, rfl⟩

lemma relayBrokerRead_keeps (d : Bytes) (ans : Ans) (s : Duplex.Stream) :
    (s.closing = true → (relayBrokerRead d ans s).1.closing = true) ∧
      (relayBrokerRead d ans s).1.a.rd = s.a.rd := by
  unfold relayBrokerRead
  split_ifs with hc
  · exact ⟨id, rfl⟩
  dsimp only
  split_ifs
  · exact ⟨fun h => absurd h hc, (queueEarly_keeps d _).2⟩
  · exact ⟨fun h => absurd h hc, relayWrite_keeps d ans _⟩

lemma relayLocalRead_keeps (d : Bytes) (ans : Ans) (s : Duplex.Stream) :
    (s.closing = true → (relayLocalRead d ans s).1.closing = true) ∧
      (relayLocalRead d ans s).1.a.rd = s.a.rd := by
  unfold relayLocalRead
  split_ifs with hc
  · exact ⟨id, rfl⟩
  · exact ⟨fun h => absurd h hc, relayWrite_keeps d ans _⟩

lemma localConnected_keeps (ok : Bool) (s : Duplex.Stream) :
    (s.closing = true → (localConnected ok s).1.closing = true) ∧
      (localConnected ok s).1.a.rd = s.a.rd := by
  unfold localConnected
  split_ifs with hc hok
  · exact ⟨id, rfl⟩
  · exact ⟨fun h => absurd h hc, (same_acts .close).rd .a⟩
  · exact ⟨fun h => absurd h hc, (same_acts (Duplex.acts_flushPend (τ := Tail))).rd .a⟩

lemma relay_step (hs : AgentRelay.step c i = some c') :
    (c.s.closing = true → c'.s.closing = true) ∧ c'.s.a.rd = c.s.a.rd ++ delivered i ∧
      (early i = true → Same c.s c'.s) := by
  have ofSame : Same c.s c'.s → delivered i = [] → (c.s.closing = true → c'.s.closing = true) ∧
      c'.s.a.rd = c.s.a.rd ++ delivered i ∧ (early i = true → Same c.s c'.s) := fun h hd =>
    ⟨h.closing, by rw [hd, append_nil]; exact h.rd .a, fun _ => h⟩
  cases i with
  | read l d ans =>
    obtain ⟨-, rfl⟩ := of_guard hs
    cases l with
    | a =>
      obtain ⟨h1, h2⟩ := relayBrokerRead_keeps d ans (c.s.noteRead .a d)
      exact ⟨h1, h2, fun h => by cases h⟩
    | b =>
      obtain ⟨h1, h2⟩ := relayLocalRead_keeps d ans (c.s.noteRead .b d)
      exact ⟨h1, h2.trans (append_nil _).symm, fun h => by cases h⟩
  | eof =>
    obtain ⟨-, rfl⟩ := of_guard hs
    exact ofSame same_relayEof rfl
  | error | close =>
    obtain ⟨-, rfl⟩ := of_guard hs
    exact ofSame (same_acts .close) rfl
  | low =>
    obtain ⟨-, rfl⟩ := of_guard hs
    exact ofSame same_relayLow rfl
  | connect ok =>
    obtain ⟨-, rfl⟩ := of_guard hs
    obtain ⟨h1, h2⟩ := localConnected_keeps ok c.s
    exact ⟨h1, h2.trans (append_nil _).symm, fun h => by cases h⟩
  | connectTimer =>
    obtain ⟨-, rfl⟩ := of_guard hs
    refine ofSame ?_ rfl
    unfold localConnectTimeout
    split_ifs
    · exact same_acts .refl
    · exact same_acts .close
  | run => exact ofSame (same_run hs) rfl
  | drain l v =>
    cases hs
    have h : Same c.s (c.s.upd (fun x => { x with drained := v }) l) :=
      same_acts (.leg fun _ => by simp)
    exact ofSame h rfl

end Relay

/-! ## Events of a stream -/

/-- What an event may do to a record: nothing to the handles of one that is closing; a close starts
the close of all three; otherwise a socket may be initialised again. -/
structure Follows (st st' : AStream) : Prop where
  ref : st'.ref = st.ref
  sid : st'.sid = st.sid
  dead : st.relay.s.closing = true → st'.relay.s.closing = true ∧
    st'.closingRefs = st.closingRefs ∧ ∀ w, st'.handle w = st.handle w
  died : st.relay.s.closing = false → st'.relay.s.closing = true →
    st'.closingRefs = 3 ∧ ∀ w, st'.handle w = .closing
  live : st.relay.s.closing = false → st'.relay.s.closing = false →
    st'.closingRefs = st.closingRefs ∧ ∀ w, st'.handle w = st.handle w ∨ st'.handle w = .active
  inits : ∀ i ∈ st'.inits, i ∈ st.inits ∨ st.relay.s.closing = false ∧ i.1 ≠ .connectTimer ∧
    (i.2 = st.handle i.1 ∨ i.2 = .active)

section Follows

variable {st st₁ st₂ : AStream} {secret : Bytes}

/-- What `Follows` compares besides whether the stream is closing. -/
def AStream.held (st : AStream) : Ref × ℕ × ℕ × (Which → Handle) × List (Which × Handle) :=
  (st.ref, st.sid, st.closingRefs, st.handle, st.inits)

lemma Follows.of_same (hc : st₁.relay.s.closing = st.relay.s.closing) (h : st₁.held = st.held) :
    Follows st st₁ := by
  simp only [held, Prod.mk.injEq] at h
  obtain ⟨hr, hs, hn, hh, hi⟩ := h
  exact { ref := hr, sid := hs, dead := fun h => ⟨hc.trans h, hn, congrFun hh⟩
          died := fun h h' => absurd (hc.symm.trans h') (by simp [h])
          live := fun _ _ => ⟨hn, fun w => .inl (congrFun hh w)⟩
          inits := fun i h => .inl (hi ▸ h) }

lemma Follows.refl (st : AStream) : Follows st st := .of_same rfl rfl

lemma Follows.trans (h : Follows st st₁) (h' : Follows st₁ st₂) : Follows st st₂ where
  ref := h'.ref.trans h.ref
  sid := h'.sid.trans h.sid
  dead hc := by
    obtain ⟨hc₁, hn, hh⟩ := h.dead hc
    obtain ⟨hc₂, hn', hh'⟩ := h'.dead hc₁
    exact ⟨hc₂, hn'.trans hn, fun w => (hh' w).trans (hh w)⟩
  died hc hc₂ := by
    cases hc₁ : st₁.relay.s.closing with
    | true =>
      obtain ⟨hn, hh⟩ := h.died hc hc₁
      obtain ⟨-, hn', hh'⟩ := h'.dead hc₁
      exact ⟨hn'.trans hn, fun w => (hh' w).trans (hh w)⟩
    | false => exact h'.died hc₁ hc₂
  live hc hc₂ := by
    have hc₁ : st₁.relay.s.closing = false := by
      by_contra hc₁
      exact absurd (h'.dead (by simpa using hc₁)).1 (by simp [hc₂])
    obtain ⟨hn, hh⟩ := h.live hc hc₁
    obtain ⟨hn', hh'⟩ := h'.live hc₁ hc₂
    refine ⟨hn'.trans hn, fun w => ?_⟩
    rcases hh' w with hw | hw
    · rw [hw]
      exact hh w
    · exact .inr hw
  inits i hi := by
    rcases h'.inits i hi with hi | ⟨hc₁, hw, hi⟩
    · exact h.inits i hi
    have hc : st.relay.s.closing = false := by
      by_contra hc
      exact absurd (h.dead (by simpa using hc)).1 (by simp [hc₁])
    refine .inr ⟨hc, hw, ?_⟩
    rcases hi with hi | hi
    · rw [hi]
      exact (h.live hc hc₁).2 i.1
    · exact .inr hi

variable {c : Config AgentRelay.Tail}

lemma follows_release (hc : st.relay.s.closing = false)
    (hc' : c.s.closing = true) : Follows st { st with relay := c }.release where
  ref := rfl
  sid := rfl
  dead h := absurd h (by simp [hc])
  died _ _ := ⟨rfl, fun w => by cases w <;> rfl⟩
  live _ h := absurd (h.symm.trans hc') (by simp)
  inits _ h := .inl h

lemma follows_close (st : AStream) : Follows st st.close := by
  unfold close
  split_ifs with hc
  · exact .refl st
  · exact follows_release (by simpa using hc) closing_close

lemma follows_relayed
    (hc : st.relay.s.closing = true → c.s.closing = true) : Follows st (st.relayed c) := by
  unfold relayed
  split_ifs with h
  · simp only [and_eq_true, not_eq_true'] at h
    exact follows_release h.2 h.1
  · refine .of_same ?_ rfl
    cases hs : st.relay.s.closing with
    | true => exact hc hs
    | false => simpa [hs] using h

section

variable (hc : st.relay.s.closing = false)
include hc

lemma follows_uvInit {w : Which} (hw : w ≠ .connectTimer) : Follows st (st.uvInit w) where
  ref := by cases w <;> rfl
  sid := by cases w <;> rfl
  dead h := absurd h (by simp [hc])
  died h h' := absurd (h.symm.trans (by cases w <;> exact h')) (by simp)
  live _ _ := by
    refine ⟨by cases w <;> rfl, fun v => ?_⟩
    cases w <;> cases v <;> first | exact .inl rfl | exact .inr rfl
  inits i hi := by
    rcases mem_cons.1 hi with rfl | hi
    · exact .inr ⟨hc, hw, .inl rfl⟩
    · exact .inl hi

lemma follows_tmTcpConnect {w : Which}
    (hw : w ≠ .connectTimer) (ans : ConnectAns) : Follows st (st.tmTcpConnect w ans).2 := by
  unfold tmTcpConnect
  split_ifs
  · exact .refl st
  · exact follows_uvInit hc hw

lemma follows_bindOk (ans : ConnectAns) : Follows st (st.bindOk ans).1 := by
  have h : Follows st st.handOver := .of_same rfl rfl
  exact (h.trans (follows_uvInit (w := .localSock) (by exact hc) (by simp))).trans
    (follows_tmTcpConnect (w := .localSock) (by exact hc) (by simp) ans)

lemma follows_preLoop (ans : ConnectAns) (n : ℕ) (fed : Fed) :
    Follows st (preLoop ans n fed st).1 := by
  induction n generalizing fed st with
  | zero =>
    cases fed with
    | none | frame => exact .refl st
    | errored => exact follows_close st
  | succ n ih =>
    cases fed with
    | none => exact .refl st
    | errored => exact follows_close st
    | frame =>
      simp only [preLoop]
      split_ifs
      · exact follows_bindOk hc ans
      · exact follows_close st
      · refine .trans ?_ (ih (by exact hc) _)
        exact .of_same rfl rfl

lemma follows_dataConnPreRead (d : Bytes) (w : Ans)
    (ans : ConnectAns) : Follows st (st.dataConnPreRead d w ans).1 := by
  unfold dataConnPreRead
  dsimp only
  split_ifs
  · have h : Follows st { st with inp := st.inp ++ d } := .of_same rfl rfl
    exact h.trans (follows_relayed fun h' => absurd h' (by simp [hc]))
  · refine .trans ?_ (follows_preLoop (by exact hc) ans _ _)
    exact .of_same rfl rfl

end

lemma event_follows {ev : StreamEvent} {e : Option String}
    (hio : st.relay.s.closing = true → st.relay.s.a.io = none)
    (h : st.event secret ev = some (st₁, e)) : Follows st st₁ := by
  have live : st.relay.s.a.io.isSome = true → st.relay.s.closing = false := fun hs => by
    by_contra hc
    simp [hio (by simpa using hc)] at hs
  cases ev with
  | connected =>
    simp only [event] at h
    split_ifs at h
    all_goals
      obtain ⟨rfl, -⟩ := Prod.mk.inj (some.inj h)
      exact .of_same rfl rfl
  | ready w =>
    simp only [event, ite_none_right_eq_some] at h
    obtain ⟨-, h⟩ := h
    obtain ⟨rfl, -⟩ := Prod.mk.inj (some.inj h)
    unfold dataConnReady
    split_ifs
    · exact .of_same rfl rfl
    · exact follows_close st
  | preRead d w ans =>
    simp only [event, ite_none_right_eq_some, and_eq_true] at h
    obtain ⟨⟨⟨-, hs⟩, -⟩, h⟩ := h
    obtain ⟨rfl, -⟩ := Prod.mk.inj (some.inj h)
    exact follows_dataConnPreRead (live hs) d w ans
  | preEof =>
    simp only [event, ite_none_right_eq_some, and_eq_true] at h
    obtain ⟨⟨⟨-, hs⟩, -⟩, h⟩ := h
    obtain ⟨rfl, -⟩ := Prod.mk.inj (some.inj h)
    unfold dataConnEof
    split_ifs
    · exact follows_close st
    · exact follows_relayed fun hc => absurd (live hs) (by simp [hc])
  | relay =>
    simp only [event, ite_none_left_eq_some] at h
    obtain ⟨-, h⟩ := h
    obtain ⟨c, hs, h⟩ := map_eq_some_iff.1 h
    split_ifs at h
    · obtain ⟨rfl, -⟩ := Prod.mk.inj h
      exact .refl st
    · obtain ⟨rfl, -⟩ := Prod.mk.inj h
      exact .refl st
    · obtain ⟨rfl, -⟩ := Prod.mk.inj h
      refine (follows_relayed (relay_step hs).1).trans ?_
      exact .of_same rfl rfl

lemma setUp_follows (hc : st.relay.s.closing = false) (ssl : SslAns) (ans : ConnectAns) :
    Follows st (st.setUp ssl ans) := by
  unfold setUp
  dsimp only
  split_ifs
  · exact follows_close st
  · exact follows_close st
  all_goals
    have h : Follows st { st with relay := { st.relay with s.a.io := some (.ssl 0) } } :=
      .of_same rfl rfl
    have h' := h.trans (follows_tmTcpConnect (w := .brokerSock) (by exact hc) (by simp) ans)
  · exact h'.trans (follows_close _)
  · exact h'.trans (.of_same rfl rfl)

end Follows

/-! ## The records -/

lemma App.closeCtlSock_eq (a : App) : ∃ x ≠ .active, a.closeCtlSock = { a with ctlSock := x } := by
  unfold closeCtlSock
  split
  · rename_i h
    exact ⟨a.ctlSock, h ▸ nofun, rfl⟩
  · rename_i h
    exact ⟨a.ctlSock, h ▸ nofun, rfl⟩
  · exact ⟨.closing, nofun, rfl⟩
  · exact ⟨.closing, nofun, rfl⟩

structure Kept (secret : Bytes) (P : AStream → Prop) : Prop where
  io : ∀ {st}, P st → st.relay.s.closing = true → st.relay.s.a.io = none
  event : ∀ {st st' ev e}, P st → st.event secret ev = some (st', e) → P st'
  close : ∀ {st}, P st → P st.close
  closed : ∀ {st w}, P st → st.relay.s.closing = true → st.handle w = .closing →
    P { st.setHandle w .closed with closingRefs := st.closingRefs - 1 }

structure Ok (P : AStream → Prop) (a : App) : Prop where
  fresh : Table.Fresh a.nextRef a.records
  linked : ∀ st ∈ a.streams, st.relay.s.closing = false
  dying : ∀ st ∈ a.dying, st.relay.s.closing = true ∧ st.closingRefs ≠ 0
  freed : ∀ st ∈ a.freed, st.relay.s.closing = true ∧ st.closingRefs = 0
  all : ∀ st ∈ a.records, P st

namespace Ok

variable {P : AStream → Prop} {a b : App} {st st' : AStream} {cfg : Cfg}

lemma mem_streams (h : st ∈ a.streams) : st ∈ a.records := by simp [App.records, h]

lemma mem_dying (h : st ∈ a.dying) : st ∈ a.records := by simp [App.records, h]

lemma nodup_streams (h : Ok P a) : (a.streams.map key).Nodup :=
  h.fresh.nodup.sublist (.map _ (sublist_append_left _ _ |>.trans (sublist_append_left _ _)))

lemma nodup_dying (h : Ok P a) : (a.dying.map key).Nodup :=
  h.fresh.nodup.sublist (.map _ (sublist_append_right _ _ |>.trans (sublist_append_left _ _)))

lemma not_linked (h : Ok P a) (hst : st ∈ a.dying) : get st.ref a.streams = none := by
  refine get_none.2 fun x hx he => ?_
  have hn := h.fresh.nodup
  rw [App.records, append_assoc, map_append, nodup_append] at hn
  have hm : key st ∈ (a.dying ++ a.freed).map key := mem_map_of_mem (mem_append_left _ hst)
  exact hn.2.2 _ (mem_map_of_mem hx) _ hm he

lemma keys_put (st' : AStream) (xs : List AStream) :
    (upd st'.ref (fun _ => st') xs).map key = xs.map key :=
  map_upd fun _ _ he => he.symm

section

variable (h : Ok P a)
include h

lemma upd (hc : st'.relay.s.closing = false) (hP : P st') :
    Ok P { a with streams := upd st'.ref (fun _ => st') a.streams } where
  fresh := by
    refine h.fresh.of_keys (.of_eq ?_)
    simp only [App.records, map_append, keys_put]
  linked := forall_upd (fun x hx _ => h.linked x hx) fun _ _ _ => hc
  dying := h.dying
  freed := h.freed
  all x hx := by
    simp only [App.records, mem_append, or_assoc] at hx
    rcases hx with hx | hx
    · exact forall_upd (P := P) (fun x hx _ => h.all x (mem_streams hx)) (fun _ _ _ => hP) x hx
    · exact h.all x (by simp [App.records, hx])

lemma retire (hst : st ∈ a.streams) (hr : st'.ref = st.ref)
    (hc : st'.relay.s.closing = true) (hn : st'.closingRefs ≠ 0) (hP : P st') :
    Ok P (a.retire st') where
  fresh := by
    refine h.fresh.of_keys ?_
    have hk : key st' = key st := hr
    have hp : (key st' :: (del (key st') a.streams).map key).Perm
        (a.streams.map key) := hk ▸ (perm_del h.nodup_streams hst).map key
    simp only [App.retire, App.records, map_append, map_cons]
    exact (perm_middle.trans (hp.append_right _)).append_right _
  linked x hx := h.linked x (mem_del.1 hx).1
  dying x hx := by
    rcases mem_cons.1 hx with rfl | hx
    · exact ⟨hc, hn⟩
    · exact h.dying x hx
  freed := h.freed
  all x hx := by
    simp only [App.retire, App.records, mem_append, mem_cons, mem_del] at hx
    rcases hx with (⟨hx, -⟩ | rfl | hx) | hx
    · exact h.all x (mem_streams hx)
    · exact hP
    · exact h.all x (mem_dying hx)
    · exact h.all x (by simp [App.records, hx])

lemma updDying (hc : st'.relay.s.closing = true) (hn : st'.closingRefs ≠ 0) (hP : P st') :
    Ok P { a with dying := Table.upd st'.ref (fun _ => st') a.dying } where
  fresh := by
    refine h.fresh.of_keys (.of_eq ?_)
    simp only [App.records, map_append, keys_put]
  linked := h.linked
  dying := forall_upd (fun x hx _ => h.dying x hx) fun _ _ _ => ⟨hc, hn⟩
  freed := h.freed
  all x hx := by
    simp only [App.records, mem_append] at hx
    rcases hx with (hx | hx) | hx
    · exact h.all x (mem_streams hx)
    · exact forall_upd (P := P) (fun x hx _ => h.all x (mem_dying hx)) (fun _ _ _ => hP) x hx
    · exact h.all x (by simp [App.records, hx])

lemma put (hst : st ∈ a.streams ++ a.dying) (hf : Follows st st') (hP : P st') :
    Ok P (a.put st') := by
  unfold App.put
  rcases mem_append.1 hst with hst | hst
  · have hg : get st'.ref a.streams = some st := hf.ref ▸ get_of_mem h.nodup_streams hst
    rw [hg, isSome_some, if_pos rfl]
    split_ifs with hc
    · exact h.retire hst hf.ref hc (by rw [(hf.died (h.linked st hst) hc).1]; decide) hP
    · exact h.upd (by simpa using hc) hP
  · have hg : get st'.ref a.streams = none := hf.ref ▸ h.not_linked hst
    obtain ⟨hc, hn⟩ := h.dying st hst
    obtain ⟨hc', hn', -⟩ := hf.dead hc
    rw [hg, isSome_none, if_neg (by simp)]
    exact h.updDying hc' (hn' ▸ hn) hP

section

variable (hP : Kept cfg.agentSecret P)
include hP

lemma tmAstreamClose (r : Ref) : Ok P (a.tmAstreamClose r) := by
  unfold App.tmAstreamClose
  split
  · exact h
  · rename_i st hst
    split_ifs
    · exact h
    · have hm : st ∈ a.streams := mem_of_get hst
      exact h.put (mem_append_left _ hm) (follows_close st) (hP.close (h.all st (mem_streams hm)))

lemma closeAll : Ok P a.closeAll := by
  unfold App.closeAll
  generalize a.streams.map ref = rs
  induction rs generalizing a with
  | nil => exact h
  | cons r rs ih => exact ih (h.tmAstreamClose hP r)

lemma tmAgentDisconnect : Ok P (a.tmAgentDisconnect cfg) := by
  have retry : ∀ {b : App}, Ok P b → Ok P (b.retryLater cfg) := fun hb => by
    unfold App.retryLater
    split_ifs
    · exact hb
    · exact { hb with }
  obtain ⟨x, -, hx⟩ := App.closeCtlSock_eq a
  unfold App.tmAgentDisconnect
  rw [hx]
  split_ifs
  · exact h
  · exact retry (closeAll { h with } hP)
  · exact retry { h with }

lemma tmAgentShutdown : Ok P a.tmAgentShutdown := by
  obtain ⟨x, -, hx⟩ := App.closeCtlSock_eq a
  unfold App.tmAgentShutdown
  rw [hx]
  split_ifs
  · exact h
  · exact closeAll { h with } hP

omit hP in
lemma tmAgentConnect (ans : ConnectAns) : Ok P (a.tmAgentConnect cfg ans) := by
  unfold App.tmAgentConnect
  split_ifs
  all_goals exact { h with }

omit hP in
lemma tmAstreamOpen {sid : ℕ} {ans : App.FrameAns}
    (hnew : ∀ r, P ((new r sid).setUp ans.ssl ans.connect)) :
    Ok P (a.tmAstreamOpen sid ans) := by
  unfold App.tmAstreamOpen
  split_ifs
  · exact h
  have hf : Follows (.new a.nextRef sid) _ := setUp_follows rfl ans.ssl ans.connect
  have hP := hnew a.nextRef
  dsimp only
  generalize (new a.nextRef sid).setUp ans.ssl ans.connect = st at hf hP ⊢
  have hr : st.ref = a.nextRef := hf.ref
  have hne : ∀ x ∈ a.streams, key x ≠ st.ref := fun x hx he =>
    absurd (h.fresh.lt x (mem_streams hx)) (by rw [he, hr]; exact lt_irrefl _)
  have hfresh : Table.Fresh (a.nextRef + 1) (st :: a.records) := h.fresh.cons hr
  have hg : get st.ref (.new a.nextRef sid :: a.streams) = some (.new a.nextRef sid) := by
    rw [hr]
    exact find?_cons_of_pos (by simp [key, new, uvInit, setHandle])
  unfold App.put
  rw [hg, isSome_some, if_pos rfl]
  have hk : key (new a.nextRef sid) = st.ref := hr.symm
  split_ifs with hc
  · have hd : del st.ref (.new a.nextRef sid :: a.streams) = a.streams := by
      rw [del, filter_cons_of_neg (by simp [hk]), ← del, del_of_ne hne]
    have hmid : (a.streams ++ st :: a.dying ++ a.freed).Perm (st :: a.records) := by
      rw [append_assoc, cons_append, App.records, append_assoc]
      exact perm_middle
    refine ⟨?_, ?_, ?_, h.freed, ?_⟩
    · simp only [App.retire, App.records, hd]
      exact hfresh.perm hmid
    · simp only [App.retire, hd]
      exact h.linked
    · simp only [App.retire, forall_mem_cons]
      exact ⟨⟨hc, by rw [(hf.died rfl hc).1]; decide⟩, h.dying⟩
    · simp only [App.retire, App.records, hd]
      intro x hx
      rcases mem_cons.1 (hmid.subset hx) with rfl | hx
      · exact hP
      · exact h.all x hx
  · have hu : Table.upd st.ref (fun _ => st) (.new a.nextRef sid :: a.streams)
        = st :: a.streams := by
      rw [Table.upd, map_cons, if_pos hk, ← Table.upd, upd_of_ne hne]
    refine ⟨?_, ?_, h.dying, h.freed, ?_⟩
    · simp only [App.records, hu]
      exact hfresh
    · simp only [hu, forall_mem_cons]
      exact ⟨by simpa using hc, h.linked⟩
    · simp only [App.records, hu, cons_append, forall_mem_cons]
      exact ⟨hP, h.all⟩

end

end

lemma streamSockClosed {w : Which} (h : Ok P a) (hP : Kept cfg.agentSecret P)
    (hst : st ∈ a.dying) (hw : st.handle w = .closing) : Ok P (a.streamSockClosed w st) := by
  obtain ⟨hc, -⟩ := h.dying st hst
  have hP' := hP.closed (h.all st (mem_dying hst)) hc hw
  unfold App.streamSockClosed
  have hr : { st.setHandle w .closed with closingRefs := st.closingRefs - 1 }.ref = st.ref := by
    cases w <;> rfl
  have hc' : { st.setHandle w .closed with
      closingRefs := st.closingRefs - 1 }.relay.s.closing = true := by
    cases w <;> exact hc
  generalize { st.setHandle w .closed with closingRefs := st.closingRefs - 1 } = st' at hP' hr hc'
  dsimp only
  split_ifs with hn
  · have hk : key st' = key st := hr
    have hp : (key st' :: (del (key st') a.dying).map key).Perm
        (a.dying.map key) := hk ▸ (perm_del h.nodup_dying hst).map key
    refine ⟨h.fresh.of_keys ?_, h.linked, fun x hx => h.dying x (mem_del.1 hx).1, ?_, ?_⟩
    · simp only [App.records, map_append, map_cons, append_assoc]
      exact (perm_middle.trans (hp.append_right _)).append_left _
    · simp only [forall_mem_cons]
      exact ⟨⟨hc', hn⟩, h.freed⟩
    · intro x hx
      simp only [App.records, mem_append, mem_cons, mem_del] at hx
      rcases hx with (hx | ⟨hx, -⟩) | rfl | hx
      · exact h.all x (mem_streams hx)
      · exact h.all x (mem_dying hx)
      · exact hP'
      · exact h.all x (by simp [App.records, hx])
  · exact h.updDying hc' hn hP'

end Ok

/-! ## What happens to streams leaves the rest alone -/

namespace App

def control (a : App) : App :=
  { a with streams := [], streamCount := 0, nextRef := 0, dying := [], freed := [] }

lemma control_put (st : AStream) (a : App) : (a.put st).control = a.control := by
  unfold put
  split_ifs <;> rfl

lemma control_tmAstreamClose (r : Ref) (a : App) : (a.tmAstreamClose r).control = a.control := by
  unfold tmAstreamClose
  split
  · rfl
  · split_ifs
    · rfl
    · exact control_put _ a

lemma control_closeAll (a : App) : a.closeAll.control = a.control := by
  unfold closeAll
  generalize a.streams.map ref = rs
  induction rs generalizing a with
  | nil => rfl
  | cons r rs ih => exact (ih (a.tmAstreamClose r)).trans (control_tmAstreamClose r a)

lemma control_tmAstreamOpen (sid : ℕ) (ans : FrameAns) (a : App) :
    (a.tmAstreamOpen sid ans).control = a.control := by
  unfold tmAstreamOpen
  split_ifs
  · rfl
  · exact control_put _ _

lemma control_streamSockClosed (w : Which) (st : AStream) (a : App) :
    (a.streamSockClosed w st).control = a.control := by
  unfold streamSockClosed
  dsimp only
  split_ifs <;> rfl

end App

end TunnelMate.Agent
