import TunnelMate.Proofs.Steps

/-!
# Peers of one tunnel

A frame of an authenticated peer that has no stream yet leaves every stream alone, but for one:
`peer_frame` closes the stream a CLOSE_STREAM names, whoever opened it.
-/

namespace TunnelMate

open Option Table

variable {digest : Bytes → Digest} {b b' : Broker} {c : Conn} {f : Frame} {w : Write} {k : Bool}

def Keeps (b : Broker) (r : Option Broker) : Prop :=
  ∃ b', r = some b' ∧ ∀ st ∈ b.streams, st ∈ b'.streams

structure PeerFrameOk (b : Broker) (c : Conn) (f : Frame) : Prop where
  tunnel : f.type = .dataBind ∧ f.streamId = 0 ∨ f.type = .closeStream →
    ∃ t ∈ b.tunnels, c.peerTun = some t.ref
  close : f.type = .closeStream → ∀ st ∈ b.streams, c.peerTun = some st.tun → st.id ≠ f.streamId

lemma Keeps.of_streams (h : b'.streams = b.streams) : Keeps b (some b') :=
  ⟨b', rfl, fun _ hst => h ▸ hst⟩

lemma streams_sendFrameRaw (s : Sent) : (sendFrameRaw s w b).streams = b.streams := by
  cases w <;> rfl

lemma streams_tmAgentSendFrame (a : Ref) (type : MsgType) (sid : ℕ) :
    (tmAgentSendFrame a type sid k b).streams = b.streams := by
  unfold tmAgentSendFrame
  split
  · rfl
  · split_ifs
    · rfl
    · exact streams_tmAgentDrop a

lemma mem_relayStep {st : Ref} {l : Relay.Label} {x : Stream} (h : relayStep st l b = some b')
    (hx : x ∈ b.streams) (hne : x.ref ≠ st) : x ∈ b'.streams := by
  unfold relayStep at h
  split at h
  · cases h
  · obtain ⟨r, -, rfl⟩ := map_eq_some_iff.1 h
    split_ifs
    · exact mem_tmStreamClose.2 ⟨hx, hne⟩
    · exact mem_upd.2 ⟨x, hx, (if_neg hne).symm⟩

lemma streams_peerHandOver {t : Tunnel} (st : Stream) :
    (peerHandOver c t st k b).streams = b.streams := by
  unfold peerHandOver connUnlink
  split
  · rfl
  · exact streams_tmAgentSendFrame _ _ _

lemma peerBindOk_keeps {st : Stream} {ss : List Stream}
    (hr : st.relay = { s := Relay.createdClosed c.ref }) (hb : b.streams = st :: ss)
    (hne : ∀ x ∈ ss, x.ref ≠ st.ref) :
    ∃ b', peerBindOk c st w b = some b' ∧ ∀ x ∈ ss, x ∈ b'.streams := by
  have hmem : ∀ x ∈ ss, x ∈ b.streams := fun x hx => hb ▸ List.mem_cons_of_mem _ hx
  cases w with
  | taken | refused => exact ⟨_, rfl, hmem⟩
  | broken =>
    have hg : get st.ref b.streams = some st := by
      rw [hb]
      simp [Table.get]
    obtain ⟨b', hb'⟩ : ∃ b', peerBindOk c st .broken b = some b' := by
      simp only [peerBindOk, relayStep, hg, hr, Relay.step, Relay.createdClosed]
      exact ⟨_, rfl⟩
    exact ⟨b', hb', fun x hx => mem_relayStep hb' (hmem x hx) (hne x hx)⟩

lemma peerOpenStream_keeps (hw : Wf b) (t : Tunnel) : Keeps b (peerOpenStream c t w k b) := by
  have hfail : ∀ msg, Keeps b (some (sendAndClose
      { conn := c.ref, type := .dataBindError, msg := msg } w b)) := fun msg =>
    .of_streams (streams_sendFrameRaw _)
  unfold peerOpenStream
  split
  · exact hfail _
  · split
    · exact hfail _
    · split
      · exact hfail _
      · rename_i st b₁ hcr
        unfold tmStreamCreateClosed at hcr
        split_ifs at hcr
        obtain ⟨hst, hb₁⟩ := Prod.mk.inj (some.inj hcr)
        have hnew : b₁.streams = st :: b.streams := by rw [← hst, ← hb₁]
        obtain ⟨b₂, hb₂, hk⟩ := peerBindOk_keeps (w := w) (c := c) (by rw [← hst]) hnew
          fun x hx => hst ▸ Nat.ne_of_lt (hw.streams.lt x hx)
        rw [hb₂]
        exact ⟨_, rfl, fun x hx => by rw [streams_peerHandOver]; exact hk x hx⟩

lemma tmStreamFind_none {T : Ref} {id : ℕ} :
    tmStreamFind T id b = none ↔ ∀ st ∈ b.streams, st.tun = T → st.id ≠ id := by
  simp [tmStreamFind]

lemma peerFrame_close (hw : Wf b) (hf : f.type = .closeStream) :
    Keeps b (peerFrame c f w k b) ↔ PeerFrameOk b c f := by
  simp only [peerFrame, hf]
  constructor
  · rintro ⟨b', hb', hk⟩
    obtain ⟨t, ht, rfl⟩ := map_eq_some_iff.1 hb'
    obtain ⟨T, hT, ht⟩ := bind_eq_some_iff.1 ht
    have he : t.ref = T := key_of_get ht
    refine ⟨fun _ => ⟨t, mem_of_get ht, by rw [hT, he]⟩, fun _ st hst htun => ?_⟩
    split at hk
    · rename_i hn
      refine tmStreamFind_none.1 hn st hst ?_
      rw [he, ← some.inj (hT.symm.trans htun)]
    · rename_i x hx
      exact absurd rfl (mem_tmStreamClose.1 (hk x (mem_tmStreamFind hx).1)).2
  · intro ho
    obtain ⟨t, ht, hT⟩ := ho.tunnel (.inr hf)
    have hg : get t.ref b.tunnels = some t := get_of_mem hw.tunnels.nodup ht
    have hn : tmStreamFind t.ref f.streamId b = none :=
      tmStreamFind_none.2 fun st hst he => ho.close hf st hst (by rw [hT, he])
    rw [hT, bind_some, hg, map_some, hn]
    exact .of_streams rfl

lemma peerFrame_keeps (hw : Wf b) (hp : c.peerTun ≠ none) :
    Keeps b (peerFrame c f w k b) ↔ PeerFrameOk b c f := by
  have hok : f.type ≠ .closeStream → (f.type = .dataBind → f.streamId ≠ 0) → PeerFrameOk b c f :=
    fun h1 h2 => ⟨fun h => h.elim (fun h => absurd h.2 (h2 h.1)) fun h => absurd h h1,
      fun h => absurd h h1⟩
  by_cases hc : f.type = .closeStream
  · exact peerFrame_close hw hc
  by_cases hd : f.type = .dataBind ∧ f.streamId = 0
  · obtain ⟨T, hT⟩ := ne_none_iff_exists'.1 hp
    simp only [peerFrame, hd.1, hd.2, hT, if_true]
    constructor
    · rintro ⟨b', hb', -⟩
      obtain ⟨t, ht, -⟩ := bind_eq_some_iff.1 hb'
      have he : t.ref = T := key_of_get ht
      exact ⟨fun _ => ⟨t, mem_of_get ht, by rw [hT, he]⟩, fun h => absurd h hc⟩
    · intro ho
      obtain ⟨t, ht, he⟩ := ho.tunnel (.inl hd)
      cases (hT.symm.trans he)
      rw [show t.ref = Keyed.key t from rfl, get_of_mem hw.tunnels.nodup ht]
      exact peerOpenStream_keeps hw t
  · refine ⟨fun _ => hok hc fun h h0 => hd ⟨h, h0⟩, fun _ => ?_⟩
    unfold peerFrame
    split
    · rename_i h
      rw [if_neg fun h0 => hd ⟨h, h0⟩]
      exact .of_streams rfl
    · exact absurd ‹_› hc
    · exact .of_streams (streams_sendFrameRaw _)
    · exact .of_streams rfl

/-- In every reachable state, a frame of an authenticated peer leaves all streams alone exactly if
it names none of its tunnel's with a CLOSE_STREAM and uses no tunnel that is gone. -/
theorem peer_isolation {tr : List (Broker × BrokerEvent)}
    (h : Trace (brokerStep digest) BrokerInit tr b) (hq : b.quiet none = true) (hc : c ∈ b.conns)
    (hp : c.peerAuthed = true) :
    Keeps b (brokerStep digest b (.connFrame c.ref f w k)) ↔ PeerFrameOk b c f := by
  have hw := Wf.of_trace h
  have hg : get c.ref b.conns = some c := get_of_mem hw.conns.nodup hc
  obtain ⟨hh, hT⟩ := hw.peer c hc hp
  have hs : brokerStep digest b (.connFrame c.ref f w k) = peerFrame c f w k b := by
    simp [brokerStep, hq, handleEvent, hg, connFrame, hh, hp]
  rw [hs]
  exact peerFrame_keeps hw hT

instance : Decidable (PeerFrameOk b c f) :=
  decidable_of_iff ((f.type = .dataBind ∧ f.streamId = 0 ∨ f.type = .closeStream →
      ∃ t ∈ b.tunnels, c.peerTun = some t.ref) ∧
    (f.type = .closeStream → ∀ st ∈ b.streams, c.peerTun = some st.tun → st.id ≠ f.streamId))
    ⟨fun h => ⟨h.1, h.2⟩, fun h => ⟨h.1, h.2⟩⟩

def twoPeers : List BrokerEvent :=
  [creates [65] true, .controlAccept, sends 1 .hello 0 [], sends 1 .register 0 [0, 1, 65, 1],
    .controlAccept, sends 3 .hello 0 [], sends 3 .auth 0 [0, 1, 65, 2], sends 3 .dataBind 0 [],
    .controlAccept, sends 5 .hello 0 [], sends 5 .auth 0 [0, 1, 65, 2]]

theorem peer_isolation_unused : ∃ tr b c b', Trace (brokerStep padDigest) BrokerInit tr b ∧
    c ∈ b.conns ∧ c.peerAuthed = true ∧
    brokerStep padDigest b (sends c.ref .closeStream 7 []) = some b' ∧ b.streams.length = 1 ∧
    ∀ st ∈ b.streams, st ∈ b'.streams := by
  obtain ⟨tr, b, h, hq, hl, c, hc, hp, hok⟩ := smallBroker_trace twoPeers
    (fun r => r.2.quiet none = true ∧ r.2.streams.length = 1 ∧ ∃ c ∈ r.2.conns,
      c.peerAuthed = true ∧
      PeerFrameOk r.2 c { type := .closeStream, streamId := 7, payload := [] }) (by decide)
  obtain ⟨b', hs, hk⟩ := (peer_isolation (w := .taken) (k := true) h hq hc hp).2 hok
  exact ⟨tr, b, c, b', h, hc, hp, hs, hl, hk⟩

/-- The second peer closes the stream of the first. -/
theorem peer_isolation_closes : ∃ tr b c st b', Trace (brokerStep padDigest) BrokerInit tr b ∧
    c ∈ b.conns ∧ c.peerAuthed = true ∧ st ∈ b.streams ∧ st.sockA = .conn 3 ∧ c.ref = 5 ∧
    brokerStep padDigest b (sends c.ref .closeStream 1 []) = some b' ∧ st ∉ b'.streams := by
  obtain ⟨tr, b, h, c, hc, hp, h5, st, hst, h3, hs⟩ := smallBroker_trace twoPeers
    (fun r => ∃ c ∈ r.2.conns, c.peerAuthed = true ∧ c.ref = 5 ∧ ∃ st ∈ r.2.streams,
      st.sockA = .conn 3 ∧ (brokerStep padDigest r.2 (sends c.ref .closeStream 1 [])).any
        (fun b' => st ∉ b'.streams) = true) (by decide)
  obtain ⟨b', hb', hn⟩ := (any_eq_true _ _).1 hs
  exact ⟨tr, b, c, st, b', h, hc, hp, hst, h3, h5, hb', of_decide_eq_true hn⟩

end TunnelMate
