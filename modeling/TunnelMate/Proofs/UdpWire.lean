import TunnelMate.Proofs.Cred
import TunnelMate.Proofs.Udp

/-!
# What waits in the sessions of a UDP plane and what it sends

What gives nobody anything only moves envelopes on (`Idle`). So a property of the envelopes in the
queues, in the BIOs and on the wire is kept by each function of `udp.c` that puts in only what has
it (`Filled`).
-/

namespace TunnelMate

open Nat List

/-! ## Envelopes -/

section

variable (p : Bytes)
include p

lemma rdU16_lt : rdU16 p < 2 ^ 16 := by
  have h0 : (p.getD 0 0).toNat < 2 ^ 8 := UInt8.toNat_lt _
  have h1 : (p.getD 1 0).toNat < 2 ^ 8 := UInt8.toNat_lt _
  rw [rdU16_eq]
  omega

lemma rdU32_eq : rdU32 p = rdU16 p * 2 ^ 16 + rdU16 (p.drop 2) := by
  rw [rdU32, ← shiftLeft_add_eq_or_of_lt (rdU16_lt _), shiftLeft_eq]

lemma rdU32_lt : rdU32 p < 2 ^ 32 := by
  have h0 := rdU16_lt p
  have h1 := rdU16_lt (p.drop 2)
  rw [rdU32_eq]
  omega

lemma rdU64_eq : rdU64 p = rdU32 p * 2 ^ 32 + rdU32 (p.drop 4) := by
  rw [rdU64, ← shiftLeft_add_eq_or_of_lt (rdU32_lt _), shiftLeft_eq]

lemma rdU64_lt : rdU64 p < 2 ^ 64 := by
  have h0 := rdU32_lt p
  have h1 := rdU32_lt (p.drop 4)
  rw [rdU64_eq]
  omega

end

lemma wrU16_add (a b : ℕ) : wrU16 (a * 2 ^ 16 + b) = wrU16 b := by
  have h {m n : ℕ} (hm : m % 256 = n % 256) : m.toUInt8 = n.toUInt8 :=
    UInt8.toNat_inj.1 (by simpa [toUInt8] using hm)
  have hs : ((a * 2 ^ 16 + b) >>> 8).toUInt8 = (b >>> 8).toUInt8 := h (by omega)
  have hl : (a * 2 ^ 16 + b).toUInt8 = b.toUInt8 := h (by omega)
  rw [wrU16, wrU16, hs, hl]

lemma wrU32_add (a b : ℕ) : wrU32 (a * 2 ^ 32 + b) = wrU32 b := by
  have hs : (a * 2 ^ 32 + b) >>> 16 = a * 2 ^ 16 + b >>> 16 := by omega
  have hl : a * 2 ^ 32 + b = a * 2 ^ 16 * 2 ^ 16 + b := by omega
  rw [wrU32, wrU32, hs, wrU16_add, hl, wrU16_add]

variable {p b : Bytes} {flowId : ℕ} {e : Env}

lemma wrU32_rdU32 (hp : 4 ≤ p.length) : wrU32 (rdU32 p) ++ p.drop 4 = p := by
  have hs : (rdU16 p * 2 ^ 16 + rdU16 (p.drop 2)) >>> 16 = rdU16 p := by
    have := rdU16_lt (p.drop 2)
    omega
  have h2 : wrU16 (rdU16 (p.drop 2)) ++ p.drop 4 = p.drop 2 := by
    have h := wrU16_rdU16 (p := p.drop 2) (by simp; omega)
    rwa [drop_drop] at h
  rw [rdU32_eq, wrU32, hs, wrU16_add, append_assoc, h2, wrU16_rdU16 (by omega)]

lemma wrU64_rdU64 (hp : 8 ≤ p.length) : wrU64 (rdU64 p) ++ p.drop 8 = p := by
  have hs : (rdU32 p * 2 ^ 32 + rdU32 (p.drop 4)) >>> 32 = rdU32 p := by
    have := rdU32_lt (p.drop 4)
    omega
  have h4 : wrU32 (rdU32 (p.drop 4)) ++ p.drop 8 = p.drop 4 := by
    have h := wrU32_rdU32 (p := p.drop 4) (by simp; omega)
    rwa [drop_drop] at h
  rw [rdU64_eq, wrU64, hs, wrU32_add, append_assoc, h4, wrU32_rdU32 (by omega)]

lemma rdU64_wrU64 {n : ℕ} (hn : n < 2 ^ 64) (r : Bytes) : rdU64 (wrU64 n ++ r) = n := by
  have hd : (wrU32 (n >>> 32) ++ (wrU32 n ++ r)).drop 4 = wrU32 n ++ r := rfl
  have hlt : n % 2 ^ 32 < 2 ^ 32 := mod_lt _ (by decide)
  rw [rdU64, wrU64, append_assoc, hd, rdU32_wrU32_mod, rdU32_wrU32_mod,
    ← shiftLeft_add_eq_or_of_lt hlt, shiftLeft_eq, shiftRight_eq_div_pow]
  omega

lemma length_tmEnvEncode (flowId : ℕ) (flags : UInt8) (d : Bytes) :
    (tmEnvEncode flowId flags d).length = tmEnvHdrLen + d.length := by
  simp [tmEnvEncode, wrU16, wrU32, wrU64, tmEnvHdrLen]
  omega

lemma decode_encode (flags : UInt8) (payload : Bytes) (hi : flowId < 2 ^ 64) :
    tmEnvDecode (tmEnvEncode flowId flags payload) =
      if flags &&& ~~~tmEnvFlagAll ≠ 0 then none else some ⟨flowId, flags, payload⟩ := by
  have hl : ¬ (tmEnvEncode flowId flags payload).length < tmEnvHdrLen := by
    rw [length_tmEnvEncode]
    omega
  have hv : rdU16 (tmEnvEncode flowId flags payload) = 11 := by
    rw [tmEnvEncode, append_assoc, rdU16_wrU16_mod]
  have hg : (tmEnvEncode flowId flags payload).getD 10 0 = flags := rfl
  have hd : (tmEnvEncode flowId flags payload).drop 2 = wrU64 flowId ++ flags :: payload := rfl
  have hp : (tmEnvEncode flowId flags payload).drop 11 = payload := rfl
  rw [tmEnvDecode, if_neg hl, if_neg (not_not.2 hv)]
  rw [hg, hd, hp, rdU64_wrU64 hi]

variable {payload : Bytes}

lemma eq_of_decode_encode {flags : UInt8}
    (hi : flowId < 2 ^ 64) (h : tmEnvDecode (tmEnvEncode flowId flags payload) = some e) :
    e = { flowId := flowId, flags := flags, payload := payload } := by
  rw [decode_encode flags payload hi] at h
  split_ifs at h
  exact (Option.some.inj h).symm

lemma tmEnvDecode_eq_some (h : tmEnvDecode b = some e) :
    e.flowId < 2 ^ 64 ∧ e.flags &&& ~~~tmEnvFlagAll = 0 ∧
      tmEnvEncode e.flowId e.flags e.payload = b := by
  unfold tmEnvDecode at h
  dsimp only at h
  split_ifs at h with hl hv hf
  obtain rfl := Option.some.inj h
  simp only [tmEnvHdrLen, not_lt] at hl
  refine ⟨rdU64_lt _, not_not.1 hf, ?_⟩
  have hb : b.getD 10 0 :: b.drop 11 = b.drop 10 := by
    rw [getD_eq_getElem _ _ (by omega), getElem_cons_drop]
  have h8 := wrU64_rdU64 (p := b.drop 2) (by simp; omega)
  rw [drop_drop] at h8
  have h2 := wrU16_rdU16 (p := b) (by omega)
  rw [not_not.1 hv] at h2
  rw [tmEnvEncode, hb, append_assoc, h8, h2]

/-- What `tm_env_encode` may be given. -/
structure Env.Valid (e : Env) : Prop where
  flowId : e.flowId < 2 ^ 64
  flags : e.flags &&& ~~~tmEnvFlagAll = 0
  payload : e.payload.length ≤ 2 ^ 32 - 12

def Env.encode (e : Env) : Bytes := tmEnvEncode e.flowId e.flags e.payload

namespace Env.Valid

variable {e : Env}

lemma decode (h : e.Valid) : tmEnvDecode e.encode = some e := by
  rw [encode, decode_encode _ _ h.flowId, if_neg (not_not.2 h.flags)]

lemma outLen (h : e.Valid) : e.encode.length = envOutLen e.payload.length := by
  have := h.payload
  rw [encode, length_tmEnvEncode, envOutLen, toU32, tmEnvHdrLen]
  omega

lemma of_decode (hb : b.length < 2 ^ 32) (h : tmEnvDecode b = some e) :
    e.Valid ∧ e.encode = b ∧ e.payload.length = envPayloadLen b.length := by
  obtain ⟨hi, hf, he⟩ := tmEnvDecode_eq_some h
  have hl := length_tmEnvEncode e.flowId e.flags e.payload
  rw [he, tmEnvHdrLen] at hl
  refine ⟨⟨hi, hf, by omega⟩, he, ?_⟩
  rw [envPayloadLen, toU32]
  omega

end Env.Valid

/-- The codec of the envelopes is a two-sided inverse, and the 32-bit lengths it computes are those
of the buffers. -/
theorem envelope_codec : (∀ e : Env, e.Valid →
      tmEnvDecode e.encode = some e ∧ e.encode.length = envOutLen e.payload.length) ∧
    ∀ b : Bytes, b.length < 2 ^ 32 → ((tmEnvDecode b).isSome ↔ ∃ e : Env, e.Valid ∧ e.encode = b) ∧
      ∀ e, tmEnvDecode b = some e →
        e.Valid ∧ e.encode = b ∧ e.payload.length = envPayloadLen b.length := by
  refine ⟨fun e he => ⟨he.decode, he.outLen⟩, fun b hb =>
    ⟨⟨?_, ?_⟩, fun e => Env.Valid.of_decode hb⟩⟩
  · intro h
    obtain ⟨e, he⟩ := Option.isSome_iff_exists.1 h
    obtain ⟨hv, hb', -⟩ := Env.Valid.of_decode hb he
    exact ⟨e, hv, hb'⟩
  · rintro ⟨e, hv, rfl⟩
    rw [hv.decode]
    rfl

theorem envelope_codec_one :
    tmEnvDecode (Env.mk (2 ^ 64 - 1) 3 [7]).encode = some ⟨2 ^ 64 - 1, 3, [7]⟩ ∧
      (tmEnvDecode [0, 11]).isSome = false :=
  ⟨(envelope_codec.1 ⟨2 ^ 64 - 1, 3, [7]⟩ ⟨by decide, by decide, by decide⟩).1, by decide⟩

namespace Udp

/-! ## Queues -/

/-- The envelope `q` waits in the queue of the session `y` or, encrypted, in its BIO. -/
def Plane.Holds (p : Plane) (y : Ref) (q : Queued) : Prop :=
  ∃ x ∈ p.sessions, x.ref = y ∧ (q ∈ x.outq ∨ some q ∈ x.wbio)

/-- Nobody is given anything: the queues lose envelopes only, an envelope in a BIO or in a record
that is sent was held by the same session, and no datagram goes to a client and no endpoint gets a
flow. -/
structure Idle (p p' : Plane) : Prop where
  queue : ∀ x' ∈ p'.sessions, x'.outq = [] ∨ ∃ x ∈ p.sessions, x.ref = x'.ref ∧ x'.outq <:+ x.outq
  wbio : ∀ x' ∈ p'.sessions, ∀ q, some q ∈ x'.wbio → p.Holds x'.ref q
  sent : ∃ new, p'.sent = new ++ p.sent ∧ ∀ o ∈ new, ∃ y r, o.session = some y ∧
    o.body = .record r ∧ ∀ q, r = some q → p.Holds y q
  assigned : p'.assigned = p.assigned

variable {cfg : BrokerCfg} {p p' p'' : Plane} {s : Ref} {a : PumpAns} {f : Session → Session}

namespace Idle

lemma holds {y : Ref} {q : Queued} (h : Idle p p') (hq : p'.Holds y q) : p.Holds y q := by
  obtain ⟨x', hx', rfl, hq | hq⟩ := hq
  · obtain he | ⟨x, hx, hr, hs⟩ := h.queue x' hx'
    · rw [he] at hq
      cases hq
    · exact ⟨x, hx, hr, .inl (hs.subset hq)⟩
  · exact h.wbio x' hx' q hq

lemma trans (h : Idle p p') (h' : Idle p' p'') : Idle p p'' where
  queue x'' hx'' := by
    obtain he | ⟨x', hx', hr', hs'⟩ := h'.queue x'' hx''
    · exact .inl he
    obtain he | ⟨x, hx, hr, hs⟩ := h.queue x' hx'
    · exact .inl (eq_nil_of_suffix_nil (he ▸ hs'))
    · exact .inr ⟨x, hx, hr.trans hr', hs'.trans hs⟩
  wbio x hx q hq := h.holds (h'.wbio x hx q hq)
  sent := by
    obtain ⟨new, hn, ho⟩ := h.sent
    obtain ⟨new', hn', ho'⟩ := h'.sent
    refine ⟨new' ++ new, by rw [hn', hn, append_assoc], fun o hm => ?_⟩
    rcases mem_append.1 hm with hm | hm
    · obtain ⟨y, r, hy, hr, hq⟩ := ho' o hm
      exact ⟨y, r, hy, hr, fun q he => h.holds (hq q he)⟩
    · exact ho o hm
  assigned := h'.assigned.trans h.assigned

lemma of_subset (hs : p'.sessions ⊆ p.sessions) (ho : p'.sent = p.sent)
    (ha : p'.assigned = p.assigned) : Idle p p' :=
  ⟨fun x hx => .inr ⟨x, hs hx, rfl, suffix_refl _⟩,
    fun x hx _ hq => ⟨x, hs hx, rfl, .inr hq⟩, ⟨[], ho, nofun⟩, ha⟩

lemma of_same (hs : p'.sessions = p.sessions) (ho : p'.sent = p.sent)
    (ha : p'.assigned = p.assigned) : Idle p p' :=
  of_subset (hs ▸ .refl _) ho ha

lemma upd (hf : ∀ x ∈ p.sessions, x.ref = s → ∃ y ∈ p.sessions, y.ref = (f x).ref ∧
    (f x).outq <:+ y.outq ∧ ∀ q, some q ∈ (f x).wbio → q ∈ y.outq ∨ some q ∈ y.wbio) :
    Idle p (p.upd s f) where
  queue := Table.forall_upd (fun x hx _ => .inr ⟨x, hx, rfl, suffix_refl _⟩) fun x hx he => by
    obtain ⟨y, hy, hr, hq, -⟩ := hf x hx he
    exact .inr ⟨y, hy, hr, hq⟩
  wbio := Table.forall_upd (fun x hx _ _ hq => ⟨x, hx, rfl, .inr hq⟩) fun x hx he q hm => by
    obtain ⟨y, hy, hr, -, hq⟩ := hf x hx he
    exact ⟨y, hy, hr, hq q hm⟩
  sent := ⟨[], rfl, nofun⟩
  assigned := rfl

lemma flags (hr : ∀ x, (f x).ref = x.ref) (hq : ∀ x, (f x).outq = x.outq)
    (hw : ∀ x q, some q ∈ (f x).wbio → some q ∈ x.wbio) : Idle p (p.upd s f) :=
  .upd fun x hx _ => ⟨x, hx, (hr x).symm, hq x ▸ suffix_refl _, fun q hm => .inr (hw x q hm)⟩

lemma udpSendRaw {dst : Addr} {r : Option Queued} {send : Bool} (h : Idle p p')
    (hr : ∀ q, r = some q → p.Holds s q) :
    Idle p (udpSendRaw cfg (some s) dst (.record r) send p') := by
  unfold Udp.udpSendRaw
  split_ifs
  · exact h.trans (.of_same rfl rfl rfl)
  · obtain ⟨new, hn, ho⟩ := h.sent
    refine { h with sent := ⟨⟨some s, dst, .record r⟩ :: new, by rw [hn]; rfl, ?_⟩ }
    exact forall_mem_cons.2 ⟨⟨s, r, rfl, rfl, hr⟩, ho⟩
  · exact h.trans (.of_same rfl rfl rfl)

lemma pumpOut : Idle p (pumpOut cfg s a p) := by
  have hp : ∀ l, Idle p { p with pumps := l } := fun l => .of_same rfl rfl rfl
  refine pumpOut_rule (.of_same rfl rfl rfl) hp (fun x hx _ y l hy => ?_)
    fun x hx hk y l r hu hr => ?_
  · obtain ⟨v, hq, hb⟩ := hy
    exact (hp l).trans (.upd fun _ _ _ => ⟨x, hx, rfl, hq, hb⟩)
  · exact hu.udpSendRaw fun q he => ⟨x, hx, hk, hr q he⟩

lemma close (s : Ref) : Idle p (tmUdpSessionClose s p) := by
  unfold tmUdpSessionClose
  split
  · exact .of_same rfl rfl rfl
  · exact .of_subset (fun x hx => (Table.mem_del.1 hx).1) rfl rfl

lemma authAccept (isAgent : Bool) : Idle p (authAccept s isAgent p) := by
  have h : Idle p (p.upd s fun x => { x with authenticated := true, isAgent := isAgent }) :=
    .flags (fun _ => rfl) (fun _ => rfl) fun _ _ => id
  unfold Udp.authAccept
  dsimp only
  split_ifs
  · refine h.trans ?_
    split
    · exact .of_same rfl rfl rfl
    · split_ifs
      · exact .of_same rfl rfl rfl
      · exact (close _).trans (.of_same rfl rfl rfl)
  · exact h

end Idle

/-- Every envelope that a session holds or has sent has the property `J`, and the list of flow ids
given out has `E`. -/
structure Filled (J : Ref → Queued → Prop) (E : List (ℕ × Endpoint) → Prop) (p : Plane) :
    Prop where
  held : ∀ y q, p.Holds y q → J y q
  sent : ∀ o ∈ p.sent, ∀ s q, o.session = some s → o.body = .record (some q) → J s q
  assigned : E p.assigned

namespace Filled

variable {J J' : Ref → Queued → Prop} {E E' : List (ℕ × Endpoint) → Prop} {x : Session}

lemma init (hE : E []) : Filled J E {} := ⟨nofun, nofun, hE⟩

section

variable (h : Filled J E p)
include h

lemma mono (hJ : ∀ s q, J s q → J' s q) (hE : ∀ l, E l → E' l) : Filled J' E' p where
  held y q hq := hJ _ _ (h.held y q hq)
  sent o ho s q hs hb := hJ _ _ (h.sent o ho s q hs hb)
  assigned := hE _ h.assigned

lemma idle (hi : Idle p p') : Filled J E p' where
  held y q hq := h.held y q (hi.holds hq)
  sent o ho s q hs hb := by
    obtain ⟨new, hn, hnew⟩ := hi.sent
    rcases mem_append.1 (hn ▸ ho) with ho | ho
    · obtain ⟨y, r, hy, hr, hq⟩ := hnew o ho
      obtain rfl : y = s := Option.some.inj (hy.symm.trans hs)
      exact h.held y q (hq q (Body.record.inj (hr.symm.trans hb)))
    · exact h.sent o ho s q hs hb
  assigned := hi.assigned ▸ h.assigned

lemma ctr (c : Counters) : Filled J E { p with ctr := c } := h.idle (.of_same rfl rfl rfl)

lemma sessionQueue {q : Queued} (hq : J s q) : Filled J E (sessionQueue cfg s q a p) := by
  have hu : Filled J E (p.upd s fun x => { x with outq := x.outq ++ [q] }) := by
    refine { h with held := ?_ }
    rintro _ q' ⟨_, hx', rfl, hm⟩
    obtain ⟨x, hx, rfl⟩ := Table.mem_upd.1 hx'
    split_ifs at hm ⊢ with he
    · rw [mem_append, mem_singleton] at hm
      obtain (hm | rfl) | hm := hm
      · exact h.held _ q' ⟨x, hx, rfl, .inl hm⟩
      · exact (show x.ref = s from he) ▸ hq
      · exact h.held _ q' ⟨x, hx, rfl, .inr hm⟩
    · exact h.held _ q' ⟨x, hx, rfl, hm⟩
  exact sessionQueue_rule h h.ctr (hu.idle .pumpOut)

/-! ## Relayed datagrams -/

lemma acts {P : Bytes → Prop} {R : Reply → Prop} {N : Endpoint → Prop} (ha : Acts cfg P R N p p')
    (hP : ∀ b, P b → ∀ s flowId, p.agentSession = some s → J s ⟨tmEnvEncode flowId 0 b, none⟩)
    (hR : ∀ r, R r → ∀ s i, J s ⟨tmEnvEncode i 0 r.payload, some r⟩)
    (hN : ∀ ep, N ep → ∀ i l, E l → E ((i, ep) :: l)) : Filled J E p' := by
  induction ha with
  | refl => exact h
  | tail hb ha ih =>
    cases ha with
    | count | touch => exact ih.idle (.of_same rfl rfl rfl)
    | flow hep => exact { ih with assigned := hN _ hep _ _ ih.assigned }
    | toAgent _ _ hp hs => exact ih.sessionQueue (hP _ hp _ _ (Acts.agentSession hb ▸ hs))
    | toPeer _ hr => exact ih.sessionQueue (hR _ hr _ _)
    | toClient =>
      unfold udpSendRaw
      split_ifs
      · exact ih.ctr _
      · exact { ih with sent := forall_mem_cons.2 ⟨nofun, ih.sent⟩ }
      · exact ih.ctr _

lemma agentSessionEnv (hq : e.flowId ≠ 0 → ∀ s i,
      J s { env := tmEnvEncode i 0 e.payload, reply := some ⟨e.flowId, e.payload⟩ }) :
    Filled J E (agentSessionEnv cfg e a p) :=
  h.acts (acts_agentSessionEnv hq) (fun _ hp => hp) (fun _ hr => hr) fun _ hN => hN

lemma openClientDatagram {addr : Addr} (hq : ∀ s flowId, p.agentSession = some s →
      J s { env := tmEnvEncode flowId 0 payload, reply := none })
    (he : ∀ i l, E l → E ((i, .client addr) :: l)) :
    Filled J E (openClientDatagram cfg addr payload a p) :=
  h.acts (acts_openClientDatagram hq he) (fun _ hp => hp) (fun _ hr => hr) fun _ hN => hN

lemma peerSessionEnv (hq : e.flowId ≠ 0 → ∀ s flowId, p.agentSession = some s →
      J s { env := tmEnvEncode flowId 0 e.payload, reply := none })
    (he : e.flowId ≠ 0 → ∀ i l, E l → E ((i, .peer x.ref e.flowId) :: l)) :
    Filled J E (peerSessionEnv cfg x e a p) := by
  have h' : Filled J E (p.upd x.ref fun y => { y with
      pktWin := (rateCheck cfg.udpMaxPacketsPerSource p.now x.pktWin).2 }) :=
    h.idle (.flags (fun _ => rfl) (fun _ => rfl) fun _ _ => id)
  exact h'.acts (acts_peerSessionEnv hq he) (fun _ hp => hp) (fun _ hr => hr) fun _ hN => hN

end

end Filled

end Udp

end TunnelMate
