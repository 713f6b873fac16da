import Mathlib.Logic.Relation
import TunnelMate.PeerUdp
import TunnelMate.Proofs.UdpWire

/-!
# What an event can do to a client of a UDP plane

Every event of the agent, and every event of a peer that is not a start or the end of a close, is a
chain of acts, each of which changes one thing about the client.
-/

namespace TunnelMate

open List Option

variable {env : Bytes} {e : Env} {hs : Udp.HsAns} {s : Ref} {B : Ref → Prop}
  {ans : List Udp.SslAns} {now : ℕ}

/-! ## The agent -/

namespace AgentUdp

/-- What `pump_out` is made of. -/
inductive Pump : App → App → Prop
  | stop (a : App) : Pump a (udpStop a)
  | flush {a : App} {x : Ssl} : a.ssl = some x →
      Pump a { a with ssl := some { x with wbio := [] }, sent := x.wbio.reverse ++ a.sent }
  | write {a : App} {x : Ssl} {env : Bytes} {q : List Bytes} : a.ssl = some x →
      a.udpOutq = env :: q →
      Pump a { a with udpOutq := q, ssl := some { x with wbio := x.wbio ++ [some env] } }

/-- What an event is made of: envelopes in `S` are queued, and a handshake ends with a session in
`B`. -/
inductive Act (S : Bytes → Prop) (B : Ref → Prop) : App → App → Prop
  | pump {a a' : App} : Pump a a' → Act S B a a'
  | queue {a : App} {env : Bytes} : S env → Act S B a { a with udpOutq := a.udpOutq ++ [env] }
  | shake {a : App} {x y : Ssl} {n : ℕ} : a.ssl = some x → x.initFinished = false →
      y.wbio = x.wbio ++ replicate n none →
      (y.initFinished = false ∧ y.session = x.session ∨ ∃ s, B s ∧ y.session = some s) →
      Act S B a { a with ssl := some y }
  | auth {a : App} {x : Ssl} : a.ssl = some x → x.initFinished = true →
      Act S B a { a with udpAuthed := true }
  | flows {a : App} {fs : List LocalFlow} {l : List (ℕ × Bytes)} :
      (∀ f ∈ fs, f.flowId ≠ 0 ∧ f.flowId < 2 ^ 64 ∨ ∃ g ∈ a.udpFlows, g.flowId = f.flowId) →
      a.toLocal <:+ l → Act S B a { a with udpFlows := fs, toLocal := l }

abbrev Acts (S : Bytes → Prop) (B : Ref → Prop) : App → App → Prop :=
  Relation.ReflTransGen (Act S B)

variable {cfg : Cfg} {S : Bytes → Prop} {a : App} {x : Ssl} {l : List (ℕ × Bytes)}

lemma pumps_pumpLoop (q : List Bytes) (hx : a.ssl = some x) (hq : a.udpOutq = q) :
    Relation.ReflTransGen Pump a (pumpLoop q ans a) := by
  induction q generalizing ans a x with
  | nil =>
    simp only [pumpLoop, flush, hx]
    exact .single (.flush hx)
  | cons env q ih =>
    unfold pumpLoop
    split
    · exact .refl
    · exact .single (.stop a)
    · simp only [hx, map_some]
      exact .head (.write hx hq) (.head (.flush rfl) (ih rfl rfl))

lemma pumps_pumpOut : Relation.ReflTransGen Pump a (pumpOut ans a) := by
  unfold pumpOut
  cases hx : a.ssl with
  | none => exact .refl
  | some x => exact pumps_pumpLoop _ hx rfl

lemma acts_pumpOut : Acts S B a (pumpOut ans a) := pumps_pumpOut.lift id fun _ _ => .pump

lemma acts_udpStop : Acts S B a (udpStop a) := .single (.pump (.stop a))

lemma acts_udpQueue (he : S env) : Acts S B a (udpQueue cfg env ans a) := by
  unfold udpQueue
  dsimp only
  split_ifs
  · exact .refl
  · exact .refl
  · exact .head (.queue he) acts_pumpOut

lemma act_mapFlows {g : LocalFlow → LocalFlow} (hg : ∀ f, (g f).flowId = f.flowId)
    (hl : a.toLocal <:+ l) : Act S B a { a with udpFlows := a.udpFlows.map g, toLocal := l } := by
  refine .flows (fun f hf => ?_) hl
  obtain ⟨f', hf', rfl⟩ := mem_map.1 hf
  exact .inr ⟨f', hf', (hg f').symm⟩

lemma acts_flowRecv {flowId : ℕ} {data : Bytes}
    (he : ∀ f ∈ a.udpFlows, f.flowId = flowId → S (tmEnvEncode flowId 0 data)) :
    Acts S B a (flowRecv cfg flowId data now ans a) := by
  unfold flowRecv
  split
  · exact .refl
  rename_i f hf
  have hS := he f (mem_of_find?_eq_some hf) (by simpa using find?_some hf)
  split
  · exact .refl
  dsimp only
  generalize (if now - f.pktWin.start ≥ 1000 then ({ start := now, count := 0 } : Udp.Window)
    else f.pktWin) = w
  have touched : ∀ f : LocalFlow, (if f.flowId = flowId then { f with
      pktWin := { w with count := w.count + 1 }, lastSeenMs := now } else f).flowId = f.flowId := by
    intro f
    split_ifs <;> rfl
  split_ifs
  · exact .single (act_mapFlows (fun f => by split_ifs <;> rfl) suffix_rfl)
  · exact .single (act_mapFlows touched suffix_rfl)
  · exact .head (act_mapFlows touched suffix_rfl) (acts_udpQueue hS)

lemma acts_handleBrokerEnv (ok : Bool) (he : e.flowId < 2 ^ 64) :
    Acts S B a (handleBrokerEnv cfg e ok now a) := by
  unfold handleBrokerEnv
  split
  · exact .refl
  rename_i hi
  split
  · exact .refl
  split
  · exact .single (act_mapFlows (fun f => by split_ifs <;> rfl) (suffix_cons _ _))
  · split_ifs
    · exact .refl
    · exact .refl
    · exact .single (.flows (forall_mem_cons.2 ⟨.inl ⟨hi, he⟩, fun f hf => .inr ⟨f, hf, rfl⟩⟩)
        (suffix_cons _ _))

lemma ssl_handleBrokerEnv (e : Env) (ok : Bool) : (handleBrokerEnv cfg e ok now a).ssl = a.ssl := by
  unfold handleBrokerEnv
  split
  · rfl
  split
  · rfl
  split
  · rfl
  · split_ifs <;> rfl

lemma acts_readLoop (reads : List (Bytes × Bool)) (hx : a.ssl = some x)
    (hi : x.initFinished = true) : Acts S B a (readLoop cfg now ans reads a) := by
  induction reads generalizing a with
  | nil => exact acts_pumpOut
  | cons r reads ih =>
    unfold readLoop
    split
    · exact ih hx
    rename_i e he
    split_ifs
    · exact .head (.auth hx hi) (ih hx)
    · exact acts_udpStop
    · exact (acts_handleBrokerEnv _ (tmEnvDecode_eq_some he).1).trans
        (ih ((ssl_handleBrokerEnv e _).trans hx))
    · exact ih hx

lemma acts_udpRecv {reads : List (Bytes × Bool)}
    (hS : S (tmEnvEncode 0 tmEnvFlagAuthReq cfg.agentSecret))
    (hB : ∀ x, a.ssl = some x → x.initFinished = false → B s) :
    Acts S B a (udpRecv cfg hs s reads now ans a) := by
  unfold udpRecv
  split
  · exact .refl
  rename_i x hx
  split_ifs with hi
  · exact acts_readLoop reads hx hi
  rw [Bool.not_eq_true] at hi
  split
  · refine .head ?_ acts_pumpOut
    exact .shake hx hi rfl (.inl ⟨hi, rfl⟩)
  · exact acts_udpStop
  · refine .head ?_ ((acts_udpQueue hS).trans acts_pumpOut)
    exact .shake hx hi rfl (.inr ⟨s, hB x hx hi, rfl⟩)

lemma acts_flowSweep : Acts S B a (flowSweep cfg now a) :=
  .single (.flows (fun f hf => .inr ⟨f, (mem_filter.1 hf).1, rfl⟩) suffix_rfl)

lemma udpStart_cases (addr : Addr) (ok : Bool) (recs : ℕ) (ended : List Ref) :
    udpStart addr ok recs ended ans a = a ∨ a.ssl = none ∧
      udpStart addr ok recs ended ans a = pumpOut ans { a with
        ssl := some { wbio := .replicate recs none }, addr := addr, ended := ended } := by
  unfold udpStart
  split_ifs with h
  · exact .inl rfl
  · exact .inl rfl
  · exact .inr ⟨by simpa using h, rfl⟩

end AgentUdp

/-! ## A peer -/

namespace PeerUdp

def App.Said (cfg : Cfg) (p : App) (env : Bytes) : Prop :=
  env = tmEnvEncode 0 tmEnvFlagAuthReq cfg.token ∨ env = tmEnvEncode 0 0 [] ∨
    ∃ d ∈ p.taken, env = tmEnvEncode d.flowId 0 d.data

/-- What an event is made of: a handshake ends with a session in `B`, and the envelopes read are in
`R`. -/
inductive Act (cfg : Cfg) (B : Ref → Prop) (R : Udp.Queued → Prop) : App → App → Prop
  | stop (p : App) : Act cfg B R p (tmPeerUdpStop p)
  | flush {p : App} {x : AgentUdp.Ssl} : p.ssl = some x → Act cfg B R p
      { p with ssl := some { x with wbio := [] }, sent := x.wbio.reverse ++ p.sent }
  | write {p : App} {x : AgentUdp.Ssl} {env : Bytes} {q : List Bytes} : p.ssl = some x →
      p.udpOutq.getD [] = env :: q → Act cfg B R p
      { p with udpOutq := some q, ssl := some { x with wbio := x.wbio ++ [some env] } }
  | queue {p : App} {x : AgentUdp.Ssl} {env : Bytes} : p.ssl = some x → p.Said cfg env →
      Act cfg B R p { p with udpOutq := some (p.udpOutq.getD [] ++ [env]) }
  | shake {p : App} {x y : AgentUdp.Ssl} {n : ℕ} : p.ssl = some x →
      y.wbio = x.wbio ++ .replicate n none →
      (y.session = x.session ∨ ∃ s, B s ∧ y.session = some s) →
      Act cfg B R p { p with ssl := some y }
  | auth {p : App} {x : AgentUdp.Ssl} : p.ssl = some x → Act cfg B R p { p with udpAuthed := true }
  | create {p : App} (src : Addr) (now : ℕ) : p.udpAuthed = true →
      Act cfg B R p (flowCreate src now p).2
  | take {p : App} {f : Flow} {src : Addr} (data : Bytes) (now : ℕ) : p.udpAuthed = true →
      f ∈ p.udpFlows → f.src = src ∨ tmAddrEq f.src src = true →
      Act cfg B R p { touch f.flowId now p with
        taken := { flowId := f.flowId, src := src, data := data } :: p.taken }
  | deliver {p : App} {x : AgentUdp.Ssl} {q : Udp.Queued} {e : Env} {f : Flow} (now : ℕ) :
      p.ssl = some x → R q → tmEnvDecode q.env = some e → e.flags = 0 → f ∈ p.udpFlows →
      f.flowId = e.flowId → Act cfg B R p { touch e.flowId now p with
        delivered := { flowId := e.flowId, dst := f.src, payload := e.payload, reply := q.reply } ::
          p.delivered }
  | sweep {p : App} (now : ℕ) : Act cfg B R p (flowSweep cfg now p)

abbrev Acts (cfg : Cfg) (B : Ref → Prop) (R : Udp.Queued → Prop) : App → App → Prop :=
  Relation.ReflTransGen (Act cfg B R)

variable {cfg : Cfg} {R : Udp.Queued → Prop} {p : App} {x : AgentUdp.Ssl}

lemma acts_pumpLoop (q : List Bytes) (hx : p.ssl = some x) (hq : p.udpOutq.getD [] = q) :
    Acts cfg B R p (pumpLoop q ans p) := by
  induction q generalizing ans p x with
  | nil =>
    simp only [pumpLoop, flush, hx]
    exact .single (.flush hx)
  | cons env q ih =>
    unfold pumpLoop
    split
    · exact .refl
    · exact .single (.stop p)
    · simp only [hx, map_some]
      exact .head (.write hx hq) (.head (.flush rfl) (ih rfl rfl))

lemma acts_pumpOut : Acts cfg B R p (pumpOut ans p) := by
  unfold pumpOut
  split_ifs with h
  · exact .refl
  · obtain ⟨x, hx⟩ := ne_none_iff_exists'.1 fun hn : p.ssl = none => h (by simp [hn])
    exact acts_pumpLoop _ hx rfl

lemma acts_udpQueue (he : p.Said cfg env) : Acts cfg B R p (udpQueue cfg env ans p) := by
  unfold udpQueue
  split_ifs with h
  · exact .refl
  dsimp only
  split_ifs
  · exact .refl
  · obtain ⟨x, hx⟩ := ne_none_iff_exists'.1 fun hn : p.ssl = none => h (by simp [hn])
    exact .head (.queue hx he) acts_pumpOut

lemma acts_send {f : Flow} {src : Addr} (data : Bytes) (ha : p.udpAuthed = true)
    (hf : f ∈ p.udpFlows) (hs : f.src = src ∨ tmAddrEq f.src src = true) :
    Acts cfg B R p (udpQueue cfg (tmEnvEncode f.flowId 0 data) ans { touch f.flowId now p with
      taken := { flowId := f.flowId, src := src, data := data } :: p.taken }) :=
  .head (.take data now ha hf hs) (acts_udpQueue (.inr (.inr ⟨_, mem_cons_self, rfl⟩)))

lemma acts_localRecv (src : Addr) (data : Bytes) :
    Acts cfg B R p (localRecv cfg src data now ans p) := by
  unfold localRecv
  split
  · exact .refl
  rename_i h
  split
  · exact .refl
  have ha : p.udpAuthed = true := by
    by_contra hn
    simp [hn] at h
  split
  · rename_i f hf
    have hs := find?_some hf
    exact acts_send data ha (mem_of_find?_eq_some hf) (.inr hs)
  split_ifs
  · exact .refl
  · exact .head (.create src now ha) (acts_send data ha mem_cons_self (.inl rfl))

lemma acts_keepalive : Acts cfg B R p (keepalive cfg ans p) := by
  unfold keepalive
  split_ifs
  · exact .refl
  · exact acts_udpQueue (.inr (.inl rfl))

lemma acts_handleBrokerEnv {q : Udp.Queued} (hx : p.ssl = some x) (hq : R q)
    (he : tmEnvDecode q.env = some e) (hf : e.flags = 0) :
    Acts cfg B R p (handleBrokerEnv cfg e q.reply now p) ∧
      (handleBrokerEnv cfg e q.reply now p).ssl = some x := by
  unfold handleBrokerEnv
  split_ifs
  · exact ⟨.refl, hx⟩
  · exact ⟨.refl, hx⟩
  split
  · exact ⟨.refl, hx⟩
  · rename_i f hm
    exact ⟨.single (.deliver now hx hq he hf (mem_of_find?_eq_some hm)
      (by simpa using find?_some hm)), hx⟩

lemma acts_readLoop (reads : List Udp.Queued) (hx : p.ssl = some x) (hR : ∀ q ∈ reads, R q) :
    Acts cfg B R p (readLoop cfg now ans reads p) := by
  induction reads generalizing p with
  | nil => exact acts_pumpOut
  | cons q reads ih =>
    rw [forall_mem_cons] at hR
    unfold readLoop
    split
    · exact ih hx hR.2
    rename_i e he
    split_ifs with _ _ hf
    · exact .head (.auth hx) (ih hx hR.2)
    · exact .single (.stop p)
    · obtain ⟨ha, hx'⟩ := acts_handleBrokerEnv hx hR.1 he hf
      exact ha.trans (ih hx' hR.2)
    · exact ih hx hR.2

lemma acts_udpRecv {reads : List Udp.Queued}
    (hB : ∀ x, p.ssl = some x → x.initFinished = false → B s)
    (hR : ∀ x, p.ssl = some x → x.initFinished = true → ∀ q ∈ reads, R q) :
    Acts cfg B R p (udpRecv cfg hs s reads now ans p) := by
  unfold udpRecv
  split
  · exact .refl
  split
  · exact .refl
  rename_i x hx
  split_ifs with hi
  · exact acts_readLoop reads hx (hR x hx hi)
  split
  · refine .head ?_ acts_pumpOut
    exact .shake hx rfl (.inl rfl)
  · exact .single (.stop p)
  · refine .head ?_ ((acts_udpQueue (.inl rfl)).trans acts_pumpOut)
    exact .shake hx rfl (.inr ⟨s, hB x hx (by simpa using hi), rfl⟩)

end PeerUdp

end TunnelMate
