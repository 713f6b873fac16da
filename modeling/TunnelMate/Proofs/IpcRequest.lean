import TunnelMate.IpcRequest
import TunnelMate.Proofs.Registry

/-!
# What an IPC request does, by its answer

A request that is answered with an error has changed nothing, unless it took port 0; one that is
answered with success has a tunnel served, unless a bind failed; and a reply is lost if another one
is being written.
-/

namespace TunnelMate

open List Option

variable {digest : Bytes → Digest} {b : Broker} {rand rand' : Bytes} {bound : Bool}

/-! ## Errors -/

variable {msg : String} {id : Bytes} {t : Tunnel}

/-- The request gets to `tm_port_alloc`. -/
def CreateReq.Asks (r : CreateReq) (b : Broker) : Prop :=
  r.tunnelId.length ≠ 0 ∧ b.shuttingDown = false ∧ b.tunnelCount < b.cfg.maxTunnels ∧
    tmTunnelFind r.tunnelId b = none ∧ r.tunnelId.length ≤ tmTunnelIdLen ∧
    ¬ (r.closed = true ∧ r.proto = .tcp)

instance (r : CreateReq) (b : Broker) : Decidable (r.Asks b) :=
  inferInstanceAs (Decidable (_ ∧ _))

/-- `tm_port_alloc` takes port 0, which reads like a failure: the range begins with it, the
preferred port is not to be had, and port 0 is the first free one from the cursor on. -/
def Ports.TakesZero (cfg : BrokerCfg) (proto : Proto) (prefer : ℕ) (p : Ports) : Prop :=
  cfg.publicPortStart = 0 ∧ p.used < portCount cfg * 2 ∧
    (prefer ≠ 0 → tmPortInRange cfg prefer = true → (p.table proto).getD prefer false = true) ∧
    ((range (portCount cfg)).map fun i => (p.cursor + i) % portCount cfg).find?
      (fun i => !(p.table proto).getD i false) = some 0

lemma takesZero_iff {cfg : BrokerCfg} {proto : Proto} {n : ℕ} {p : Ports} :
    p.TakesZero cfg proto n ↔
      (tmPortAlloc cfg proto n p).1 = 0 ∧ (tmPortAlloc cfg proto n p).2 ≠ p := by
  unfold Ports.TakesZero portCount tmPortAlloc
  dsimp only
  split_ifs with h1 h2
  · exact iff_of_false (fun h => absurd h.2.1 (by omega)) fun h => h.2 rfl
  · simp only [Bool.and_eq_true, decide_eq_true_eq, Bool.not_eq_true'] at h2
    refine iff_of_false (fun h => ?_) fun h => h2.1.1 h.1
    rw [h.1, Nat.sub_zero] at h2
    cases h2.2.symm.trans (h.2.2.1 h2.1.1 h2.1.2)
  · cases hf : find? (fun i => !(p.table proto).getD i false) ((range
      (cfg.publicPortEnd - cfg.publicPortStart + 1)).map fun i =>
        (p.cursor + i) % (cfg.publicPortEnd - cfg.publicPortStart + 1)) with
    | none => simp
    | some i =>
      constructor
      · rintro ⟨hs, -, -, hi⟩
        refine ⟨by rw [hs, some.inj hi], fun he => ?_⟩
        -- the number of ports in use has changed
        have := congrArg Ports.used he
        dsimp only at this
        omega
      · rintro ⟨h0, -⟩
        obtain ⟨hs, rfl⟩ := Nat.add_eq_zero_iff.1 h0
        refine ⟨hs, by omega, fun hn hr => ?_, rfl⟩
        simpa [hn, hr, hs] using h2

lemma ports_tmTunnelCreate {proto : Proto} {closed : Bool} {ah th : Bytes} {n : ℕ} :
    (tmTunnelCreate id proto closed ah th n bound b).2.ports =
      if b.shuttingDown = false ∧ b.tunnelCount < b.cfg.maxTunnels ∧ tmTunnelFind id b = none ∧
        id.length ≤ tmTunnelIdLen ∧ ¬ (closed = true ∧ proto = .tcp)
      then (tmPortAlloc b.cfg proto n b.ports).2 else b.ports := by
  unfold tmTunnelCreate
  split
  · rename_i h
    rw [if_neg (by simp [h])]
  split
  · rename_i h
    rw [if_neg fun hc => absurd hc.2.1 (Int.not_lt.2 h)]
  split
  · rename_i h
    rw [if_neg fun hc => by simp [hc.2.2.1] at h]
  split
  · rename_i h
    rw [if_neg fun hc => absurd hc.2.2.2.1 (Nat.not_le.2 h)]
  rename_i h1 h2 h3 h4
  by_cases hc : closed = true ∧ proto = .tcp
  · simp [hc.1, hc.2]
  · have hn : (!(closed && decide (proto = .tcp))) = true := by simpa [imp_iff_not_or] using hc
    rw [if_pos ⟨by simpa using h1, Int.not_le.1 h2, by simpa using h3, Nat.not_lt.1 h4, hc⟩, hn]
    dsimp only
    rw [if_pos rfl]
    split <;> rfl

lemma ports_createTunnel (r : CreateReq) : (createTunnel digest r rand rand' bound b).1.ports =
    if r.Asks b then (tmPortAlloc b.cfg r.proto (r.preferPort % 2 ^ 16) b.ports).2
    else b.ports := by
  unfold createTunnel
  split
  · rw [if_neg]
    rintro ⟨h0, -, -, -, h1, -⟩
    omega
  rename_i hl
  split
  · rename_i h
    rw [if_neg]
    rintro ⟨-, -, -, h1, -⟩
    simp [h1] at h
  have ha : r.Asks b ↔ _ := and_iff_right (not_or.1 hl).1
  simp only [ha]
  split
  all_goals
    rename_i h
    rw [← ports_tmTunnelCreate, h]

lemma createTunnel_error {r : CreateReq}
    (h : (createTunnel digest r rand rand' bound b).2 = .error msg) :
    (createTunnel digest r rand rand' bound b).1 = b ↔
      ¬ (r.Asks b ∧ b.ports.TakesZero b.cfg r.proto (r.preferPort % 2 ^ 16)) := by
  have hp : (createTunnel digest r rand rand' bound b).1.ports = _ := ports_createTunnel r
  obtain ⟨_, he⟩ | ⟨h0, _, he⟩ | ⟨t, ports, -, -, -, -, -, -, -, -, _, _, he⟩ :=
    createTunnel_cases digest r rand rand' bound b
  · rw [he] at hp ⊢
    refine iff_of_true rfl fun ⟨ha, hz⟩ => ?_
    rw [if_pos ha] at hp
    exact (takesZero_iff.1 hz).2 hp.symm
  · rw [he] at hp ⊢
    constructor
    · rintro hb ⟨-, hz⟩
      exact (takesZero_iff.1 hz).2 (congrArg Broker.ports hb)
    · intro hz
      by_cases ha : r.Asks b
      · rw [not_not.1 fun hp => hz ⟨ha, takesZero_iff.2 ⟨h0, hp⟩⟩]
      · rw [if_neg ha] at hp
        dsimp only at hp ⊢
        rw [hp]
  · rw [he] at h
    cases h

lemma withTunnel_error {f : Tunnel → Broker × IpcReply}
    (hf : ∀ t, (f t).2 = .error msg → (f t).1 = b) (h : (withTunnel id b f).2 = .error msg) :
    (withTunnel id b f).1 = b := by
  unfold withTunnel at h ⊢
  split
  · rfl
  · rename_i t ht
    rw [ht] at h
    exact hf t h

/-- The operation takes port 0. -/
def IpcOp.TakesZero (b : Broker) : IpcOp → Prop
  | .createTunnel r _ _ _ => r.Asks b ∧ b.ports.TakesZero b.cfg r.proto (r.preferPort % 2 ^ 16)
  | _ => False

lemma ipcHandleOp_error {op : IpcOp} (h : (ipcHandleOp digest b op).2 = .error msg) :
    (ipcHandleOp digest b op).1 = b ↔ ¬ op.TakesZero b := by
  cases op with
  | createTunnel => exact createTunnel_error h
  | deleteTunnel => exact iff_of_true (withTunnel_error (fun _ h => by cases h) h) id
  | disableTunnel | enableTunnel =>
    refine iff_of_true (withTunnel_error (fun t h => ?_) h) id
    split_ifs at h ⊢
    rfl
  | rotateAgentSecret | rotateSharedToken =>
    exact iff_of_true (withTunnel_error (fun _ h => by cases h) h) id
  | killStream =>
    refine iff_of_true (withTunnel_error (fun t h => ?_) h) id
    split at h
    · rfl
    · cases h

/-- The request is a `create_tunnel` for which `tm_port_alloc` takes port 0. -/
def TakesPortZero (req : Option IpcRequest) (rand rand' : Bytes) (bound : Bool) (b : Broker) :
    Prop :=
  ∃ op, req.map (ipcOp · rand rand' bound) = some (.ok (some op)) ∧ op.TakesZero b

/-- A request that is answered with an error leaves the broker as it was, if and only if it does not
take port 0. -/
theorem failed_request_unchanged (digest : Bytes → Digest) (req : Option IpcRequest)
    (rand rand' : Bytes) (bound : Bool) (b : Broker) (msg : String)
    (h : (ipcRequest digest req rand rand' bound b).2 = .error msg) :
    (ipcRequest digest req rand rand' bound b).1 = b ↔ ¬ TakesPortZero req rand rand' bound b := by
  unfold ipcRequest TakesPortZero at *
  cases req with
  | none => exact iff_of_true rfl (by simp)
  | some fields =>
    cases hop : ipcOp fields rand rand' bound with
    | error => simp [hop]
    | ok op =>
      cases op with
      | none => simp [hop]
      | some op =>
        simp only [hop] at h
        simpa [hop] using ipcHandleOp_error h

theorem failed_request_unchanged_twice :
    let b := (ipcRequest padDigest (some [(ascii "op", .string (ascii "create_tunnel")),
      (ascii "tunnel_id", .string [65]), (ascii "proto", .string (ascii "tcp"))]) [1] [2] true
      smallBroker).1
    b.tunnelCount = 1 ∧
    (ipcRequest padDigest (some [(ascii "op", .string (ascii "create_tunnel")),
      (ascii "tunnel_id", .string [65]), (ascii "proto", .string (ascii "udp"))]) [3] [4] true
      b).1 = b := by
  refine ⟨by decide, (failed_request_unchanged _ _ _ _ _ _ "tunnel already exists"
    (by decide)).2 ?_⟩
  rintro ⟨op, -, hz⟩
  revert hz
  cases op with
  | createTunnel => exact fun h => absurd h.2.1 (by decide)
  | _ => exact id

def portZeroBroker : Broker :=
  { cfg := { publicPortStart := 0, publicPortEnd := 1 }
    ports := { tcp := [false, false], udp := [false, false] } }

theorem failed_create_marks : BrokerInit portZeroBroker ∧
    (ipcRequest padDigest (some [(ascii "op", .string (ascii "create_tunnel")),
      (ascii "tunnel_id", .string [65]), (ascii "proto", .string (ascii "tcp"))]) [1] [2] true
      portZeroBroker).2 = .error "create failed" ∧ portZeroBroker.ports.tcp = [false, false] ∧
    (ipcRequest padDigest (some [(ascii "op", .string (ascii "create_tunnel")),
      (ascii "tunnel_id", .string [65]), (ascii "proto", .string (ascii "tcp"))]) [1] [2] true
      portZeroBroker).1.ports.tcp = [true, false] :=
  ⟨⟨_, by decide, rfl⟩, by decide, rfl, by decide⟩

/-! ## Successes -/

def Tunnel.Serves (t : Tunnel) : Prop :=
  match t.proto with
  | .tcp => t.listenerOpen = true ∨ t.listenerClosing = true ∧ t.listenerRestartPending = true
  | .udp => t.udpOpen = true

instance (t : Tunnel) : Decidable t.Serves :=
  match h : t.proto with
  | .tcp => decidable_of_iff (t.listenerOpen = true ∨
      t.listenerClosing = true ∧ t.listenerRestartPending = true) (by simp [Tunnel.Serves, h])
  | .udp => decidable_of_iff (t.udpOpen = true) (by simp [Tunnel.Serves, h])

/-- Starting the tunnel gets to binding its socket. -/
def Tunnel.Binds (t : Tunnel) : Prop :=
  match t.proto with
  | .tcp => t.listenerOpen = false ∧ t.listenerClosing = false
  | .udp => t.udpOpen = false

lemma serves_start (hd : t.deleting = false) (ho : t.closed = false ∨ t.proto = .udp) :
    (tunnelStart bound t).Serves ↔ (t.Binds → bound = true) := by
  cases hp : t.proto with
  | tcp =>
    have hc : t.closed = false := by simpa [hp] using ho
    simp only [tunnelStart, hp, if_true, tmTunnelListenerStart, hc, hd, ne_eq, not_true_eq_false,
      false_or, Bool.false_eq_true, if_false]
    split_ifs with h1 h2
    · simp [Tunnel.Serves, Tunnel.Binds, hp, h1]
    · simp [Tunnel.Serves, Tunnel.Binds, hp, h2]
    · simp [Tunnel.Serves, Tunnel.Binds, hp, h1, h2]
  | udp =>
    simp only [tunnelStart, hp, reduceCtorEq, if_false, tmUdpStart, ne_eq, not_true_eq_false,
      false_or]
    split_ifs with h1
    · simp [Tunnel.Serves, Tunnel.Binds, hp, h1]
    · simp [Tunnel.Serves, Tunnel.Binds, hp, h1]

lemma tmTunnelFind_updTun {f : Tunnel → Tunnel}
    (h : tmTunnelFind id b = some t) (hr : ∀ u, (f u).registered = u.registered)
    (hi : ∀ u, (f u).id = u.id) : tmTunnelFind id (b.updTun t.ref f) = some (f t) := by
  unfold tmTunnelFind at h ⊢
  have hp : ((fun u : Tunnel => u.registered && decide (u.id = id)) ∘
      fun u : Tunnel => if Keyed.key u = t.ref then f u else u) =
        fun u => u.registered && decide (u.id = id) := by
    funext u
    dsimp only [Function.comp]
    split_ifs
    · rw [hr, hi]
    · rfl
  rw [Broker.updTun, Table.upd, find?_map, hp, h, map_some]
  exact congrArg some (if_pos rfl)

/-- In every run, an operation that starts a tunnel is answered with an error, or its answer gives
the tunnel's port, and the tunnel is served there if and only if no bind it came to failed. -/
theorem started_serves {tr : List (Broker × BrokerEvent)}
    (h : Trace (brokerStep digest) BrokerInit tr b) (bound : Bool) :
    (∀ r rand rand', (r.closed = false ∨ r.proto = .udp) →
      let res := ipcHandleOp digest b (.createTunnel r rand rand' bound)
      (∃ msg, res.2 = .error msg) ∨ ∃ t s ah s' th, tmTunnelFind r.tunnelId res.1 = some t ∧
        res.2 = .created t.id t.publicPort s ah s' th ∧ (t.Serves ↔ bound = true)) ∧
    ∀ id t, tmTunnelFind id b = some t → (t.closed = false ∨ t.proto = .udp) →
      let res := ipcHandleOp digest b (.enableTunnel id bound)
      (∃ msg, res.2 = .error msg) ∨ ∃ t', tmTunnelFind id res.1 = some t' ∧ res.2 = .ok ∧
        t'.publicPort = t.publicPort ∧ (t'.Serves ↔ (t.Binds → bound = true)) := by
  constructor
  · intro r rand rand' ho
    dsimp only [ipcHandleOp]
    obtain ⟨_, he⟩ | ⟨-, _, he⟩ | ⟨t, ports, hc, ⟨port, rfl⟩, hid, hp, hcl, -, -, -, s, s', he⟩ :=
      createTunnel_cases digest r rand rand' bound b
    · exact .inl ⟨_, by rw [he]⟩
    · exact .inl ⟨_, by rw [he]⟩
    · refine .inr ⟨_, s, _, s', _, ?_, by rw [he], ?_⟩
      · rw [he, tmTunnelFind, find?_cons_of_pos]
        simp [hc.registered, hid]
      · rw [serves_start rfl ho]
        cases r.proto <;> simp [Tunnel.Binds]
  · intro id t ht ho
    obtain ⟨hm, hreg, -⟩ := mem_tmTunnelFind ht
    have hd : t.deleting = false := by
      have := ((Wf.of_trace h).ok t hm).deleting
      simpa [hreg] using this
    dsimp only [ipcHandleOp, withTunnel]
    rw [ht]
    dsimp only
    split_ifs with hen
    · exact .inl ⟨_, rfl⟩
    · exact .inr ⟨_, tmTunnelFind_updTun ht (fun _ => Tunnel.Rest.start.registered)
        (fun _ => Tunnel.Rest.start.id), rfl, Tunnel.Rest.start.port, serves_start hd ho⟩

theorem started_serves_again : ∃ tr b, Trace (brokerStep padDigest) BrokerInit tr b ∧
    (∃ t', tmTunnelFind [65] (ipcHandleOp padDigest b (.enableTunnel [65] false)).1 = some t' ∧
      t'.publicPort = 1 ∧ t'.Serves) ∧ ∃ t', tmTunnelFind [66] (ipcHandleOp padDigest b
      (.createTunnel { tunnelId := [66], proto := .udp, closed := true } [1] [2] true)).1 =
        some t' ∧ t'.Serves := by
  let r : CreateReq := { tunnelId := [66], proto := .udp, closed := true }
  obtain ⟨tr, b, h, ⟨t, -, ht, hcl, hc, hp, htcp⟩, hok, hmade⟩ := smallBroker_trace
    [creates [65] false, .ipc (.disableTunnel [65])]
    (fun p => (∃ t ∈ p.2.tunnels, tmTunnelFind [65] p.2 = some t ∧ t.listenerClosing = true ∧
        t.closed = false ∧ t.publicPort = 1 ∧ t.proto = .tcp) ∧
      (ipcHandleOp padDigest p.2 (.enableTunnel [65] false)).2 = .ok ∧
      (ipcHandleOp padDigest p.2 (.createTunnel r [1] [2] true)).2 =
        .created [66] 2 [1] (hexOf padDigest [1]) [2] (hexOf padDigest [2])) (by decide)
  refine ⟨tr, b, h, ?_, ?_⟩
  · rcases (started_serves h false).2 [65] t ht (.inl hc) with ⟨_, he⟩ | ⟨t', h1, -, h2, h3⟩
    · cases hok.symm.trans he
    · exact ⟨t', h1, h2.trans hp, h3.2 fun hb => by simp [Tunnel.Binds, htcp, hcl] at hb⟩
  · rcases (started_serves h true).1 r [1] [2] (.inr rfl) with ⟨_, he⟩ | ⟨t', _, _, _, _, h1, -, h3⟩
    · cases hmade.symm.trans he
    · exact ⟨t', h1, h3.2 rfl⟩

theorem created_deaf : BrokerInit smallBroker ∧ (ipcHandleOp padDigest smallBroker
      (.createTunnel { tunnelId := [65], proto := .tcp, closed := false } [1] [2] false)).2 =
      .created [65] 1 [1] (hexOf padDigest [1]) [] [] ∧
    ∀ t ∈ tmTunnelFind [65] (ipcHandleOp padDigest smallBroker
      (.createTunnel { tunnelId := [65], proto := .tcp, closed := false } [1] [2] false)).1,
      ¬ t.Serves :=
  ⟨smallBroker_init, by decide, by decide⟩

/-! ## Replies -/

section Replies

variable {parse : Bytes → Option IpcRequest} {s s' : Broker × IpcConn} {l : IpcLabel}

lemma splitLines_append (xs ys : Bytes) : splitLines (xs ++ ys) =
    ((splitLines xs).1 ++ (splitLines ((splitLines xs).2 ++ ys)).1,
      (splitLines ((splitLines xs).2 ++ ys)).2) := by
  induction xs with
  | nil => rfl
  | cons c xs ih =>
    rw [cons_append, splitLines, splitLines, ih]
    dsimp only
    split_ifs with hc
    · rfl
    cases (splitLines xs).1 with
    | nil =>
      simp only [nil_append, cons_append]
      rw [splitLines]
      simp [hc]
    | cons => rfl

def ipcInput : List ((Broker × IpcConn) × IpcLabel) → Bytes
  | [] => []
  | (_, .read data _) :: tr => ipcInput tr ++ data
  | _ :: tr => ipcInput tr

def IpcLabel.Fits (s : Broker × IpcConn) : IpcLabel → Prop
  | .read data _ => s.2.rbuf.length + data.length ≤ ipcRbufSize - 1
  | _ => True

def IpcLabel.Single (s : Broker × IpcConn) : IpcLabel → Prop
  | .read data _ =>
    (splitLines (s.2.rbuf ++ data)).1.length ≤ if s.2.writing then 0 else 1
  | _ => True

lemma served_foldl (xs : List (Bytes × Bytes × Bytes × Bool)) (s : Broker × IpcConn) :
    (xs.foldl (ipcServe digest parse) s).2.served.map Prod.fst =
      s.2.served.map Prod.fst ++ xs.map Prod.fst := by
  induction xs generalizing s with
  | nil => simp
  | cons x xs ih =>
    have hx : (ipcServe digest parse s x).2.served.map Prod.fst =
        s.2.served.map Prod.fst ++ [x.1] := by
      unfold ipcServe IpcConn.ipcSend
      dsimp only
      split_ifs <;> simp
    rw [foldl_cons, ih, hx, append_assoc]
    rfl

structure Replied (input : Bytes) (pc : IpcConn) : Prop where
  rbuf : pc.rbuf = (splitLines input).2
  served : pc.served.map Prod.fst = (splitLines input).1
  written : pc.written = pc.served.map Prod.snd

lemma Replied.read {input data : Bytes} {draw : ℕ → Bytes × Bytes × Bool}
    (h : Replied input s.2) (hc : (s.2.closePending || s.2.handleClosing) = false)
    (hf : IpcLabel.Fits s (.read data draw)) (h1 : IpcLabel.Single s (.read data draw)) :
    Replied (input ++ data) (ipcConnRead digest parse data draw s).2 := by
  unfold ipcConnRead
  rw [if_neg (Nat.not_lt.2 hf)]
  have hin := splitLines_append input data
  rw [← h.rbuf] at hin
  refine ⟨by rw [hin], ?_, ?_⟩
  · rw [hin, served_foldl, h.served, List.map_map]
    simp [Function.comp_def]
  · simp only [IpcLabel.Single] at h1
    dsimp only
    match hl : (splitLines (s.2.rbuf ++ data)).1 with
    | [] => exact h.written
    | [line] =>
      have hw : s.2.writing = false := by
        by_contra hw
        rw [hl, if_pos (by simpa using hw)] at h1
        simp at h1
      simp [ipcServe, IpcConn.ipcSend, hw, hc, h.written]
    | _ :: _ :: _ =>
      rw [hl] at h1
      split_ifs at h1 <;> simp at h1

/-- Where no request is complete before the reply to the last one is written, each is answered by
one reply, in their order, however the bytes are cut. -/
theorem replies_in_order {tr : List ((Broker × IpcConn) × IpcLabel)}
    (h : Trace (ipcStep digest parse) (·.2 = {}) tr s)
    (hf : ∀ p ∈ tr, p.2.Fits p.1) (h1 : ∀ p ∈ tr, p.2.Single p.1) :
    s.2.served.map Prod.fst = (splitLines (ipcInput tr)).1 ∧
    s.2.written = s.2.served.map Prod.snd := by
  suffices hr : Replied (ipcInput tr) s.2 from ⟨hr.served, hr.written⟩
  induction h with
  | start hi =>
    rw [hi]
    exact ⟨rfl, rfl, rfl⟩
  | @next tr s s' l _ hs ih =>
    rw [forall_mem_cons] at hf h1
    have hi := ih hf.2 h1.2
    cases l with
    | read =>
      simp only [ipcStep] at hs
      split_ifs at hs with hc
      cases hs
      exact hi.read (by simpa using hc) hf.1 h1.1
    | writeDone =>
      simp only [ipcStep, ite_none_right_eq_some] at hs
      cases hs.2
      exact { hi with }
    | eof =>
      simp only [ipcStep] at hs
      split_ifs at hs
      cases hs
      unfold IpcConn.ipcConnClose
      split_ifs
      · exact hi
      · exact { hi with }
      · exact { hi with }
    | other b =>
      cases hs
      exact hi

theorem replies_in_order_two : ∃ tr s, Trace (ipcStep padDigest fun _ => none) (·.2 = {}) tr s ∧
    s.2.served.map Prod.fst = [[120], [121]] ∧ s.2.written = s.2.served.map Prod.snd := by
  let draw : ℕ → Bytes × Bytes × Bool := fun _ => ([], [], true)
  have h0 : Trace (ipcStep padDigest fun _ => none) (·.2 = {}) [] (smallBroker, {}) := .start rfl
  have h := ((h0.next (i := .read [120, 10, 121] draw) rfl).next (i := .writeDone) rfl).next
    (i := .read [10] draw) rfl
  have := replies_in_order h (by simp [IpcLabel.Fits, ipcRbufSize]; decide)
    (by simp [IpcLabel.Single]; decide)
  exact ⟨_, _, h, this.1, this.2⟩

/-- Two requests in one piece: both are executed, and one reply is written. -/
theorem reply_dropped : ∃ tr s, Trace (ipcStep padDigest fun _ => none) (·.2 = {}) tr s ∧
    (∀ p ∈ tr, p.2.Fits p.1) ∧ (splitLines (ipcInput tr)).1.length = 2 ∧
    s.2.served.length = 2 ∧ s.2.written.length = 1 := by
  let draw : ℕ → Bytes × Bytes × Bool := fun _ => ([], [], true)
  have h0 : Trace (ipcStep padDigest fun _ => none) (·.2 = {}) [] (smallBroker, {}) := .start rfl
  have h := h0.next (i := .read [120, 10, 121, 10] draw) rfl
  exact ⟨_, _, h, by simp [IpcLabel.Fits, ipcRbufSize], by decide, rfl, rfl⟩

end Replies

end TunnelMate
