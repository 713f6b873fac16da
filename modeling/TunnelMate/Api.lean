import TunnelMate.Ipc
import Mathlib.Data.List.Sort

/-!
# The control API

The coroutines of `main.py` that keep the `tunnels` table and the broker in step: the handlers of
the owner and admin requests, `lease_reaper`, and `restore_runtime` at startup. A coroutine runs
without interruption up to its next `await` of `BrokerClient.call`; there it waits as a `Task`. Its
request is on its way to the broker until the broker executes it or it is lost, whatever becomes of
the coroutine; and the coroutine may go on without an answer.
-/

namespace TunnelMate.Api

structure Settings where
  leaseSeconds : ℕ
  createRatePerMinute : ℕ
  maxTunnelsPerIp : ℕ

/-! ## The sliding window -/

/-- `RateWindow`: a deque of times for each key, the oldest first. -/
structure RateWindow where
  entries : List (Bytes × List ℕ) := []

/-- `RateWindow.allow` at time `now`. -/
def RateWindow.allow (key : Bytes) (limit : ℤ) (seconds now : ℕ) (w : RateWindow) :
    Bool × RateWindow :=
  let q := ((w.entries.lookup key).getD []).dropWhile (· + seconds ≤ now)
  let put (q : List ℕ) : RateWindow := { entries := (key, q) :: w.entries.filter (·.1 ≠ key) }
  if (q.length : ℤ) ≥ limit then (false, put q) else (true, put (q ++ [now]))

/-- A minute of `time.monotonic`, which counts nanoseconds here. -/
def minute : ℕ := 60 * 10 ^ 9

/-! ## The table -/

/-- A row of `tunnels`. -/
structure Row where
  tunnelId : Bytes
  protocol : Proto
  /-- Whether `scope` is `closed`. -/
  closed : Bool
  publicPort : ℕ
  agentSecretHmac : Bytes
  sharedTokenHmac : Bytes
  managementHmac : Bytes
  sourceIp : Bytes
  enabled : Bool := true
  deleted : Bool := false
  createdAt : ℕ
  expiresAt : ℕ
  deriving DecidableEq

def findRow (id : Bytes) (db : List Row) : Option Row := db.find? (·.tunnelId = id)

def updateRow (id : Bytes) (f : Row → Row) (db : List Row) : List Row :=
  db.map fun r => if r.tunnelId = id then f r else r

/-- `tunnel_id` is the primary key. -/
def insertRow (r : Row) (db : List Row) : Option (List Row) :=
  if (findRow r.tunnelId db).isSome then none else some (db ++ [r])

def Row.live (r : Row) (now : ℕ) : Bool := !r.deleted && r.expiresAt > now

/-- `SELECT COUNT(*) … WHERE source_ip=? AND deleted=0 AND expires_at>?`. -/
def activeTunnels (ip : Bytes) (now : ℕ) (db : List Row) : ℕ :=
  db.countP fun r => r.sourceIp = ip && r.live now

def markDeleted (r : Row) : Row := { r with deleted := true, enabled := false }

/-! ## Requests and responses -/

structure TunnelCreate where
  closed : Bool := false
  protocol : Proto := .tcp
  sharedToken : Option Bytes := none
  preferPort : Option ℕ := none
  deriving DecidableEq

/-- Who makes a request on a tunnel: somebody with a management secret, or an admin. -/
inductive Caller
  | owner (secret : Option Bytes)
  | admin
  deriving DecidableEq

inductive Cred
  | agentSecret | sharedToken
  deriving DecidableEq

inductive Request
  /-- `id` and `secret` are what `public_id` and `token_urlsafe` draw. -/
  | createTunnel (body : TunnelCreate) (ip : Bytes) (blocked : Bool) (id secret : Bytes)
  | updateTunnel (caller : Caller) (id : Bytes) (enabled : Bool)
  | deleteTunnel (caller : Caller) (id : Bytes)
  | renewTunnel (id : Bytes) (secret : Option Bytes)
  /-- `rotate_agent_secret` and `rotate_token`. -/
  | rotate (cred : Cred) (id : Bytes) (secret : Option Bytes)
  deriving DecidableEq

inductive Response
  | created (tunnelId : Bytes) (publicPort : ℕ) (agentSecret managementSecret : Bytes)
      (sharedToken : Option Bytes) (expiresAt : ℕ)
  | updated (row : Option Row)
  | deleted (tunnelId : Bytes)
  | renewed (tunnelId : Bytes) (expiresAt : ℕ)
  | rotated (tunnelId secret : Bytes)
  | error (status : ℕ) (code message : String)
  /-- An exception that no handler catches. -/
  | internal
  deriving DecidableEq

def notFound : Response := .error 404 "TUNNEL_NOT_FOUND" "Tunnel was not found."

/-! ## Calls of the broker -/

/-- An `await` of `BrokerClient.call`, with what the coroutine needs to go on. -/
inductive Wait
  | create (body : TunnelCreate) (ip id secret : Bytes)
  /-- The deletion after a failed `INSERT`. -/
  | undo (id : Bytes)
  | update (id : Bytes) (enabled : Bool)
  | delete (id : Bytes)
  | rotate (cred : Cred) (id : Bytes)
  /-- `lease_reaper`, with the rest of its rows. -/
  | reap (id : Bytes) (rest : List Bytes)
  -- the three calls of `restore_runtime`, with the rows still to be looked at
  | list (rows : List Row)
  | restore (row : Row) (rest : List Row)
  | restoreDisable (id : Bytes) (rest : List Row)
  deriving DecidableEq

inductive BrokerCall
  | createTunnel (r : CreateReq)
  | deleteTunnel (id : Bytes)
  | disableTunnel (id : Bytes)
  | enableTunnel (id : Bytes)
  | rotate (cred : Cred) (id : Bytes)
  | getTunnels
  deriving DecidableEq

def createReq (body : TunnelCreate) (id : Bytes) : CreateReq where
  tunnelId := id
  proto := body.protocol
  closed := body.closed
  sharedToken := some (body.sharedToken.getD [])
  preferPort := body.preferPort.getD 0

def restoreReq (row : Row) : CreateReq where
  tunnelId := row.tunnelId
  proto := row.protocol
  closed := row.closed
  preferPort := row.publicPort
  agentSecretHmac := some row.agentSecretHmac
  sharedTokenHmac := some row.sharedTokenHmac

def Wait.call : Wait → BrokerCall
  | .create body _ id _ => .createTunnel (createReq body id)
  | .undo id => .deleteTunnel id
  | .update id enabled => if enabled then .enableTunnel id else .disableTunnel id
  | .delete id => .deleteTunnel id
  | .rotate cred id => .rotate cred id
  | .reap id _ => .deleteTunnel id
  | .list _ => .getTunnels
  | .restore row _ => .createTunnel (restoreReq row)
  | .restoreDisable id _ => .disableTunnel id

/-- What the broker draws with `tm_rand_token`, where `RAND_bytes` does not fail, and how binding a
socket ends. -/
structure Draw where
  rand : Bytes := List.replicate 48 97
  rand' : Bytes := List.replicate 48 98
  bound : Bool := true
  length_rand : rand.length = 48 := by decide
  length_rand' : rand'.length = 48 := by decide
  deriving DecidableEq

/-- The operation of a call; `get_tunnels` changes nothing and is none. -/
def BrokerCall.op (d : Draw) : BrokerCall → Option IpcOp
  | .createTunnel r => some (.createTunnel r d.rand d.rand' d.bound)
  | .deleteTunnel id => some (.deleteTunnel id)
  | .disableTunnel id => some (.disableTunnel id)
  | .enableTunnel id => some (.enableTunnel id d.bound)
  | .rotate .agentSecret id => some (.rotateAgentSecret id none d.rand)
  | .rotate .sharedToken id => some (.rotateSharedToken id none d.rand)
  | .getTunnels => none

inductive Answer
  | reply (r : IpcReply)
  | tunnels (ids : List Bytes)

def BrokerCall.exec (digest : Bytes → Digest) (d : Draw) (k : BrokerCall) (b : Broker) :
    Option (Broker × Answer) :=
  match k.op d with
  | none =>
    if b.quiet none then some (b, .tunnels ((b.tunnels.filter (·.registered)).map (·.id))) else none
  | some op =>
    (brokerStep digest b (.ipc op)).map fun b' => (b', .reply (ipcHandleOp digest b op).2)

/-- `BrokerUnavailable` and `BrokerError`. -/
inductive BrokerExc
  | unavailable (text : String)
  | error (text : String)

def BrokerExc.text : BrokerExc → String
  | .unavailable text => text
  | .error text => text

/-- `"not found" in str(exc)`, for the errors that the broker and its client have. -/
def BrokerExc.notFound : BrokerExc → Bool
  | .unavailable _ => false
  | .error text => text = "tunnel not found" || text = "stream not found"

/-- How an `await` ends. -/
inductive Outcome
  | answered
  /-- The connection failed or timed out. -/
  | unavailable (text : String)
  /-- It was closed without an answer. -/
  | closed
  deriving DecidableEq

/-- What `BrokerClient.call` returns or raises, given the answer that was sent. -/
def Outcome.result (a : Option Answer) : Outcome → Option (Except BrokerExc Answer)
  | .answered =>
    a.map fun a =>
      match a with
      | .reply (.error msg) => .error (.error msg)
      | a => .ok a
  | .unavailable text => some (.error (.unavailable text))
  | .closed => some (.error (.error "invalid broker response"))

/-! ## The coroutines -/

/-- Where a coroutine gets to before it waits or ends. -/
structure Turn where
  db : List Row
  /-- It waits again. -/
  wait : Option Wait := none
  response : Option Response := none
  /-- `restore_runtime` has returned. -/
  started : Bool := false

variable (cfg : Settings) (cap : Bytes → Bytes)

/-- `tunnel_for_owner`; `cap` is `capability_hmac` under the secret key. -/
def tunnelForOwner (id : Bytes) (secret : Option Bytes) (db : List Row) : Option Row :=
  (findRow id db).filter fun r =>
    !r.deleted && secret.any fun x => x ≠ [] && cap x = r.managementHmac

def Caller.row (id : Bytes) (db : List Row) : Caller → Option Row
  | .owner secret => tunnelForOwner cap id secret db
  | .admin => (findRow id db).filter (!·.deleted)

def createTunnel (body : TunnelCreate) (ip : Bytes) (blocked : Bool) (id secret : Bytes)
    (now mono : ℕ) (rate : RateWindow) (db : List Row) : Turn × RateWindow :=
  if blocked then
    ({ db, response := some (.error 403 "SOURCE_BLOCKED" "Tunnel creation is not available.") },
      rate)
  else
    let (allowed, rate) := rate.allow ip cfg.createRatePerMinute minute mono
    if !allowed then
      ({ db, response :=
          some (.error 429 "CREATE_RATE_LIMIT" "Tunnel creation rate exceeded.") }, rate)
    else if activeTunnels ip now db ≥ cfg.maxTunnelsPerIp then
      ({ db, response := some (.error 429 "TUNNEL_LIMIT" "Active tunnel limit exceeded.") }, rate)
    else if !body.closed && body.sharedToken.any (· ≠ []) then
      ({ db, response := some (.error 422 "TOKEN_NOT_APPLICABLE"
          "shared_token is only valid for closed tunnels.") }, rate)
    else ({ db, wait := some (.create body ip id secret) }, rate)

/-- `update_tunnel` and `admin_update_tunnel`. -/
def updateTunnel (caller : Caller) (id : Bytes) (enabled : Bool) (db : List Row) : Turn :=
  match caller.row cap id db with
  | none => { db, response := some notFound }
  | some r =>
    if r.enabled = enabled then { db, response := some (.updated (findRow id db)) }
    else { db, wait := some (.update id enabled) }

/-- `delete_tunnel` and `admin_delete_tunnel`. -/
def deleteTunnel (caller : Caller) (id : Bytes) (db : List Row) : Turn :=
  match caller.row cap id db with
  | none => { db, response := some notFound }
  | some _ => { db, wait := some (.delete id) }

def renewTunnel (id : Bytes) (secret : Option Bytes) (now : ℕ) (db : List Row) : Turn :=
  match tunnelForOwner cap id secret db with
  | none => { db, response := some notFound }
  | some _ =>
    let expires := now + cfg.leaseSeconds
    { db := updateRow id (fun r => { r with expiresAt := expires }) db
      response := some (.renewed id expires) }

def rotate (cred : Cred) (id : Bytes) (secret : Option Bytes) (db : List Row) : Turn :=
  match tunnelForOwner cap id secret db with
  | none => { db, response := some notFound }
  | some r =>
    if cred = .sharedToken ∧ r.closed = false then
      { db, response :=
          some (.error 409 "TUNNEL_NOT_CLOSED" "Only closed tunnels have shared tokens.") }
    else { db, wait := some (.rotate cred id) }

def handle (r : Request) (now mono : ℕ) (rate : RateWindow) (db : List Row) : Turn × RateWindow :=
  match r with
  | .createTunnel body ip blocked id secret =>
    createTunnel cfg body ip blocked id secret now mono rate db
  | .updateTunnel caller id enabled => (updateTunnel cap caller id enabled db, rate)
  | .deleteTunnel caller id => (deleteTunnel cap caller id db, rate)
  | .renewTunnel id secret => (renewTunnel cfg cap id secret now db, rate)
  | .rotate cred id secret => (rotate cap cred id secret db, rate)

def brokerFailed (db : List Row) (exc : BrokerExc) : Turn :=
  { db, response := some (.error 503 "BROKER_OPERATION_FAILED" exc.text) }

def brokerUnavailable (db : List Row) : Turn :=
  { db, response := some (.error 503 "BROKER_UNAVAILABLE" "Broker runtime is unavailable.") }

/-- `create_tunnel` after the broker's call; `stored` says whether the database takes the row. -/
def createTunnelDone (body : TunnelCreate) (ip id secret : Bytes) (now : ℕ) (stored : Bool)
    (db : List Row) : Except BrokerExc Answer → Turn
  | .error (.unavailable _) => brokerUnavailable db
  | .error (.error text) => { db, response := some (.error 503 "TUNNEL_CREATE_FAILED" text) }
  | .ok (.reply (.created _ port agentSecret agentHmac token tokenHmac)) =>
    let row : Row :=
      { tunnelId := id, protocol := body.protocol, closed := body.closed, publicPort := port,
        agentSecretHmac := agentHmac, sharedTokenHmac := tokenHmac, managementHmac := cap secret,
        sourceIp := ip, createdAt := now, expiresAt := now + cfg.leaseSeconds }
    match if stored then insertRow row db else none with
    | none => { db, wait := some (.undo id) }
    | some db =>
      { db, response := some (.created id port agentSecret secret
          (if body.closed then some token else none) (now + cfg.leaseSeconds)) }
  | .ok _ => { db, response := some .internal }

def updateTunnelDone (id : Bytes) (enabled : Bool) (db : List Row) : Except BrokerExc Answer → Turn
  | .error exc => brokerFailed db exc
  | .ok _ =>
    let db := updateRow id (fun r => { r with enabled := enabled }) db
    { db, response := some (.updated (findRow id db)) }

def deleteTunnelDone (id : Bytes) (db : List Row) (r : Except BrokerExc Answer) : Turn :=
  let gone : Turn := { db := updateRow id markDeleted db, response := some (.deleted id) }
  match r with
  | .ok _ => gone
  | .error (.unavailable _) => brokerUnavailable db
  | .error exc => if exc.notFound then gone else brokerFailed db exc

def Row.setHmac (cred : Cred) (hmac : Bytes) (r : Row) : Row :=
  match cred with
  | .agentSecret => { r with agentSecretHmac := hmac }
  | .sharedToken => { r with sharedTokenHmac := hmac }

def rotateDone (cred : Cred) (id : Bytes) (db : List Row) : Except BrokerExc Answer → Turn
  | .error exc => brokerFailed db exc
  | .ok (.reply (.rotated secret hmac)) =>
    { db := updateRow id (Row.setHmac cred hmac) db, response := some (.rotated id secret) }
  | .ok _ => { db, response := some .internal }

/-- The loop of `lease_reaper`. -/
def reapNext (db : List Row) : List Bytes → Turn
  | [] => { db }
  | id :: rest => { db, wait := some (.reap id rest) }

/-- The loop of `restore_runtime`. -/
def restoreNext (db : List Row) : List Row → Turn
  | [] => { db, started := true }
  | row :: rest => { db, wait := some (.restore row rest) }

/-- What a coroutine does when its `await` returns or raises. -/
def Wait.resume (w : Wait) (now : ℕ) (stored : Bool) (db : List Row) (r : Except BrokerExc Answer) :
    Turn :=
  match w with
  | .create body ip id secret => createTunnelDone cfg cap body ip id secret now stored db r
  | .undo _ => { db, response := some .internal }
  | .update id enabled => updateTunnelDone id enabled db r
  | .delete id => deleteTunnelDone id db r
  | .rotate cred id => rotateDone cred id db r
  | .reap id rest => reapNext (updateRow id markDeleted db) rest
  | .list rows =>
    match r with
    | .ok (.tunnels existing) => restoreNext db (rows.filter (·.tunnelId ∉ existing))
    | .ok _ => restoreNext db rows
    | .error _ => { db, started := true }
  | .restore row rest =>
    match r with
    | .ok _ =>
      if row.enabled then restoreNext db rest
      else { db, wait := some (.restoreDisable row.tunnelId rest) }
    | .error _ => restoreNext db rest
  | .restoreDisable _ rest => restoreNext db rest

/-! ## Runs -/

/-- A call and the coroutine that waits for it. -/
structure Task where
  ref : Ref
  wait : Wait
  deriving DecidableEq

instance : Keyed Task := ⟨Task.ref⟩

structure State where
  /-- `now_s` and `time.monotonic`. -/
  now : ℕ := 0
  mono : ℕ := 0
  broker : Broker
  db : List Row := []
  rate : RateWindow := {}
  /-- `restore_runtime` is over: requests are served and the reaper runs. -/
  serving : Bool := true
  /-- The coroutines, each waiting for its call. -/
  tasks : List Task := []
  /-- The calls that have not reached the broker yet. -/
  sent : List Task := []
  answers : List (Ref × Answer) := []
  nextRef : Ref := 0
  responses : List Response := []

/-- A coroutine sends a request and waits. -/
def State.wait (w : Wait) (s : State) : State :=
  { s with
    tasks := ⟨s.nextRef, w⟩ :: s.tasks
    sent := ⟨s.nextRef, w⟩ :: s.sent
    nextRef := s.nextRef + 1 }

def State.turn (t : Turn) (s : State) : State :=
  let s := { s with
    db := t.db
    responses := t.response.toList ++ s.responses
    serving := s.serving || t.started }
  match t.wait with
  | none => s
  | some w => s.wait w

def State.reaping (s : State) : Bool :=
  s.tasks.any fun t => match t.wait with
    | .reap .. => true
    | _ => false

/-- The rows that `lease_reaper` selects. -/
def expiredIds (now : ℕ) (db : List Row) : List Bytes :=
  (db.filter fun r => !r.deleted && r.expiresAt ≤ now).map (·.tunnelId)

/-- The rows that `restore_runtime` selects. -/
def restorable (now : ℕ) (db : List Row) : List Row :=
  (db.filter (·.live now)).insertionSort (·.createdAt ≤ ·.createdAt)

/-- A broker that has just been started again. -/
def restarted (b : Broker) : Broker :=
  let n := b.cfg.publicPortEnd - b.cfg.publicPortStart + 1
  { cfg := b.cfg, ports := { tcp := List.replicate n false, udp := List.replicate n false } }

/-- Events that the broker has without the API's requests on tunnels. -/
def ownEvent : BrokerEvent → Bool
  | .ipc (.killStream ..) => true
  | .ipc _ => false
  | .cleanup => false
  | _ => true

inductive Label
  | tick (now mono : ℕ)
  | request (r : Request)
  /-- The reaper has slept. -/
  | reap
  /-- The broker executes the call. -/
  | exec (c : Ref) (d : Draw)
  /-- The call never reaches the broker. -/
  | drop (c : Ref)
  /-- The coroutine goes on. -/
  | resume (c : Ref) (o : Outcome) (stored : Bool)
  | broker (e : BrokerEvent)
  | brokerRestart
  | apiRestart
  deriving DecidableEq

variable (digest : Bytes → Digest)

def step (s : State) : Label → Option State
  | .tick now mono =>
    if s.now ≤ now ∧ s.mono ≤ mono then some { s with now := now, mono := mono } else none
  | .request r =>
    if s.serving then
      let (t, rate) := handle cfg cap r s.now s.mono s.rate s.db
      some ({ s with rate := rate }.turn t)
    else none
  | .reap =>
    if s.serving && !s.reaping then some (s.turn (reapNext s.db (expiredIds s.now s.db))) else none
  | .exec c d =>
    (Table.get c s.sent).bind fun t =>
      (t.wait.call.exec digest d s.broker).map fun r =>
        { s with broker := r.1, sent := Table.del c s.sent, answers := (c, r.2) :: s.answers }
  | .drop c =>
    if (Table.get c s.sent).isSome then some { s with sent := Table.del c s.sent } else none
  | .resume c o stored =>
    (Table.get c s.tasks).bind fun t =>
      (o.result (s.answers.lookup c)).map fun r =>
        { s with tasks := Table.del c s.tasks }.turn (t.wait.resume cfg cap s.now stored s.db r)
  | .broker e =>
    if ownEvent e then (brokerStep digest s.broker e).map fun b => { s with broker := b } else none
  | .brokerRestart => some { s with broker := restarted s.broker, sent := [] }
  | .apiRestart =>
    some ({ s with tasks := [], rate := {}, serving := false }.wait (.list (restorable s.now s.db)))

/-- A new deployment: an empty table and a broker that `main` has just started. -/
def Init (s : State) : Prop := BrokerInit s.broker ∧ s = { broker := s.broker }

end TunnelMate.Api
