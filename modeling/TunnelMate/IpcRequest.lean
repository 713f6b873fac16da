import TunnelMate.Ipc

/-!
# The requests of the IPC socket

What stands before the operations of `Ipc`: the line that `ipc_conn_read` has parsed, as the members
of its JSON object, and the checks of `ipc_handle_op` on the fields it looks at.

Left out: the elements of arrays and objects in a member, which nothing looks at, and what the
reports of `get_status` and `get_tunnels` say.
-/

namespace TunnelMate

/-- A member of a request, as `cJSON_Parse` leaves it. -/
inductive CJson
  | null
  | bool (v : Bool)
  /-- With the integer part of `valuedouble`. -/
  | number (v : ℤ)
  /-- With the C string `valuestring`. -/
  | string (s : Bytes)
  | array
  | object
  deriving DecidableEq

/-- A request; what is no object has no members. -/
abbrev IpcRequest := List (Bytes × CJson)

/-- The bytes of a C string literal. -/
def ascii (s : String) : Bytes := s.toList.map (·.toNat.toUInt8)

namespace IpcRequest

/-- `cJSON_GetObjectItemCaseSensitive`. -/
def item (name : String) (req : IpcRequest) : Option CJson := req.lookup (ascii name)

/-- The `valuestring` of an item, if it `cJSON_IsString`. -/
def str (name : String) (req : IpcRequest) : Option Bytes :=
  match req.item name with
  | some (.string s) => some s
  | _ => none

/-- The `valuedouble` of an item, if it `cJSON_IsNumber`. -/
def num (name : String) (req : IpcRequest) : Option ℤ :=
  match req.item name with
  | some (.number v) => some v
  | _ => none

end IpcRequest

/-- The fields of `create_tunnel`. -/
def createFields (req : IpcRequest) : Option CreateReq :=
  match req.str "tunnel_id", req.str "proto" with
  | some id, some proto =>
    some
      { tunnelId := id
        proto := if proto = ascii "udp" then .udp else .tcp
        closed := req.item "closed" = some (.bool true)
        agentSecret := req.str "agent_secret"
        sharedToken := req.str "shared_token"
        agentSecretHmac := req.str "agent_secret_hmac"
        sharedTokenHmac := req.str "shared_token_hmac"
        preferPort := ((req.num "prefer_port").getD 0 % 2 ^ 16).toNat }
  | _, _ => none

/-- Operations that only report. -/
def reports : List Bytes :=
  [ascii "health", ascii "get_status", ascii "get_tunnels", ascii "reload"]

/-- What `ipc_handle_op` finds in a request before it looks at the broker: the text of an error, an
operation, or a report. `rand`, `rand'` and `bound` are those of `IpcOp`. -/
def ipcOp (req : IpcRequest) (rand rand' : Bytes) (bound : Bool) : Except String (Option IpcOp) :=
  match req.str "op" with
  | none => .error "missing op"
  | some op =>
    let onTunnel (f : Bytes → IpcOp) : Except String (Option IpcOp) :=
      match req.str "tunnel_id" with
      | none => .error "tunnel_id required"
      | some id => .ok (some (f id))
    if reports.any (op = ·) then .ok none
    else if op = ascii "create_tunnel" then
      match createFields req with
      | none => .error "tunnel_id and proto required"
      | some r => .ok (some (.createTunnel r rand rand' bound))
    else if op = ascii "delete_tunnel" then onTunnel .deleteTunnel
    else if op = ascii "disable_tunnel" then onTunnel .disableTunnel
    else if op = ascii "enable_tunnel" then onTunnel fun id => .enableTunnel id bound
    else if op = ascii "rotate_agent_secret" then
      onTunnel fun id => .rotateAgentSecret id (req.str "secret") rand
    else if op = ascii "rotate_shared_token" then
      onTunnel fun id => .rotateSharedToken id (req.str "secret") rand
    else if op = ascii "kill_stream" then
      match req.str "tunnel_id", req.num "stream_id" with
      | some id, some sid => .ok (some (.killStream id (toU32 sid)))
      | _, _ => .error "tunnel_id and stream_id required"
    else .error "unknown op"

/-- The line of a request and its answer; `none` is a line that is no JSON. -/
def ipcRequest (digest : Bytes → Digest) (req : Option IpcRequest) (rand rand' : Bytes)
    (bound : Bool) (b : Broker) : Broker × IpcReply :=
  match req with
  | none => (b, .error "bad json")
  | some req =>
    match ipcOp req rand rand' bound with
    | .error msg => (b, .error msg)
    | .ok none => (b, .ok)
    | .ok (some op) => ipcHandleOp digest b op

/-! ## Connections -/

/-- `tm_ipc_conn`. -/
structure IpcConn where
  rbuf : Bytes := []
  writing : Bool := false
  closePending : Bool := false
  handleClosing : Bool := false
  -- what happened so far: the request lines with their answers, and the replies written
  served : List (Bytes × IpcReply) := []
  written : List IpcReply := []

namespace IpcConn

variable (pc : IpcConn)

def ipcConnClose : IpcConn :=
  if pc.handleClosing || pc.closePending then pc
  else if pc.writing then { pc with closePending := true }
  else { pc with handleClosing := true }

def ipcWriteDone : IpcConn :=
  { pc with writing := false, handleClosing := pc.handleClosing || pc.closePending }

def ipcSend (reply : IpcReply) : IpcConn :=
  if pc.writing || pc.closePending || pc.handleClosing then pc
  else { pc with writing := true, written := pc.written ++ [reply] }

end IpcConn

/-- The lines that are complete, and what follows them. -/
def splitLines : Bytes → List Bytes × Bytes
  | [] => ([], [])
  | c :: cs =>
    let (ls, rest) := splitLines cs
    if c = 10 then ([] :: ls, rest)
    else
      match ls with
      | [] => ([], c :: rest)
      | l :: ls => ((c :: l) :: ls, rest)

def ipcRbufSize : ℕ := 16384

section

variable (digest : Bytes → Digest) (parse : Bytes → Option IpcRequest)

/-- One line in the loop of `ipc_conn_read`, with what its request draws and how binding ends then.
`parse` is `cJSON_Parse`. -/
def ipcServe (s : Broker × IpcConn) (x : Bytes × Bytes × Bytes × Bool) : Broker × IpcConn :=
  let (line, rand, rand', bound) := x
  let (b, reply) := ipcRequest digest (parse (cStr line)) rand rand' bound s.1
  (b, IpcConn.ipcSend { s.2 with served := s.2.served ++ [(line, reply)] } reply)

def ipcConnRead (data : Bytes) (draw : ℕ → Bytes × Bytes × Bool) (s : Broker × IpcConn) :
    Broker × IpcConn :=
  if s.2.rbuf.length + data.length > ipcRbufSize - 1 then (s.1, s.2.ipcConnClose)
  else
    let (lines, rest) := splitLines (s.2.rbuf ++ data)
    let s := (lines.zipIdx.map fun l => (l.1, draw l.2)).foldl (ipcServe digest parse) s
    (s.1, { s.2 with rbuf := rest })

inductive IpcLabel
  | read (data : Bytes) (draw : ℕ → Bytes × Bytes × Bool)
  | writeDone
  | eof
  /-- Whatever else happens to the broker. -/
  | other (b : Broker)

def ipcStep (s : Broker × IpcConn) : IpcLabel → Option (Broker × IpcConn)
  | .read data draw =>
    if s.2.closePending || s.2.handleClosing then none
    else some (ipcConnRead digest parse data draw s)
  | .writeDone => if s.2.writing then some (s.1, s.2.ipcWriteDone) else none
  | .eof =>
    if s.2.closePending || s.2.handleClosing then none else some (s.1, s.2.ipcConnClose)
  | .other b => some (b, s.2)

end

end TunnelMate
