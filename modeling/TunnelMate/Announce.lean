import TunnelMate.Api

/-!
# Announcements

The rest of what an owner can ask `main.py` for: `get_tunnel` and the requests on announcements. An
announcement belongs to a tunnel, and the management secret of the tunnel is asked for; the requests
of `Api` reach the announcements as well, a renewal and a deletion right before they respond.

With the attributes of a request comes their JSON text or what `validate_attributes` raises.
-/

namespace TunnelMate.Announce

open Api (Row findRow tunnelForOwner)

structure Settings extends Api.Settings where
  brokerControlPort : ℕ

/-- `peer_address`, as `create_tunnel` puts it together out of the columns of the row. -/
inductive PeerAddress
  /-- `protocol://public_host:port`. -/
  | direct (protocol : Proto) (port : ℕ)
  /-- `tunnel://public_host:port/tunnel_id`. -/
  | tunnel (port : ℕ) (tunnelId : Bytes)

/-- A row of `announcements`. -/
structure Announcement where
  announcementId : Bytes
  tunnelId : Bytes
  protocol : Proto
  /-- Whether `scope` is `closed`. -/
  closed : Bool
  peerAddress : PeerAddress
  serviceName : Bytes
  serviceId : Bytes
  llms : Bytes
  attributesJson : Bytes
  enabled : Bool := true
  verified : Bool := false
  createdAt : ℕ
  updatedAt : ℕ
  expiresAt : ℕ

def findAnn (id : Bytes) (anns : List Announcement) : Option Announcement :=
  anns.find? (·.announcementId = id)

/-- `UPDATE announcements … WHERE announcement_id=?`. -/
def updateAnn (id : Bytes) (f : Announcement → Announcement) (anns : List Announcement) :
    List Announcement :=
  anns.map fun a => if a.announcementId = id then f a else a

/-- `UPDATE announcements … WHERE tunnel_id=?`. -/
def updateOf (tunnelId : Bytes) (f : Announcement → Announcement) (anns : List Announcement) :
    List Announcement :=
  anns.map fun a => if a.tunnelId = tunnelId then f a else a

/-! ## Requests and responses -/

/-- The length of a text, whose UTF-8 bytes are given. -/
def charCount (text : Bytes) : ℕ := text.countP fun c => c &&& 0xC0 ≠ 0x80

/-- A body that has been validated; of its rules only the one on the id is kept. -/
structure AnnouncementCreate where
  tunnelId : Bytes
  serviceName : Bytes
  serviceId : Bytes
  llms : Bytes
  attributes : Except String Bytes
  length_tunnelId : 8 ≤ charCount tunnelId ∧ charCount tunnelId ≤ 32

structure AnnouncementPatch where
  serviceName : Option Bytes := none
  serviceId : Option Bytes := none
  llms : Option Bytes := none
  attributes : Option (Except String Bytes) := none
  enabled : Option Bool := none

inductive Request
  /-- Those that `Api` has. -/
  | tunnel (q : Api.Request)
  | getTunnel (id : Bytes) (secret : Option Bytes)
  /-- `id` is what `public_id` draws. -/
  | createAnnouncement (body : AnnouncementCreate) (secret : Option Bytes) (id : Bytes)
  | updateAnnouncement (id : Bytes) (body : AnnouncementPatch) (secret : Option Bytes)
  | deleteAnnouncement (id : Bytes) (secret : Option Bytes)

/-- What `get_tunnels` says of a tunnel. -/
structure Runtime where
  agentOnline : Bool
  streamsActive : ℕ
  rxBytes : ℕ
  txBytes : ℕ

inductive Response
  | tunnelPublic (row : Row) (runtime : Option Runtime)
  | announcementPublic (a : Announcement)
  | deleted (announcementId : Bytes)
  | error (status : ℕ) (code message : String)
  /-- An exception that no handler catches. -/
  | internal

def tunnelNotFound : Response := .error 404 "TUNNEL_NOT_FOUND" "Tunnel was not found."

def announcementNotFound : Response :=
  .error 404 "ANNOUNCEMENT_NOT_FOUND" "Announcement was not found."

def invalidAttributes (msg : String) : Response := .error 422 "INVALID_ATTRIBUTES" msg

/-! ## The handlers -/

variable (cfg : Settings) (cap : Bytes → Bytes)

def peerAddress (r : Row) : PeerAddress :=
  if !r.closed then .direct r.protocol r.publicPort
  else .tunnel (if r.protocol = .udp then r.publicPort else cfg.brokerControlPort) r.tunnelId

/-- `announcement_for_owner`: the announcement joined with its tunnel, and the check of
`tunnel_for_owner`. -/
def announcementForOwner (id : Bytes) (secret : Option Bytes) (db : List Row)
    (anns : List Announcement) : Option Announcement :=
  (findAnn id anns).filter fun a => (tunnelForOwner cap a.tunnelId secret db).isSome

def createAnnouncement (body : AnnouncementCreate) (secret : Option Bytes) (id : Bytes) (now : ℕ)
    (db : List Row) (anns : List Announcement) : List Announcement × Response :=
  match tunnelForOwner cap body.tunnelId secret db with
  | none => (anns, tunnelNotFound)
  | some r =>
    match body.attributes with
    | .error msg => (anns, invalidAttributes msg)
    | .ok json =>
      -- `announcement_id` is the primary key
      if (findAnn id anns).isSome then (anns, .internal)
      else
        let a : Announcement :=
          { announcementId := id, tunnelId := r.tunnelId, protocol := r.protocol,
            closed := r.closed, peerAddress := peerAddress cfg r, serviceName := body.serviceName,
            serviceId := body.serviceId, llms := body.llms, attributesJson := json,
            createdAt := now, updatedAt := now, expiresAt := r.expiresAt }
        (anns ++ [a], .announcementPublic a)

/-- The changes of a patch, which are none if it has no field. -/
def AnnouncementPatch.apply (body : AnnouncementPatch) (json : Option Bytes) (now : ℕ)
    (a : Announcement) : Announcement :=
  if body.serviceName = none ∧ body.serviceId = none ∧ body.llms = none ∧ json = none ∧
      body.enabled = none then a
  else
    { a with
      serviceName := body.serviceName.getD a.serviceName
      serviceId := body.serviceId.getD a.serviceId
      llms := body.llms.getD a.llms
      attributesJson := json.getD a.attributesJson
      enabled := body.enabled.getD a.enabled
      updatedAt := now }

def updateAnnouncement (id : Bytes) (body : AnnouncementPatch) (secret : Option Bytes) (now : ℕ)
    (db : List Row) (anns : List Announcement) : List Announcement × Response :=
  match announcementForOwner cap id secret db anns with
  | none => (anns, announcementNotFound)
  | some _ =>
    match body.attributes with
    | some (.error msg) => (anns, invalidAttributes msg)
    | attributes =>
      let anns := updateAnn id (body.apply (attributes.bind Except.toOption) now) anns
      (anns, (findAnn id anns).elim .internal .announcementPublic)

def deleteAnnouncement (id : Bytes) (secret : Option Bytes) (now : ℕ) (db : List Row)
    (anns : List Announcement) : List Announcement × Response :=
  match announcementForOwner cap id secret db anns with
  | none => (anns, announcementNotFound)
  | some _ =>
    (updateAnn id (fun a => { a with enabled := false, updatedAt := now }) anns, .deleted id)

/-- What `renew_tunnel` and `delete_tunnel` do to the announcements of the tunnel before they
respond. -/
def follow (now : ℕ) (t : Api.Turn) (anns : List Announcement) : List Announcement :=
  match t.response with
  | some (.renewed id expires) =>
    updateOf id (fun a => { a with expiresAt := expires, updatedAt := now }) anns
  | some (.deleted id) => updateOf id (fun a => { a with enabled := false, updatedAt := now }) anns
  | _ => anns

/-! ## Runs -/

structure State where
  api : Api.State
  anns : List Announcement := []
  /-- The coroutines of `get_tunnel`, each with the row it has read. -/
  reads : List (Ref × Row) := []
  nextRead : Ref := 0
  responses : List Response := []

inductive Label
  | request (q : Request)
  /-- The call of a `get_tunnel` has ended; with it what it says of the tunnel. -/
  | fetched (c : Ref) (runtime : Option Runtime)
  /-- Everything else that happens to the API. -/
  | api (l : Api.Label)

variable (digest : Bytes → Digest)

/-- What the handler or the coroutine of a label has come to. -/
def turnOf (s : Api.State) : Api.Label → Option Api.Turn
  | .request q => some (Api.handle cfg.toSettings cap q s.now s.mono s.rate s.db).1
  | .resume c o stored =>
    (Table.get c s.tasks).bind fun t =>
      (o.result (s.answers.lookup c)).map (t.wait.resume cfg.toSettings cap s.now stored s.db)
  | _ => none

def State.apiStep (l : Api.Label) (s : State) : Option State :=
  (Api.step cfg.toSettings cap digest s.api l).map fun a =>
    { s with
      api := a
      anns := (turnOf cfg cap s.api l).elim s.anns fun t => follow s.api.now t s.anns
      reads := if l = .apiRestart then [] else s.reads }

def State.respond (r : List Announcement × Response) (s : State) : State :=
  { s with anns := r.1, responses := r.2 :: s.responses }

def getTunnel (id : Bytes) (secret : Option Bytes) (s : State) : State :=
  match tunnelForOwner cap id secret s.api.db with
  | none => s.respond (s.anns, tunnelNotFound)
  | some r => { s with reads := (s.nextRead, r) :: s.reads, nextRead := s.nextRead + 1 }

def step (s : State) : Label → Option State
  | .request q =>
    if !s.api.serving then none
    else
      match q with
      | .tunnel q => s.apiStep cfg cap digest (.request q)
      | .getTunnel id secret => some (getTunnel cap id secret s)
      | .createAnnouncement body secret id =>
        some (s.respond (createAnnouncement cfg cap body secret id s.api.now s.api.db s.anns))
      | .updateAnnouncement id body secret =>
        some (s.respond (updateAnnouncement cap id body secret s.api.now s.api.db s.anns))
      | .deleteAnnouncement id secret =>
        some (s.respond (deleteAnnouncement cap id secret s.api.now s.api.db s.anns))
  | .fetched c runtime =>
    (s.reads.lookup c).map fun r =>
      { s with
        reads := s.reads.filter (·.1 ≠ c)
        responses := .tunnelPublic r runtime :: s.responses }
  | .api (.request _) => none
  | .api l => s.apiStep cfg cap digest l

/-- A new deployment. -/
def Init (s : State) : Prop := Api.Init s.api ∧ s = { api := s.api }

end TunnelMate.Announce
