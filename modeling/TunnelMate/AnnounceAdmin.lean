import TunnelMate.Announce

/-!
# Announcements, for an admin and for everybody

The requests of an admin on announcements, and the public reads: a search, and the announcement of
an id. The runs are those of `Announce` with the admin's requests among the labels; the reads change
nothing.

A search comes with the rows that its other conditions keep.
-/

namespace TunnelMate.Announce

open Api (Row findRow)

/-! ## The requests of an admin -/

structure AdminAnnouncementPatch extends AnnouncementPatch where
  verified : Option Bool := none

def AdminAnnouncementPatch.apply (body : AdminAnnouncementPatch) (json : Option Bytes) (now : ℕ)
    (a : Announcement) : Announcement :=
  if body.serviceName = none ∧ body.serviceId = none ∧ body.llms = none ∧ json = none ∧
      body.enabled = none ∧ body.verified = none then a
  else
    { a with
      serviceName := body.serviceName.getD a.serviceName
      serviceId := body.serviceId.getD a.serviceId
      llms := body.llms.getD a.llms
      attributesJson := json.getD a.attributesJson
      enabled := body.enabled.getD a.enabled
      verified := body.verified.getD a.verified
      updatedAt := now }

def adminUpdateAnnouncement (id : Bytes) (body : AdminAnnouncementPatch) (now : ℕ)
    (anns : List Announcement) : List Announcement × Response :=
  match findAnn id anns with
  | none => (anns, announcementNotFound)
  | some _ =>
    match body.attributes with
    | some (.error msg) => (anns, invalidAttributes msg)
    | attributes =>
      let anns := updateAnn id (body.apply (attributes.bind Except.toOption) now) anns
      (anns, (findAnn id anns).elim .internal .announcementPublic)

def adminDeleteAnnouncement (id : Bytes) (anns : List Announcement) :
    List Announcement × Response :=
  if (findAnn id anns).isSome then (anns.filter (·.announcementId ≠ id), .deleted id)
  else (anns, announcementNotFound)

/-! ## The public reads -/

/-- The conditions that every search has on an announcement and its tunnel. -/
def visible (now : ℕ) (db : List Row) (a : Announcement) : Bool :=
  a.enabled && a.expiresAt > now && (findRow a.tunnelId db).any fun r => !r.deleted && r.enabled

/-- `search_announcements`; `clauses` are the other conditions of the query, and `attributes` those
that its result is filtered by. -/
def searchAnnouncements (clauses attributes : Announcement → Bool) (now : ℕ) (db : List Row)
    (anns : List Announcement) : List Announcement :=
  let rows := (anns.filter fun a => visible now db a && clauses a).insertionSort
    (·.updatedAt ≥ ·.updatedAt)
  (rows.take 200).filter attributes

/-- `get_announcement`; `none` is its 404. -/
def getAnnouncement (id : Bytes) (now : ℕ) (anns : List Announcement) : Option Announcement :=
  anns.find? fun a => a.announcementId = id && a.enabled && a.expiresAt > now

/-! ## Runs -/

namespace Admin

inductive Request
  | updateAnnouncement (id : Bytes) (body : AdminAnnouncementPatch)
  | deleteAnnouncement (id : Bytes)

inductive Label
  /-- Everything that happens without the admin's requests on announcements. -/
  | base (l : Announce.Label)
  | request (q : Request)

def handle (q : Request) (now : ℕ) (anns : List Announcement) : List Announcement × Response :=
  match q with
  | .updateAnnouncement id body => adminUpdateAnnouncement id body now anns
  | .deleteAnnouncement id => adminDeleteAnnouncement id anns

def step (cfg : Settings) (cap : Bytes → Bytes) (digest : Bytes → Digest) (s : State) :
    Label → Option State
  | .base l => Announce.step cfg cap digest s l
  | .request q =>
    if s.api.serving then some (s.respond (handle q s.api.now s.anns)) else none

end Admin

end TunnelMate.Announce
