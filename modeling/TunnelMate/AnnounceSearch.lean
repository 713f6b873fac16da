import TunnelMate.AnnounceAdmin
import TunnelMate.IpcRequest

/-!
# The query of a search

The conditions that `search_announcements` reads from the query: those it gives to SQLite, and those
on the attributes, which it tests itself. What `str` makes of the value of an attribute is an
argument.
-/

namespace TunnelMate.Announce

/-- The query parameters as `q.get` gives them. One that is absent is empty: the code does not tell
the two apart. -/
structure Query where
  service : Bytes := []
  q : Bytes := []
  serviceId : Bytes := []
  scope : Bytes := []
  protocol : Bytes := []
  tunnelId : Bytes := []
  /-- The parameters `attribute.k=v` in their order, without the first part of the name. -/
  attributes : List (Bytes × Bytes) := []

/-! ## `LIKE` -/

/-- The characters of a text in UTF-8. -/
def chars (text : Bytes) : List Bytes := text.splitBy fun _ b => b &&& 0xC0 = 0x80

/-- The case of ASCII letters goes. -/
def lower (c : Bytes) : Bytes := c.map fun b => if 65 ≤ b ∧ b ≤ 90 then b + 32 else b

/-- In a pattern `%` stands for any text and `_` for any character. -/
def like : List Bytes → List Bytes → Bool
  | [], text => text = []
  | p :: pattern, text =>
    if p = [37] then text.tails.any (like pattern)
    else
      match text with
      | [] => false
      | c :: text => (p = [95] || lower p = lower c) && like pattern text

/-! ## `search_announcements` -/

def Query.text (q : Query) : Bytes := if q.service ≠ [] then q.service else q.q

def Announcement.scope (a : Announcement) : Bytes := ascii (if a.closed then "closed" else "open")

def Announcement.protocolName (a : Announcement) : Bytes :=
  ascii (if a.protocol = .tcp then "tcp" else "udp")

/-- A clause `a.key=?`, which is there if the parameter is. -/
def given (value column : Bytes) : Bool := value = [] || column = value

def Query.givens (q : Query) (a : Announcement) : Bool :=
  given q.serviceId a.serviceId && given q.scope a.scope && given q.protocol a.protocolName &&
    given q.tunnelId a.tunnelId

def Query.clauses (q : Query) (a : Announcement) : Bool :=
  let pattern := [37] :: (chars q.text ++ [[37]])
  (q.text = [] || (like pattern (chars a.serviceName) || like pattern (chars a.serviceId))) &&
    q.givens a

/-- `attr_filters`: of several values for one key the last stays. -/
def attrFilters : List (Bytes × Bytes) → List (Bytes × Bytes)
  | [] => []
  | kv :: items =>
    if items.any (·.1 = kv.1) then attrFilters items else kv :: attrFilters items

/-- `str` gives the text of the value that a key has in the attributes, if it is there. -/
def Query.filters (str : Bytes → Bytes → Option Bytes) (q : Query) (a : Announcement) : Bool :=
  (attrFilters q.attributes).all fun kv =>
    (str a.attributesJson kv.1).getD (ascii "None") = kv.2

def search (str : Bytes → Bytes → Option Bytes) (q : Query) (now : ℕ) (db : List Api.Row)
    (anns : List Announcement) : List Announcement :=
  searchAnnouncements q.clauses (q.filters str) now db anns

end TunnelMate.Announce
