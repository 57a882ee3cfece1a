import Curation.Collection
import Curation.Keyed
import Curation.Time.Iso

/-! The tables of the catalog, and the statements on them: what each one reads, changes and refuses. -/

namespace Curation

open Time (Instant Stamp Timestamp)

/-- A time as a row holds it: one that the program or the database wrote, or whatever else was put there. -/
inductive RowTime where
  | stamp (s : Stamp)
  | other (c : Cell)
  deriving DecidableEq, Repr

namespace RowTime

/-- The time, if it can be read as one. -/
def read : RowTime → Except Failure Timestamp
  | stamp s => .ok s.toTimestamp
  | other (.text s) =>
    match Timestamp.ofIsoText s with
    | .ok t => .ok t
    | .error e => .error (.badValue e)
  | other _ => .error (.badType .timeNotText)

def toCell : RowTime → Cell
  | stamp s => .text s.text
  | other c => c

end RowTime

/-- A row of the table of collections. -/
structure Row where
  id : String
  owner : String
  title : String
  description : String
  /-- The word for the status. -/
  status : String
  iconUrl : Option String
  color : Option Cell
  created : RowTime
  updated : RowTime
  deriving DecidableEq, Repr

/-- A row of the table of memberships. -/
structure Link where
  collection : String
  project : String
  deriving DecidableEq, Repr

/-- A row of the table of projects. -/
structure Project where
  id : String
  title : String
  deriving DecidableEq, Repr

/-- The contents of the database. -/
structure Tables where
  collections : List Row := []
  links : List Link := []
  projects : List Project := []
  deriving DecidableEq, Repr

/-- The texts in the order of their characters. -/
def sorted (ss : List String) : List String := ss.mergeSort fun a b => decide (a ≤ b)

/-- The texts in the order of their first appearance, each one once. -/
def distinct : List String → List String
  | [] => []
  | s :: ss => s :: (distinct ss).filter (· ≠ s)

/-- The same time in UTC. -/
def inUtc (t : Timestamp) : Except Failure Timestamp :=
  match t.toUtc? with
  | some t => .ok t
  | none => .error (.overflow .date)

/-- The times of a row as they are read. -/
def Row.times (r : Row) : Except Failure (Timestamp × Timestamp) := do
  return (← r.created.read, ← r.updated.read)

/-- The collection that a row and the ids of its projects stand for. -/
def Row.toCollection (r : Row) (members : List String) : Except Failure Collection := do
  let (created, updated) ← r.times
  match Status.ofWord? r.status with
  | none => .error (.badValue (.word .status r.status))
  | some status =>
    Collection.checked {
      id := r.id, owner := r.owner, title := r.title, description := r.description, status
      created := ← inUtc created, updated := ← inUtc updated
      iconUrl := r.iconUrl, color := r.color, projects := members }

namespace Tables

/-! ### Reading -/

/-- The row of a collection. -/
def row? (t : Tables) (id : String) : Option Row := t.collections.find? fun r => r.id == id

/-- The rows of the collections with one of the ids, in the order of their ids. -/
def rowsOf (t : Tables) (ids : List String) : List Row :=
  (t.collections.filter fun r => ids.contains r.id).mergeSort fun a b => decide (a.id ≤ b.id)

/-- The ids of the projects of a collection, in order. -/
def membersOf (t : Tables) (id : String) : List String :=
  sorted ((t.links.filter fun l => l.collection == id).map (·.project))

/-- The members of each of several collections. -/
def membersOfEach (t : Tables) (ids : List String) : Keyed (List String) :=
  ids.map fun id => (id, t.membersOf id)

def hasProject (t : Tables) (id : String) : Bool := t.projects.any fun p => p.id == id

/-- The ids among the given ones that belong to a project. -/
def knownProjects (t : Tables) (ids : List String) : List String :=
  (distinct ids).filter t.hasProject

/-- The collection that the tables hold under an id. -/
def collection? (t : Tables) (id : String) : Option (Except Failure Collection) :=
  (t.row? id).map fun r => r.toCollection (t.membersOf id)

/-- A membership is between a collection and a project that are there. -/
def supports (t : Tables) (l : Link) : Bool := (t.row? l.collection).isSome && t.hasProject l.project

/-! ### Writing -/

/-- Adds the row of a collection. -/
def insertRow (t : Tables) (r : Row) : Except Refusal (Unit × Tables) :=
  if (t.row? r.id).isSome then .error .integrity
  else .ok ((), { t with collections := t.collections ++ [r] })

/-- Adds a project. -/
def insertProject (t : Tables) (p : Project) : Except Refusal (Unit × Tables) :=
  if t.hasProject p.id then .error .integrity
  else .ok ((), { t with projects := t.projects ++ [p] })

/-- Changes the row of a collection and notes the second of the change. Counts the rows. -/
def updateRow (t : Tables) (now : Instant) (id : String) (change : Row → Row) : Nat × Tables :=
  ((t.collections.filter fun r => r.id == id).length,
    { t with collections := t.collections.map fun r =>
        if r.id == id then { change r with updated := .stamp (.second now) } else r })

/-- Deletes the memberships of a collection and counts them. -/
def deleteLinks (t : Tables) (id : String) : Nat × Tables :=
  ((t.links.filter fun l => l.collection == id).length,
    { t with links := t.links.filter fun l => l.collection != id })

/-- Deletes the row of a collection, its memberships too where references are enforced. Counts the
    rows. -/
def deleteRow (t : Tables) (enforce : Bool) (id : String) : Nat × Tables :=
  ((t.collections.filter fun r => r.id == id).length,
    { t with
      collections := t.collections.filter fun r => r.id != id
      links := if enforce then t.links.filter fun l => l.collection != id else t.links })

/-- Adds memberships. One that is there already is skipped if that is allowed, and breaks a key if
    not. -/
def insertLinks (t : Tables) (enforce skip : Bool) (ls : List Link) : Except Refusal (Unit × Tables) :=
  if !skip && ls.any t.links.contains then .error .integrity
  else
    let fresh := ls.filter fun l => !t.links.contains l
    if enforce && !fresh.all t.supports then .error .integrity
    else .ok ((), { t with links := t.links ++ fresh })

end Tables

end Curation
