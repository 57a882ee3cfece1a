import Curation.Catalog.Fetch
import Curation.Validation

/-! Writing collections. The caller owns the transaction; each write tells the session which ids the cache
    may no longer answer for. -/

namespace Curation.Catalog

open Time (Stamp Timestamp)

/-- Fails or goes on as a check says. -/
def check : Except Failure α → Act α
  | .ok a => return a
  | .error e => throw e

/-- Draws ids until one is not taken. Each of `fuel` draws costs a statement. -/
def drawId : Nat → Act String
  | 0 => throw (.runtime "no unused id")
  | fuel + 1 => do
    let s ← get
    let (id, ids) := s.ids.next
    set { s with ids }
    let taken ← Act.query fun t => (t.row? id).isSome
    if taken then drawId fuel else return id

/-- An id that no collection has. Given ids may be taken, and of one more numbered ids than there are rows
    one is free. -/
def freshId : Act String := do
  let s ← get
  drawId (s.ids.given.length + s.tables.collections.length + 1)

/-- The ids of the projects of a collection, in order, straight from the database. -/
def members (id : String) : Act (List String) := Act.query (·.membersOf id)

/-- Adds projects to a collection; a membership that is there already is left alone. Returns the ids, each
    one once. -/
def link (id : String) (projects : List String) : Act (List String) := do
  let projects := distinct projects
  if projects.isEmpty then return projects
  let s ← get
  let links := projects.map fun p => Link.mk id p
  match s.db.dialect with
  | .sqlite | .postgresql => Act.execute (·.insertLinks s.db.enforce true links)
  | .generic =>
    let existing ← members id
    let fresh := links.filter fun l => !existing.contains l.project
    unless fresh.isEmpty do
      Act.execute (·.insertLinks s.db.enforce false fresh)
  Act.forget id
  return projects

/-- Removes every project from a collection and counts them. -/
def unlink (id : String) : Act Nat := do
  let n ← Act.execute fun t => .ok (t.deleteLinks id)
  Act.forget id
  return n

/-- Adds a collection with its projects, and returns it as it was given. -/
def add (owner title description : String) (projects : List String) (status : Status := .initial) :
    Act Collection := do
  let id ← freshId
  let now := (← get).now
  Act.flush (·.insertRow {
    id, owner, title, description, status := status.word, iconUrl := none, color := none
    created := .stamp (.exact now), updated := .stamp (.exact now) })
  let linked ← link id projects
  let c ← check (Collection.checked {
    id, owner, title, description, status
    created := .ofInstant now, updated := .ofInstant now, projects := sorted linked })
  Act.remember c
  return c

/-- Changes a row, which must be there. -/
def change (id : String) (f : Row → Row) : Act Unit := do
  let now := (← get).now
  let n ← Act.execute fun t => .ok (t.updateRow now id f)
  if n = 0 then throw (.notFound id)
  Act.forget id

/-- The status that a word in a request stands for. -/
def parseStatus (w : String) : Except Failure Status :=
  match Status.ofWord? w with
  | some s => .ok s
  | none => .error (.unknownStatus w)

/-- Changes the given fields of a collection, one statement for each, once all of them are found
    valid. -/
def revise (id : String) (title description status : Option String) : Act Unit := do
  check (Validation.ensure (Validation.edit title description none))
  let status ← check (status.mapM parseStatus)
  title.forM fun t => change id ({ · with title := t })
  description.forM fun d => change id ({ · with description := d })
  status.forM fun s => change id ({ · with status := s.word })

/-- Sets the icon of a collection and its colour, or clears both. -/
def writeIcon (id : String) (url : Option String) (color : Option Int) : Act Unit := do
  color.forM Act.bindInteger
  change id ({ · with iconUrl := url, color := color.map Cell.integer })

/-- Deletes a collection and its memberships. Tells whether it was there. -/
def erase (id : String) : Act Bool := do
  let _ ← unlink id
  let s ← get
  let n ← Act.execute fun t => .ok (t.deleteRow s.db.enforce id)
  Act.forget id
  return 0 < n

end Curation.Catalog
