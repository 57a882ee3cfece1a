import Curation.Catalog.Membership
import Curation.Digest
import Curation.Gate
import Curation.Image.Color
import Curation.Payload
import Curation.Text.Blank

/-! The operations that callers may ask for. Each one checks who asks and what is asked for before its
    first write, and does all of its writes in one transaction. -/

namespace Curation

open Catalog (check)

/-! ### Icons -/

namespace Icon

/-- Stores a blob. -/
def upload (contentType path : String) (data : ByteArray) : Act Unit := do
  let s ← get
  let (result, blobs) := s.blobs.upload contentType path data
  set { s with blobs }
  check result

/-- Deletes a blob; a failure is of no consequence. -/
def discard (path : String) : Act Unit :=
  Act.update fun s => { s with blobs := (s.blobs.delete path).2 }

/-- Has a blob deleted in the background. -/
def discardLater (path : String) : Act Unit :=
  Act.update fun s => { s with cleanups := s.cleanups ++ [path] }

/-- Deletes in the background the blob that comes first in the queue. -/
def runCleanup (s : State) : State :=
  match s.cleanups with
  | [] => s
  | path :: cleanups => { s with cleanups, blobs := (s.blobs.delete path).2 }

/-- Deletes every blob that is queued for deletion. -/
def runCleanups (s : State) : State := s.cleanups.foldl (fun s _ => runCleanup s) s

/-- Reads the body of an upload. -/
def readPayload (payload : Payload) : Act ByteArray := do
  let s ← get
  let (result, pulled) := payload.read s.place.maxSize s.place.sizeMessage
  set { s with pulled := s.pulled + pulled }
  check result

/-- Gives a collection a new icon. The blob is stored before the row is changed, and the old blob goes only
    after the change is committed. Returns the address of the icon. -/
def replace (c : Collection) (extension : String) (payload : Payload) : Act String := do
  let contentType ← check (requireContentType extension)
  let data ← readPayload payload
  let place := (← get).place
  let color := Image.colorOf? place.images data
  let path := place.path c.id (Digest.hex data) extension
  upload contentType path data
  let url := place.url path
  Act.atomically (Catalog.writeIcon c.id (some url) (color.map fun n => (n : Int)))
  match c.iconUrl.bind place.pathOfUrl? with
  | some old => if old ≠ path then discardLater old
  | none => return url
  return url

/-- Takes the icon of a collection away: its blob first, then its address in the row. -/
def remove (c : Collection) : Act Unit := do
  let place := (← get).place
  (c.iconUrl.bind place.pathOfUrl?).forM discard
  Act.atomically (Catalog.writeIcon c.id none none)

end Icon

namespace Service

/-- The collection with an id, which the actor must be able to change. -/
def fetchMaintained (actor : Actor) (id : String) : Act Collection := do
  let c ← Catalog.fetch id
  check (Gate.maintained id c actor)

/-- Creates a collection that the actor owns. Ids of projects that do not exist are left out. -/
def create (actor : Option Actor) (title description : String) (projects : List String := []) :
    Act Collection := do
  let actor ← check (Gate.writer actor .create)
  let title := Text.strip title
  check (Validation.ensure (Validation.create title description projects))
  Act.atomically do
    let known ← Catalog.knownProjects projects
    Catalog.add actor.userId title description known

/-- The collections with the given ids that the actor may see. -/
def list (actor : Option Actor) (ids : List String) : Act (List Collection) := do
  let found ← Catalog.fetchAll ids
  return Gate.visible found (Gate.reader actor)

/-- The collection with an id, if the actor may see it. -/
def get (actor : Option Actor) (id : String) : Act Collection := do
  let c ← Catalog.fetch id
  check (Gate.shown id c (Gate.reader actor))

/-- The fields that an edit brings; the others are left alone. -/
structure Edit where
  title : Option String := none
  description : Option String := none
  /-- The word for the new status. -/
  status : Option String := none
  /-- All of the new members. -/
  projects : Option (List String) := none
  deriving DecidableEq, Repr

/-- Edits a collection: all of the fields that the edit brings, or none of them. -/
def edit (actor : Option Actor) (id : String) (e : Edit) : Act Unit := do
  let actor ← check (Gate.writer actor .write)
  let title := e.title.map Text.strip
  check (Validation.ensure (Validation.edit title e.description e.projects))
  let status ← check (e.status.mapM Catalog.parseStatus)
  let c ← fetchMaintained actor id
  status.forM fun s => check (Gate.allowStatus actor c.status s)
  let projects ← e.projects.mapM Catalog.resolve
  Act.atomically do
    Catalog.revise c.id title e.description (status.map Status.word)
    projects.forM fun ps => do
      let _ ← Catalog.replaceMembers c.id ps true

/-- Gives a collection a new icon and returns its address. -/
def setIcon (actor : Option Actor) (id extension : String) (payload : Payload) : Act String := do
  let _ ← check (Icon.requireContentType extension)
  let actor ← check (Gate.writer actor .write)
  let c ← fetchMaintained actor id
  Icon.replace c extension payload

/-- Takes the icon of a collection away. -/
def clearIcon (actor : Option Actor) (id : String) : Act Unit := do
  let actor ← check (Gate.writer actor .write)
  let c ← fetchMaintained actor id
  Icon.remove c

/-- Deletes a collection with its memberships. -/
def delete (actor : Option Actor) (id : String) : Act Unit := do
  let actor ← check (Gate.writer actor .delete)
  let c ← fetchMaintained actor id
  let found ← Act.atomically (Catalog.erase c.id)
  unless found do throw (.notFound id)

end Service

end Curation
