import Curation.Http.App
import Curation.Installation

/-! Starting the application of an installation. -/

namespace Curation.Http

/-- How the application is started: whether the database is prepared first, whether missing tables are created in any
    case, and whether blobs are kept in memory whatever the settings say. -/
structure StartOptions where
  prepare : Bool := true
  createTables : Bool := false
  blobsInMemory : Bool := false
  now : Time.Instant
  ids : IdSource := {}
  /-- Projects that are there from the start. -/
  projects : List Project := []
  /-- What images are read with. -/
  images : Image.Library := {}

namespace App

/-- Connects to the database. Tells whether that is possible. -/
def connect (o : StartOptions) : Job (StoredDatabase × Bool) := do
  if o.prepare then Installation.prepare
  if o.createTables then Installation.createTables
  if ← Installation.check then return (← Installation.connect, true) else return ({}, false)

/-- The application of an installation. -/
def start (o : StartOptions) (i : Installation) : Except Failure App := do
  checkRoot i.settings.apiRoot
  match connect o i with
  | (.error e, _) => .error e
  | (.ok (d, connected), i) =>
    let s := i.settings
    let unavailable := match Installation.location i with
      | (.error e, _) => some e
      | (.ok _, _) => none
    let disk : Option Disk := match s.assetStore i.home with
      | .files store => if o.blobsInMemory then none else some { store, tree := i.files }
      | .bucket _ => none
    .ok {
      settings := s
      state := {
        now := o.now
        ids := o.ids
        db := {
          committed := { d.tables with projects := d.tables.projects ++ o.projects }
          absent := !d.created
          enforce := s.sqliteReferences }
        cache := { ttl := s.cacheTtl }
        blobs := { disk }
        place := .ofSettings s o.images }
      connected
      unavailable
      prepared := o.prepare }

end App

end Curation.Http
