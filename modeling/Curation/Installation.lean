import Curation.AssetStore
import Curation.Catalog.Definition
import Curation.Catalog.State
import Curation.DatabaseUrl

/-! An installation: its settings, the files that it can reach, and its databases. A database in a file comes into
    being when it is first connected to; one in memory is forgotten when the engine is closed. -/

namespace Curation

open Files (Path Tree FileAct)

/-- A database as it is kept: whether its tables have been created, and what they hold. -/
structure StoredDatabase where
  created : Bool := false
  tables : Tables := {}
  deriving DecidableEq, Repr

/-- An installation. -/
structure Installation where
  settings : Settings
  /-- The place that relative paths start at. -/
  home : List String := []
  files : Tree := {}
  /-- The databases in files, by their places. -/
  stored : List (List String × StoredDatabase) := []
  /-- The database in memory. -/
  memory : StoredDatabase := {}

/-- Something done to an installation: it ends with a value or a failure, and in either case changes it. -/
abbrev Job (α : Type) := ExceptT Failure (StateM Installation) α

namespace Installation

/-- The tables of the program, in the order of their names. -/
def tableNames : List String := ["collections", "collections_projects", "projects"]

/-- Goes on with a value, or fails. -/
def take (r : Except Failure α) : Job α :=
  match r with
  | .ok a => return a
  | .error e => throw e

/-- The address of the database. -/
def url : Job DatabaseUrl := do take (DatabaseUrl.ofText (← get).settings.databaseUrl)

/-- Where the database lies. -/
def location : Job DatabaseUrl.Location := do take (← url).location

/-- A number that a machine is known by on the way to itself. -/
def isLoopback (host : String) : Bool :=
  match Text.splitAt '.' host with
  | ["127", a, b, c] => [a, b, c].all fun n => !n.isEmpty && n.toNat?.any (· < 256)
  | _ => false

/-- What connecting to a server that does not answer ends with. -/
def unanswered (host : Option String) (port : Option Int) : Failure :=
  match host with
  | some host => if isLoopback host then .connectionRefused host (port.getD 5432) else .database .operational
  | none => .database .operational

/-- Connects to the database. -/
def connect : Job StoredDatabase := do
  let i ← get
  match ← location with
  | .memory => return i.memory
  | .server host port => throw (unanswered host port)
  | .file path =>
    if path.text.toList.contains '\x00' then throw (.badValue .nullCharacter)
    let place := path.resolve i.home
    let p := Path.ofPlace place
    match i.files.find? place with
    | some (.file _) => return (i.stored.lookup place).getD {}
    | _ =>
      match i.files.write [] p .empty with
      | .ok files =>
        set { i with files }
        return {}
      | .error _ => throw (.database .operational)

/-- Keeps what the database has become. -/
def keep (d : StoredDatabase) : Job Unit := do
  match ← location with
  | .memory => modify fun i => { i with memory := d }
  | .server _ _ => return
  | .file path =>
    modify fun i =>
      let place := path.resolve i.home
      let size := if d.created then Catalog.fileSize Catalog.definitions else 0
      { i with
        files := i.files.insert place (.file ⟨Array.replicate size 0⟩)
        stored := (place, d) :: i.stored.filter fun e => e.1 ≠ place }

/-- Whether the database can be reached. -/
def check : Job Bool := fun i =>
  match connect i with
  | (.ok _, i) => (.ok true, i)
  | (.error _, i) => (.ok false, i)

/-- Creates the tables that are missing. -/
def createTables : Job Unit := do
  let d ← connect
  keep { d with created := true }

/-- Closes the engine; a database in memory is forgotten. -/
def disconnect : Job Unit := modify fun i => { i with memory := {} }

/-- The text after the last mark for a local file, or the whole text. -/
def filePart (url : String) : String :=
  ((Text.splitChars '\x00' (url.replace ":///" "\x00").toList).getLast?.map String.ofList).getD url

/-- Makes the directory of a database in a file. -/
def makeDirectory : Job Unit := do
  let i ← get
  let part := filePart i.settings.databaseUrl
  if i.settings.isSqlite && part ≠ ":memory:" then
    let p := Path.ofText part
    let (result, files) := FileAct.makeDirectories i.home { p with names := p.names.dropLast } i.files
    set { i with files }
    match result with
    | .ok _ => return
    | .error e => throw (.files e)

/-- Prepares the database for the application: makes its directory, tests whether it can be reached, and in
    development creates the tables. -/
def prepare : Job Unit := do
  makeDirectory
  unless ← check do throw (.runtime "Failed to connect to database")
  if (← get).settings.environment == .development then createTables

/-- How many connections more than its size the pool may have; one of size nothing has no limit. -/
def overflowLimit (s : Settings) : Int := if s.poolSize = 0 then -1 else s.maxOverflow

/-- What there is to say about the database without connecting to it. -/
def describe : Job (Keyed Json.Value) := do
  let u ← url
  let _ ← location
  let s := (← get).settings
  let pool : Keyed Json.Value := if s.isSqlite then []
    else [("pool", .list ([s.poolSize, overflowLimit s, s.poolTimeout, s.poolRecycle].map .integer))]
  return [("is_sqlite", .boolean s.isSqlite), ("dialect", .text u.kind), ("same", .boolean true),
    ("url", .text u.maskedText), ("echo", .boolean s.echo)] ++ pool

/-- Runs an operation on the tables in a session of its own. -/
def runSession (now : Time.Instant) (a : Act α) : Job α := do
  let d ← connect
  let i ← get
  let start : State := {
    now, db := { committed := d.tables, absent := !d.created, enforce := i.settings.sqliteReferences } }
  let (result, s) := a start
  keep { d with tables := s.db.committed }
  match result with
  | .ok x => return x
  | .error e => throw e

/-- The names of the tables that the database has. -/
def tables : Job (List String) := do
  let d ← connect
  return if d.created then tableNames else []

/-- Whether the database enforces references between tables. -/
def enforcesReferences : Job Bool := do
  let _ ← connect
  return (← get).settings.sqliteReferences

end Installation

namespace Catalog

/-- Adds a project. -/
def addProject (id title : String) : Act Unit :=
  Act.execute fun t => t.insertProject ⟨id, title⟩

/-- The projects, in the order of their ids. -/
def allProjects : Act (List Project) :=
  Act.query fun t => t.projects.mergeSort fun a b => decide (a.id ≤ b.id)

end Catalog

end Curation
