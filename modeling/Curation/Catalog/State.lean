import Curation.Blobs
import Curation.Cache
import Curation.Catalog.Tables
import Curation.Icon
import Curation.IdSource

/-! The state that operations on the catalog act on, and its transactions. A session sees its own writes;
    others see them once they are committed. What a session wants to do to the cache while it is inside a
    transaction waits until the transaction ends. -/

namespace Curation

open Time (Instant)

/-- The families of databases that write memberships differently. -/
inductive Dialect where
  | sqlite
  | postgresql
  | generic
  deriving DecidableEq, Repr

/-- The database: what is committed, its settings, and how it answers the statements to come. -/
structure Database where
  committed : Tables := {}
  dialect : Dialect := .sqlite
  /-- Whether references between tables are enforced. -/
  enforce : Bool := true
  /-- Whether every write is refused. -/
  readOnly : Bool := false
  /-- Whether its tables are missing, so that every statement fails. -/
  absent : Bool := false
  /-- For each of the next statements and commits, whether the database fails at it; it fails at none
      after them. -/
  outages : List Bool := []

/-- What waits for the end of a transaction: to drop the entry of an id, or to store a collection. -/
abbrev Pending := Keyed (Option Collection)

/-- A session: what it sees while it is inside a transaction, and what waits for the end of it. A session that lost its
    transaction is stuck in what is left of it until it is rolled back. -/
structure Session where
  view : Option Tables := none
  pending : Pending := []
  stuck : Bool := false

/-- Everything that an operation may look at or change. -/
structure State where
  now : Instant
  ids : IdSource := {}
  db : Database := {}
  session : Session := {}
  cache : Cache := {}
  blobs : Blobs := {}
  place : Icon.Place := {}
  /-- The blobs that are to be deleted in the background. -/
  cleanups : List String := []
  /-- How many chunks of uploads have been pulled. -/
  pulled : Nat := 0

/-- An operation: it ends with a value or a failure, and in either case changes the state. -/
abbrev Act (α : Type) := ExceptT Failure (StateM State) α

/-- Does to the cache what waited for the end of a transaction: after a commit a collection to be stored is
    stored, and everything else is dropped. -/
def Pending.apply (p : Pending) (committed : Bool) (now : Instant) (c : Cache) : Cache :=
  p.foldl (fun c (id, v) =>
    match committed, v with
    | true, some v => c.set now v
    | _, _ => c.invalidate id) c

namespace State

/-- A transaction is open. -/
def inTransaction (s : State) : Bool := s.session.view.isSome

/-- The tables as the session sees them. -/
def tables (s : State) : Tables := s.session.view.getD s.db.committed

/-- Opens a transaction unless one is open. -/
def begin (s : State) : State := { s with session.view := some s.tables }

/-- Sets the tables that the session sees. -/
def withTables (s : State) (t : Tables) : State := { s with session.view := some t }

/-- Does to the cache what waited for the end of the transaction. -/
def flush (s : State) (committed : Bool) : State :=
  { s with
    session.pending := []
    cache := s.session.pending.apply committed s.now s.cache }

/-- The state after a commit that succeeds. -/
def committed (s : State) : State :=
  { s with db.committed := s.tables, session.view := none }.flush true

/-- The state after the writes of the open transaction, if any, are undone. -/
def rolledBack (s : State) : State :=
  if s.inTransaction then { s with session.view := none, session.stuck := false }.flush false else s

/-- The state after a session has lost its transaction: its writes are undone, but it does not leave the
    transaction. -/
def lost (s : State) : State :=
  { s with session.view := some s.db.committed, session.stuck := true }.flush false

/-- The state after the session is closed: its writes are undone, and what waited is forgotten. -/
def closed (s : State) : State := { s with session := {} }

/-- Whether the database fails at the next statement or commit. -/
def outage (s : State) : Bool := s.db.outages.headD false

def passOutage (s : State) : State := { s with db.outages := s.db.outages.tail }

end State

namespace Act

/-- Changes the state. -/
def update (f : State → State) : Act Unit := modify f

/-- Fails if the session is stuck. -/
def unstuck : Act Unit := do
  if (← get).session.stuck then throw (.database .pendingRollback)

/-- Opens a transaction unless one is open. -/
def begin : Act Unit := do
  unstuck
  update State.begin

/-- Runs a statement that reads. -/
def query (f : Tables → α) : Act α := do
  begin
  let s ← get
  update State.passOutage
  if s.outage || s.db.absent then throw (.database .operational)
  return f s.tables

/-- Runs a statement that writes; one that is refused changes nothing. -/
def execute (f : Tables → Except Refusal (α × Tables)) : Act α := do
  begin
  let s ← get
  update State.passOutage
  if s.outage || s.db.absent || s.db.readOnly then throw (.database .operational)
  match f s.tables with
  | .error r => throw (.database r)
  | .ok (a, t) =>
    update (·.withTables t)
    return a

/-- Runs a statement that writes; if it is refused the session loses its transaction. -/
def flush (f : Tables → Except Refusal (α × Tables)) : Act α := fun s =>
  match (execute f : Act α) s with
  | (.error e, s) => (.error e, s.lost)
  | (.ok a, s) => (.ok a, s)

/-- Sends a number with a statement, which must fit into 64 bits. -/
def bindInteger (n : Int) : Act Unit := do
  begin
  unless Cell.fits n do throw (.overflow .integer)

/-- Commits the open transaction, if any, and does what waited for it. -/
def commit : Act Unit := do
  unstuck
  let s ← get
  if s.inTransaction then
    update State.passOutage
    if s.outage then throw (.database .operational)
  update State.committed

/-- Undoes the open transaction, if any. -/
def rollback : Act Unit := update State.rolledBack

/-- Runs an operation as one transaction: it is committed if the operation ends with a value, and undone
    if the operation or the commit fails. -/
def atomically (a : Act α) : Act α := fun s =>
  match (do let x ← a; commit; return x : Act α) s with
  | (.ok x, s) => (.ok x, s)
  | (.error e, s) => (.error e.aborted, s.rolledBack)

/-- Makes the session drop the entry of an id from the cache: when its transaction ends, or at once if none
    is open. -/
def forget (id : String) : Act Unit :=
  update fun s =>
    if s.inTransaction then { s with session.pending := s.session.pending.put id none }
    else { s with cache := s.cache.invalidate id }

/-- Makes the session store a collection in the cache: when its transaction is committed, or at once if
    none is open. -/
def remember (c : Collection) : Act Unit :=
  update fun s =>
    if s.inTransaction then { s with session.pending := s.session.pending.put c.id (some c) }
    else { s with cache := s.cache.set s.now c }

end Act

end Curation
