import Curation.Catalog.State

/-! Reading collections: the cache first, then the database. A read has three phases, between which other
    sessions may act: it looks into the cache and notes the generations of the ids it misses, it loads
    those, and it stores what it loaded unless a generation has moved on. -/

namespace Curation.Catalog

/-- What a read has found in the cache and what it still has to load. -/
structure Plan where
  ids : List String
  found : Keyed Collection
  misses : List String
  generations : Keyed Generation

/-- The first phase of a read. What waits for the end of the session's transaction makes the cache unfit to
    answer. -/
def lookUp (ids : List String) : Act Plan := do
  let s ← get
  let ids := distinct ids
  let cacheable := ids.filter fun id => (s.session.pending.get? id).isNone
  let (found, cache) := s.cache.getAll s.now cacheable
  let misses := ids.filter fun id => (found.get? id).isNone
  set { s with cache }
  return { ids, found, misses, generations := cache.generations misses }

/-- The collections of loaded rows. -/
def assemble (rows : List Row) (members : Keyed (List String)) : Except Failure (Keyed Collection) :=
  rows.mapM fun r => do
    return (r.id, ← r.toCollection ((members.get? r.id).getD []))

/-- The second phase of a read: one statement for the rows, whose times must be readable, and if there are any, one
    for their members. -/
def load (ids : List String) : Act (Keyed Collection) := do
  if ids.isEmpty then return []
  let rows ← Act.query (·.rowsOf ids)
  if rows.isEmpty then return []
  let _ ← liftExcept (rows.mapM Row.times)
  let members ← Act.query (·.membersOfEach (rows.map (·.id)))
  liftExcept (assemble rows members)
where
  liftExcept {α : Type} : Except Failure α → Act α
    | .ok a => return a
    | .error e => throw e

/-- Stores a loaded collection in the cache unless its id has moved on since the plan, or waits for the end
    of the session's transaction. -/
def fill (plan : Plan) (c : Collection) : Act Unit := do
  let s ← get
  if (s.session.pending.get? c.id).isNone then
    match plan.generations.get? c.id with
    | some g => set { s with cache := (s.cache.fill s.now c g).2 }
    | none => return

/-- The third phase of a read. -/
def finish (plan : Plan) (loaded : Keyed Collection) : Act (List Collection) := do
  loaded.forM fun (_, c) => fill plan c
  return plan.ids.filterMap fun id => (plan.found.get? id).or (loaded.get? id)

/-- The collections with the given ids, each one once, in the order of their first appearance. Unknown ids
    are left out. -/
def fetchAll (ids : List String) : Act (List Collection) := do
  let plan ← lookUp ids
  let loaded ← load plan.misses
  finish plan loaded

/-- The collection with an id, if there is one. -/
def fetch (id : String) : Act (Option Collection) := do
  return (← fetchAll [id]).head?

end Curation.Catalog
