import Curation.Catalog.Write

/-! The projects of a collection are replaced as a whole: the list that is submitted becomes the set of
    its members. All of the projects are looked up before anything is written. -/

namespace Curation.Catalog

/-- The ids among the given ones that belong to a project, each one once. -/
def knownProjects (ids : List String) : Act (List String) := do
  let ids := distinct ids
  if ids.isEmpty then return []
  Act.query (·.knownProjects ids)

/-- The ids, each one once, if all of them belong to projects; the first that does not is reported. -/
def resolve (ids : List String) : Act (List String) := do
  let ids := distinct ids
  let known ← knownProjects ids
  match ids.find? fun id => !known.contains id with
  | some id => throw (.missingProject id)
  | none => return ids

/-- What a replacement did: the members that are new, those that are gone, and those that stay. -/
structure Replacement where
  added : List String
  removed : List String
  kept : List String
  deriving DecidableEq, Repr

namespace Replacement

def between (current target : List String) : Replacement where
  added := sorted (target.filter fun p => !current.contains p)
  removed := sorted (current.filter fun p => !target.contains p)
  kept := sorted (current.filter target.contains)

def unchanged (r : Replacement) : Bool := r.added.isEmpty && r.removed.isEmpty

end Replacement

/-- Makes the given projects the members of a collection. They are looked up first unless they have been
    resolved already. -/
def replaceMembers (id : String) (projects : List String) (resolved : Bool := false) :
    Act Replacement := do
  let projects ← if resolved then pure projects else resolve projects
  let current ← members id
  let _ ← unlink id
  let _ ← link id projects
  return .between current (distinct projects)

end Curation.Catalog
