import Curation.Collection

/-! Who may see a collection and who may change it. Owners and moderators see and change it; all others
    see it unless its status hides it, and never change it. A hidden collection is reported as not found,
    so that nobody learns of it. -/

namespace Curation.Gate

/-- The actor that a read is done for: a credential without the scope counts as no credential. -/
def reader (actor : Option Actor) (scope : Scope := .read) : Option Actor :=
  actor.filter (·.hasScope scope)

/-- The actor of a write, who must be known and carry the scope. -/
def writer (actor : Option Actor) (scope : Scope) : Except Failure Actor :=
  match actor with
  | none => .error .unauthenticated
  | some a => if a.hasScope scope then .ok a else .error (.forbidden (.scope scope))

/-- The actor may change the collection. -/
def maintains (c : Collection) (a : Actor) : Bool := a.moderates || a.userId == c.owner

/-- The actor may see the collection. -/
def sees (c : Collection) (actor : Option Actor) : Bool :=
  !c.status.isHidden || actor.any (maintains c)

/-- The collections that the actor may see. -/
def visible (cs : List Collection) (actor : Option Actor) : List Collection :=
  cs.filter fun c => sees c actor

/-- The collection, if there is one that the actor may see. -/
def shown (id : String) (c : Option Collection) (actor : Option Actor) :
    Except Failure Collection :=
  match c with
  | some c => if sees c actor then .ok c else .error (.notFound id)
  | none => .error (.notFound id)

/-- The collection, if there is one and the actor may change it. -/
def maintained (id : String) (c : Option Collection) (a : Actor) : Except Failure Collection :=
  match c with
  | some c => if maintains c a then .ok c else .error (.forbidden .notOwner)
  | none => .error (.notFound id)

/-- The actor may move a collection from one status to another: a moderator always, all others only from
    an approved status to one that can be requested. -/
def mayChangeStatus (a : Actor) (current requested : Status) : Bool :=
  a.moderates || (current.isApproved && requested.isRequestable)

def allowStatus (a : Actor) (current requested : Status) : Except Failure Unit :=
  if mayChangeStatus a current requested then .ok () else .error (.forbidden .status)

end Curation.Gate
