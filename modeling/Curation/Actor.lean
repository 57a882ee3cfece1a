/-! Who asks for an operation, and what the credential in use allows. -/

namespace Curation

/-- What a credential may be used for. -/
inductive Scope where
  | create
  | read
  | write
  | delete
  deriving DecidableEq, Repr

namespace Scope

def all : List Scope := [create, read, write, delete]

def word : Scope → String
  | create => "collection_create"
  | read => "collection_read"
  | write => "collection_write"
  | delete => "collection_delete"

def ofWord? (w : String) : Option Scope := all.find? fun s => s.word == w

end Scope

/-- The standing of an account. -/
inductive Role where
  | developer
  | moderator
  | admin
  deriving DecidableEq, Repr

namespace Role

def all : List Role := [developer, moderator, admin]

def word : Role → String
  | developer => "developer"
  | moderator => "moderator"
  | admin => "admin"

def ofWord? (w : String) : Option Role := all.find? fun r => r.word == w

/-- Accounts of this role moderate the collections of others. -/
def moderates : Role → Bool
  | developer => false
  | moderator | admin => true

end Role

/-- An authenticated caller: the account, its role, and the scopes of the credential in use. -/
structure Actor where
  userId : String
  role : Role := .developer
  scopes : List Scope := Scope.all
  deriving DecidableEq, Repr

namespace Actor

def moderates (a : Actor) : Bool := a.role.moderates

def hasScope (a : Actor) (s : Scope) : Bool := a.scopes.contains s

end Actor

end Curation
