import Curation.Text.Quoted

/-! Where new ids come from. -/

namespace Curation

/-- A supply of ids: some that are given, and after them numbered ones. -/
structure IdSource where
  given : List String := []
  issued : Nat := 0
  deriving DecidableEq, Repr

namespace IdSource

/-- The numbered id, written as an identifier of version 4. -/
def numbered (n : Nat) : String :=
  "00000000-0000-4000-8000-" ++ String.ofList (Text.digits 16 12 n)

/-- Takes the next id. -/
def next (s : IdSource) : String × IdSource :=
  match s.given with
  | id :: given => (id, { s with given })
  | [] => (numbered (s.issued + 1), { s with issued := s.issued + 1 })

end IdSource

end Curation
