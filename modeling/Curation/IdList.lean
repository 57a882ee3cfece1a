import Curation.Failure
import Curation.Json.Parse

/-! The list of ids that a request for several collections brings along. -/

namespace Curation

/-- What comes of a text that cannot be read. -/
def Failure.ofParseError : Json.ParseError → Failure
  | .malformed _ => .field "ids" "Expected a JSON array of collection ids" "ids_invalid"
  | .hugeInteger digits => .badValue (.hugeInteger digits)
  | .tooDeep record => .tooDeep record

/-- The ids in a text that writes a list of texts, read where lists and records may be nested to a depth. -/
def parseIds (depth : Nat) (raw : String) : Except Failure (List String) := do
  let invalid := Failure.ofParseError (.malformed 0)
  match Json.parse depth raw with
  | .error e => .error (.ofParseError e)
  | .ok (.list items) =>
    match items.mapM Json.Value.text? with
    | some ids => .ok ids
    | none => .error invalid
  | .ok _ => .error invalid

end Curation
