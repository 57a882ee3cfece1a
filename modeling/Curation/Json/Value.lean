import Curation.Keyed

/-! Values of the interchange format that requests and answers are written in, and the code points that texts of it
    consist of. -/

namespace Curation.Json

/-- A code point: a character, or nothing for half of a surrogate pair, which is none. -/
abbrev Point := Option Char

/-- The code point with a number. -/
def Point.ofNat (n : Nat) : Point := if n.isValidChar then some (Char.ofNat n) else none

/-- The code points of a text. -/
def pointsOf (s : String) : List Point := s.toList.map some

/-- A value. Numbers that are not integers are kept as a decimal: a mantissa and how many of its digits
    stand after the point, which may be fewer than none. -/
inductive Value where
  | null
  | boolean (b : Bool)
  | integer (n : Int)
  | decimal (mantissa : Int) (places : Int)
  /-- Not a number, or an infinity. -/
  | nonFinite
  | text (s : String)
  /-- A text that holds half of a surrogate pair. -/
  | brokenText
  | list (items : List Value)
  | record (fields : List (String × Value))
  deriving Repr, Inhabited

namespace Value

/-- The value of a field of a record. -/
def field? (v : Value) (name : String) : Option Value :=
  match v with
  | record fields => Keyed.get? fields name
  | _ => none

def text? : Value → Option String
  | text s => some s
  | _ => none

def texts (ss : List String) : Value := list (ss.map text)

/-- The text of some code points, unless one of them is half of a pair. -/
def ofPoints (ps : List Point) : Value :=
  match ps.mapM id with
  | some cs => text (String.ofList cs)
  | none => brokenText

/-- A value that may be missing. -/
def ofOption (f : α → Value) : Option α → Value
  | some a => f a
  | none => null

end Value

end Curation.Json
