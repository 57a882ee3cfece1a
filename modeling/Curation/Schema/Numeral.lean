import Curation.Text.Integer

/-! Integers as people write them: plain digits with at most a minus sign, or such digits with
    spaces around them, a plus sign, zeros in front, underscores, or a fraction of nothing but zeros. -/

namespace Curation.Schema.Numeral

open Text (isSpace maxDigits)

/-- Why a text is not read as an integer. -/
inductive Problem where
  | unclear
  | tooLong
  deriving DecidableEq, Repr

/-- The number that digits write. -/
def digitsValue (ds : List Char) : Nat := ds.foldl (fun n c => n * 10 + (c.toNat - '0'.toNat)) 0

/-- The integer that plain digits write: no zero stands in front of another digit. -/
def plainNatural (cs : List Char) : Except Problem Nat :=
  match cs with
  | ['0'] => .ok 0
  | c :: _ =>
    let digits := cs.takeWhile Char.isDigit
    if c == '0' || digits.isEmpty then .error .unclear
    else if maxDigits < digits.length then .error .tooLong
    else if digits.length < cs.length then .error .unclear
    else .ok (digitsValue digits)
  | [] => .error .unclear

/-- The integer that plain digits write after at most a minus sign. -/
def plainInteger : List Char → Except Problem Int
  | '-' :: cs => (plainNatural cs).map fun n => -(n : Int)
  | cs => (plainNatural cs).map fun n => (n : Int)

/-- A character with which the digits that count can start. -/
def isFirst (c : Char) : Bool := c == '-' || (c.isDigit && c != '0')

/-- What is left of a text without the zeros in front, which underscores may part. The last character stays
    whatever it is, and so does the one before a point. -/
def dropZeros (last : Char) : List Char → Option (List Char)
  | [] => some [last]
  | c :: cs =>
    if isFirst c then some (c :: cs)
    else if c == '.' then some (last :: c :: cs)
    else if c == '0' || c == '_' then dropZeros c cs
    else none

/-- The characters without a fraction of one zero or more at the end. -/
def dropFraction (cs : List Char) : List Char :=
  match cs.reverse.span (· == '0') with
  | (_ :: _, '.' :: whole) => whole.reverse
  | _ => cs

/-- The characters without underscores, each of which stands alone and inside. -/
def dropUnderscores : List Char → Option (List Char)
  | [] => some []
  | ['_'] => none
  | '_' :: '_' :: _ => none
  | '_' :: c :: cs => (dropUnderscores cs).map (c :: ·)
  | c :: cs => (dropUnderscores cs).map (c :: ·)

/-- The plain digits of a text that writes an integer in another way. -/
def tidied? (cs : List Char) : Option (List Char) := do
  let cs := ((cs.dropWhile isSpace).reverse.dropWhile isSpace).reverse
  let cs := match cs with
    | '+' :: rest => if rest.head? == some '-' then cs else rest
    | _ => cs
  match cs with
  | c :: rest =>
    let cs ← if c == '0' then dropZeros c rest else if isFirst c then some cs else none
    let cs := dropFraction cs
    if cs.head? == some '_' then none else dropUnderscores cs
  | [] => none

/-- Reads an integer. -/
def read (s : String) : Except Problem Int :=
  match plainInteger s.toList with
  | .ok n => .ok n
  | .error .tooLong => .error .tooLong
  | .error .unclear =>
    match (tidied? s.toList).map plainInteger with
    | some (.ok n) => .ok n
    | _ => .error .unclear

end Curation.Schema.Numeral
