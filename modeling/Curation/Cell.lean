import Curation.Json.Value
import Curation.Number.Binary

/-! What a cell of a table holds. A column keeps what it is given in its own way: one of texts keeps a number as the
    text of it, and one of numbers keeps a text that writes a number as that number, and a whole number as an
    integer. -/

namespace Curation

open Number (Binary)

/-- A value in a cell that is not empty. -/
inductive Cell where
  | integer (n : Int)
  | real (r : Binary)
  | text (s : String)
  deriving DecidableEq, Repr

namespace Cell

/-- An integer that a cell can hold has at most 64 bits. -/
def fits (n : Int) : Bool := -9223372036854775808 ≤ n && n ≤ 9223372036854775807

/-- The text of a number that is not an integer: fifteen digits at most, one of them at least after the point, and a
    power of ten where the point would be far from the first digit. -/
def realText (r : Binary) : String :=
  if r.mantissa = 0 then "0.0"
  else
    let (number, power) := r.leadingDigits 15
    let digits := (toString number).toList
    let sign := if r.mantissa < 0 then "-" else ""
    let plain (whole fraction : List Char) : String :=
      let fraction := (fraction.reverse.dropWhile (· == '0')).reverse
      String.ofList whole ++ "." ++ (if fraction.isEmpty then "0" else String.ofList fraction)
    sign ++
      if power < -4 || 15 ≤ power then
        let e := toString power.natAbs
        plain (digits.take 1) (digits.drop 1) ++ "e" ++ (if power < 0 then "-" else "+") ++
          (if e.length < 2 then "0" else "") ++ e
      else if power < 0 then plain ['0'] (List.replicate (-power - 1).toNat '0' ++ digits)
      else plain (digits.take (power.toNat + 1)) (digits.drop (power.toNat + 1))

/-- The text of a value. -/
def toText : Cell → String
  | integer n => toString n
  | real r => realText r
  | text s => s

/-! ### Numbers in texts -/

/-- The spaces that may stand around a number. -/
def isSpace (c : Char) : Bool := c == ' ' || ('\t' ≤ c && c ≤ '\r')

def digitsValue (ds : List Char) : Nat := ds.foldl (fun n c => n * 10 + (c.toNat - '0'.toNat)) 0

/-- Takes a sign off. -/
def takeSign : List Char → Int × List Char
  | '-' :: cs => (-1, cs)
  | '+' :: cs => (1, cs)
  | cs => (1, cs)

/-- The digits at the start, and what is left. -/
def takeDigits (cs : List Char) : List Char × List Char := (cs.takeWhile Char.isDigit, cs.dropWhile Char.isDigit)

/-- The power of ten that the end of a number writes, if it is nothing else. -/
def exponent? : List Char → Option Int
  | [] => some 0
  | c :: cs =>
    let (sign, cs) := takeSign cs
    let (ds, rest) := takeDigits cs
    if (c == 'e' || c == 'E') && !ds.isEmpty && rest.isEmpty then some (sign * digitsValue ds) else none

/-- A whole number as an integer, if it has less than 64 bits. -/
def ofReal (r : Binary) : Cell :=
  match r.toInt? with
  | some n => if fits (n - 1) && fits (n + 1) then .integer n else .real r
  | none => .real r

/-- The number that a text writes, if it writes one. -/
def ofNumeral? (s : String) : Option Cell :=
  let cs := ((s.toList.dropWhile isSpace).reverse.dropWhile isSpace).reverse
  let (sign, cs) := takeSign cs
  let (whole, rest) := takeDigits cs
  let (pointed, fraction, rest) := match rest with
    | '.' :: rest => let (fraction, rest) := takeDigits rest; (true, fraction, rest)
    | rest => (false, [], rest)
  let mantissa := sign * (digitsValue (whole ++ fraction) : Nat)
  match exponent? rest with
  | none => none
  | some power =>
    if whole.isEmpty && fraction.isEmpty then none
    else if !pointed && rest.isEmpty && fits mantissa then some (.integer mantissa)
    else (Binary.ofDecimal? mantissa (fraction.length - power)).map ofReal

/-! ### Columns -/

/-- What a column is for. -/
inductive Affinity where
  | text
  | number
  deriving DecidableEq, Repr

/-- The value as a column keeps it. -/
def Affinity.keep : Affinity → Cell → Cell
  | .text, c => .text c.toText
  | .number, .text s => (ofNumeral? s).getD (.text s)
  | .number, .real r => ofReal r
  | .number, .integer n => .integer n

/-! ### Values of records -/

def toValue : Cell → Json.Value
  | integer n => .integer n
  | real r => .decimal r.toDecimal.1 r.toDecimal.2
  | text s => .text s

/-- The value of a record as a cell, or none for an empty cell; a list or a record is no value for a cell. -/
def ofValue : Json.Value → Except Unit (Option Cell)
  | .text s => .ok (some (.text s))
  | .integer n => .ok (some (.integer n))
  | .boolean b => .ok (some (.integer (if b then 1 else 0)))
  | .decimal m p => .ok ((Binary.ofDecimal? m p).map .real)
  | .null | .nonFinite => .ok none
  | .brokenText | .list _ | .record _ => .error ()

end Cell

end Curation
