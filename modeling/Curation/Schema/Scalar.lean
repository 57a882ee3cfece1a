import Curation.Cell
import Curation.Schema.Numeral
import Curation.Schema.Reading

/-! Reading integers and truth values, for which texts and numbers may stand. -/

namespace Curation.Schema

open Json (Value)

/-- The words for true and for false, in lower case. -/
def trueWords : List String := ["1", "on", "t", "true", "y", "yes"]
def falseWords : List String := ["0", "off", "f", "false", "n", "no"]

/-- The integer that a number written with a point or an exponent is. The least integer of the range is not
    taken for one. -/
def wholeNumber (mantissa places : Int) : Except Fault Int :=
  match Number.Binary.ofDecimal? mantissa places with
  | none => .error .nonFinite
  | some b =>
    match b.toInt? with
    | none => .error .fractional
    | some n => if Cell.fits n && Cell.fits (n - 1) then .ok n else .error .hugeInteger

/-- Reads a truth value, or a word or number for one. -/
def truth : Value → Reading Bool
  | .boolean b => pure b
  | .text s =>
    let w := String.ofList (s.toList.map Char.toLower)
    if trueWords.contains w then pure true
    else if falseWords.contains w then pure false
    else .fault .unclearTruth
  | .integer n => ofInteger n
  | .decimal m p =>
    match wholeNumber m p with
    | .ok n => ofInteger n
    | .error _ => .fault .notTruth
  | _ => .fault .notTruth
where
  ofInteger (n : Int) : Reading Bool :=
    if n = 0 then pure false else if n = 1 then pure true
    else if Cell.fits n then .fault .unclearTruth else .fault .notTruth

/-- Reads an integer, or a text, number or truth value that stands for one. -/
def integer : Value → Reading Int
  | .boolean b => pure (if b then 1 else 0)
  | .integer n => pure n
  | .decimal m p =>
    match wholeNumber m p with
    | .ok n => pure n
    | .error f => .fault f
  | .nonFinite => .fault .nonFinite
  | .text s =>
    match Numeral.read s with
    | .ok n => pure n
    | .error .unclear => .fault .unclearInteger
    | .error .tooLong => .fault .hugeInteger
  | _ => .fault .notInteger

end Curation.Schema
