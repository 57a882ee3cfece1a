/-! What is wrong with a value that does not have the form asked for, and where in the value. -/

namespace Curation.Schema

/-- A step into a value: to a field of a record, or to an item of a list. -/
inductive Step where
  | field (name : String)
  | item (index : Nat)
  deriving DecidableEq, Repr

def Step.text : Step → String
  | .field name => name
  | .item index => toString index

/-- What is wrong with a value. -/
inductive Fault where
  | missing
  | notText
  /-- A text that holds half of a surrogate pair. -/
  | brokenText
  | notList
  | notRecord
  /-- Neither a record nor a value of the named form. -/
  | notForm (name : String)
  /-- The body of a request is not a record. -/
  | notBody
  /-- The body of a request is malformed. -/
  | malformedBody
  /-- None of the words that are allowed. -/
  | notWord (words : List String)
  | notTruth
  /-- A text or a number that does not stand for a truth value. -/
  | unclearTruth
  | notInteger
  /-- A text that does not write an integer. -/
  | unclearInteger
  /-- A number that is not whole. -/
  | fractional
  | hugeInteger
  | nonFinite
  /-- A rule about the value as a whole is broken. -/
  | rule (text : String)
  deriving DecidableEq, Repr

namespace Fault

def code : Fault → String
  | missing => "missing"
  | notText => "string_type"
  | brokenText => "string_unicode"
  | notList => "list_type"
  | notRecord => "dict_type"
  | notForm _ => "model_type"
  | notBody => "model_attributes_type"
  | malformedBody => "json_invalid"
  | notWord _ => "literal_error"
  | notTruth => "bool_type"
  | unclearTruth => "bool_parsing"
  | notInteger => "int_type"
  | unclearInteger => "int_parsing"
  | fractional => "int_from_float"
  | hugeInteger => "int_parsing_size"
  | nonFinite => "finite_number"
  | rule _ => "value_error"

/-- Words in quotes, the last one after "or". -/
def choice (words : List String) : String :=
  match (words.map fun w => "'" ++ w ++ "'").reverse with
  | [] => ""
  | [w] => w
  | last :: others => ", ".intercalate others.reverse ++ " or " ++ last

def message : Fault → String
  | missing => "Field required"
  | notText => "Input should be a valid string"
  | brokenText => "Input should be a valid string, unable to parse raw data as a unicode string"
  | notList => "Input should be a valid list"
  | notRecord => "Input should be a valid dictionary"
  | notForm name => "Input should be a valid dictionary or instance of " ++ name
  | notBody => "Input should be a valid dictionary or object to extract fields from"
  | malformedBody => "JSON decode error"
  | notWord words => "Input should be " ++ choice words
  | notTruth => "Input should be a valid boolean"
  | unclearTruth => "Input should be a valid boolean, unable to interpret input"
  | notInteger => "Input should be a valid integer"
  | unclearInteger => "Input should be a valid integer, unable to parse string as an integer"
  | fractional => "Input should be a valid integer, got a number with a fractional part"
  | hugeInteger => "Unable to parse input string as an integer, exceeded maximum size"
  | nonFinite => "Input should be a finite number"
  | rule text => "Value error, " ++ text

end Fault

/-- A fault and the way to it. -/
structure Mismatch where
  path : List Step
  fault : Fault
  deriving DecidableEq, Repr

end Curation.Schema
