import Curation.Text.Quoted
import Curation.Text.Split
import Curation.Text.Utf8

/-! Addresses in which a character may be written as a percent sign and the number of a byte, and the names and
    values that such an address has after a question mark. -/

namespace Curation.Text

/-- The number of a hexadecimal digit in either letter case. -/
def hexValue? (c : Char) : Option Nat :=
  if c.isDigit then some (c.toNat - 48)
  else if 'a' ≤ c && c ≤ 'f' then some (c.toNat - 87)
  else if 'A' ≤ c && c ≤ 'F' then some (c.toNat - 55)
  else none

/-- The bytes that characters write. A percent sign without two digits after it stands for itself. -/
def unescapeBytes : List Char → List UInt8
  | '%' :: a :: b :: cs =>
    match hexValue? a, hexValue? b with
    | some x, some y => UInt8.ofNat (x * 16 + y) :: unescapeBytes cs
    | _, _ => 0x25 :: unescapeBytes (a :: b :: cs)
  | c :: cs => c.toString.toUTF8.toList ++ unescapeBytes cs
  | [] => []
  termination_by cs => cs.length

/-- The text that characters with percent signs write. -/
def percentDecode (s : String) : String := ofUtf8 (unescapeBytes s.toList)

/-- The characters that are written as they are, whatever is written. -/
def isPlain (c : Char) : Bool := c.isAlphanum || c == '_' || c == '.' || c == '-' || c == '~'

/-- The text with a percent sign and a number for every byte of the characters that are not plain. -/
def percentEncode (plain : Char → Bool) (s : String) : String :=
  String.ofList (s.toList.flatMap fun c =>
    if isPlain c || plain c then [c]
    else c.toString.toUTF8.toList.flatMap fun b =>
      '%' :: (digits 16 2 b.toNat).map Char.toUpper)

/-- A name or value of a query, where a plus sign stands for a space. -/
def unescapeField (s : String) : String :=
  percentDecode (String.ofList (s.toList.map fun c => if c == '+' then ' ' else c))

/-- The names and values of a query, in order. A name without a value has the empty one. -/
def queryFields (query : String) : List (String × String) :=
  ((splitAt '&' query).filter fun f => !f.isEmpty).map fun f =>
    let (name, value) := cut '=' f
    (unescapeField name, unescapeField (value.getD ""))

/-- The last value of a name. -/
def queryValue? (query name : String) : Option String := (queryFields query).reverse.lookup name

end Curation.Text
