import Curation.Text.Printable

/-! Values quoted in a message: single quotes unless the text holds one and no double quote, and a
    backslash form for every character that would not show. -/

namespace Curation.Text

/-- The digits of a number in a base, at least as many as asked for, in lower case. -/
def digits (base width n : Nat) : List Char :=
  let ds := Nat.toDigits base n
  List.replicate (width - ds.length) '0' ++ ds

/-- How one character stands between two quotes. -/
def quotedChar (quote c : Char) : List Char :=
  if c == quote || c == '\\' then ['\\', c]
  else if c == '\n' then ['\\', 'n']
  else if c == '\r' then ['\\', 'r']
  else if c == '\t' then ['\\', 't']
  else if isPrintable c then [c]
  else if c.toNat < 0x100 then '\\' :: 'x' :: digits 16 2 c.toNat
  else if c.toNat < 0x10000 then '\\' :: 'u' :: digits 16 4 c.toNat
  else '\\' :: 'U' :: digits 16 8 c.toNat

/-- The quote that needs the fewest backslashes; single if it makes no difference. -/
def quoteFor (cs : List Char) : Char :=
  if cs.contains '\'' && !cs.contains '"' then '"' else '\''

/-- The text between quotes. -/
def quoted (s : String) : String :=
  let cs := s.toList
  let q := quoteFor cs
  String.ofList (q :: (cs.flatMap (quotedChar q) ++ [q]))

/-- Several texts as one: quoted, between parentheses, a single one with a comma after it. -/
def quotedTuple : List String → String
  | [] => "()"
  | [s] => "(" ++ quoted s ++ ",)"
  | ss => "(" ++ ", ".intercalate (ss.map quoted) ++ ")"

end Curation.Text
