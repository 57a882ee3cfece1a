/-! Cutting a text at every occurrence of a character. -/

namespace Curation.Text

/-- The pieces between the occurrences of a character; there is one more of them than of those. -/
def splitChars (sep : Char) : List Char → List (List Char)
  | [] => [[]]
  | c :: cs =>
    match splitChars sep cs with
    | [] => [[c]]
    | piece :: pieces => if c = sep then [] :: piece :: pieces else (c :: piece) :: pieces

def splitAt (sep : Char) (s : String) : List String := (splitChars sep s.toList).map String.ofList

/-- The text before the first occurrence of a character, and the text after it if it occurs. -/
def cut (sep : Char) (s : String) : String × Option String :=
  let before := s.toList.takeWhile (· != sep)
  match s.toList.drop before.length with
  | [] => (String.ofList before, none)
  | _ :: rest => (String.ofList before, some (String.ofList rest))

/-- The characters with one line feed at every end of a line, which a carriage return, a line feed or both in this
    order mark. -/
def plainLines : List Char → List Char
  | '\r' :: '\n' :: cs => '\n' :: plainLines cs
  | '\r' :: cs => '\n' :: plainLines cs
  | c :: cs => c :: plainLines cs
  | [] => []

/-- The lines of a text, without what ends them; there is none after the last end. -/
def linesOf (s : String) : List String :=
  let pieces := (splitChars '\n' (plainLines s.toList)).map String.ofList
  if pieces.getLast? = some "" then pieces.dropLast else pieces

theorem splitChars_ne_nil (sep : Char) (cs : List Char) : splitChars sep cs ≠ [] := by
  cases cs with
  | nil => simp [splitChars]
  | cons c cs =>
    unfold splitChars
    split <;> simp
    split <;> simp

end Curation.Text
