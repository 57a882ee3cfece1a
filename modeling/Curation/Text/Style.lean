/-! Marks in a text that only set how a terminal shows it. What is not shown on a terminal goes without them. -/

namespace Curation.Text

/-- The characters between the start of a mark and the letter that ends it. -/
def isInMark (c : Char) : Bool := c == ';' || c == '?' || c.isDigit

/-- The characters without marks. -/
def unmarkedChars : List Char → List Char
  | '\x1b' :: '[' :: cs =>
    let rest := cs.dropWhile isInMark
    if rest.head?.any Char.isAlpha then unmarkedChars (rest.drop 1) else '\x1b' :: '[' :: unmarkedChars cs
  | c :: cs => c :: unmarkedChars cs
  | [] => []
termination_by cs => cs.length
decreasing_by
  · have := (List.dropWhile_suffix isInMark (l := cs)).length_le
    simp only [List.length_drop, List.length_cons]
    omega
  all_goals simp only [List.length_cons]; omega

/-- The text without marks. -/
def unmarked (s : String) : String := String.ofList (unmarkedChars s.toList)

end Curation.Text
