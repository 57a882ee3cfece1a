/-! Filling lines with words. -/

namespace Curation.Text

/-- The words of a text. -/
def wordsOf (s : String) : List String :=
  ((s.toList.splitOnP fun c => c == ' ' || c == '\n').filter fun w => !w.isEmpty).map String.ofList

/-- Fills lines of a given width with words, after a line that has been begun. -/
def fillLines (width : Nat) : String → List String → List String
  | line, [] => [line]
  | line, word :: words =>
    if line.length + 1 + word.length ≤ width then fillLines width (line ++ " " ++ word) words
    else line :: fillLines width word words

/-- The lines of a paragraph of at most a given width. -/
def wrap (width : Nat) (s : String) : List String :=
  match wordsOf s with
  | [] => []
  | word :: words => fillLines width word words

end Curation.Text
