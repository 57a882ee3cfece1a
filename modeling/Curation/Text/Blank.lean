/-! Blank characters and the trimming of a line. -/

namespace Curation.Text

/-- The characters that count as white space at the ends of a title. -/
def isBlank (c : Char) : Bool :=
  let n := c.toNat
  (0x09 ≤ n && n ≤ 0x0d) || (0x1c ≤ n && n ≤ 0x20) || n == 0x85 || n == 0xa0 || n == 0x1680 ||
    (0x2000 ≤ n && n ≤ 0x200a) || n == 0x2028 || n == 0x2029 || n == 0x202f || n == 0x205f ||
    n == 0x3000

/-- The characters without the blank ones at both ends. -/
def stripChars (cs : List Char) : List Char :=
  ((cs.dropWhile isBlank).reverse.dropWhile isBlank).reverse

/-- The text without the blank characters at both ends. -/
def strip (s : String) : String := String.ofList (stripChars s.toList)

/-- Nothing is left of the text once it is stripped. -/
def isBlankText (s : String) : Bool := s.toList.all isBlank

theorem dropWhile_isBlank_eq_self {cs : List Char} (h : ∀ c, cs.head? = some c → isBlank c = false) :
    cs.dropWhile isBlank = cs := by
  cases cs with
  | nil => rfl
  | cons c cs => simp [h c rfl]

theorem isBlank_of_head?_dropWhile {cs : List Char} {c : Char} (h : (cs.dropWhile isBlank).head? = some c) :
    isBlank c = false := by
  have hhead := List.head?_dropWhile_not isBlank cs
  rw [h] at hhead
  exact hhead

/-- What is stripped has nothing more to be stripped of. -/
theorem stripChars_stripChars (cs : List Char) : stripChars (stripChars cs) = stripChars cs := by
  have hfirst : ∀ c, (stripChars cs).head? = some c → isBlank c = false := by
    intro c hc
    have hprefix : stripChars cs <+: cs.dropWhile isBlank := by
      rw [← List.reverse_suffix, stripChars, List.reverse_reverse]
      exact List.dropWhile_suffix _
    obtain ⟨rest, hrest⟩ := hprefix
    have hhead : (cs.dropWhile isBlank).head? = some c := by
      rw [← hrest, List.head?_append, hc]
      rfl
    exact isBlank_of_head?_dropWhile hhead
  have hlast : ∀ ds : List Char, (ds.dropWhile isBlank).dropWhile isBlank = ds.dropWhile isBlank := fun ds =>
    dropWhile_isBlank_eq_self fun c hc => isBlank_of_head?_dropWhile hc
  rw [stripChars, dropWhile_isBlank_eq_self hfirst, stripChars, List.reverse_reverse, hlast]

theorem strip_strip (s : String) : strip (strip s) = strip s := by
  simp [strip, stripChars_stripChars]

end Curation.Text
