/-! How alike two texts are: the share of their characters that lie in common blocks, where the longest block is
    taken first and the rest on both sides of it is compared in the same way. -/

namespace Curation.Text

/-- How many characters two texts have in common at their starts. -/
def commonStart : List Char → List Char → Nat
  | a :: as, b :: bs => if a = b then commonStart as bs + 1 else 0
  | _, _ => 0

/-- The longest block that two texts have in common: where it starts in each, and its length. Of several the
    first one counts. -/
def longestBlock (as bs : List Char) : Nat × Nat × Nat :=
  let starts := (List.range as.length).flatMap fun i => (List.range bs.length).map fun j => (i, j)
  starts.foldl (fun best (i, j) =>
    let n := commonStart (as.drop i) (bs.drop j)
    if best.2.2 < n then (i, j, n) else best) (0, 0, 0)

/-- How many characters lie in common blocks. Every block spends one of `fuel`. -/
def matching : Nat → List Char → List Char → Nat
  | 0, _, _ => 0
  | fuel + 1, as, bs =>
    let (i, j, n) := longestBlock as bs
    if n = 0 then 0
    else n + matching fuel (as.take i) (bs.take j) + matching fuel (as.drop (i + n)) (bs.drop (j + n))

/-- Twice the number of matching characters, and the number of all characters. -/
def similarity (a b : String) : Nat × Nat :=
  (2 * matching (a.length + 1) a.toList b.toList, a.length + b.length)

/-- The texts are of lengths with which they can be three fifths alike. -/
def ofSimilarLength (a b : String) : Bool := 3 * (a.length + b.length) ≤ 10 * min a.length b.length

/-- The texts that are at least three fifths like a given one; at most three, in the order of the alphabet. -/
def similarTo (word : String) (texts : List String) : List String :=
  let scored := (texts.filter (ofSimilarLength · word)).map fun t => (similarity t word, t)
  let close := scored.filter fun ((m, n), _) => 3 * n ≤ 5 * m
  let best := close.mergeSort fun ((m, n), s) ((m', n'), s') =>
    decide (m' * n < m * n') || (m' * n == m * n' && decide (s' ≤ s))
  ((best.take 3).map (·.2)).mergeSort fun a b => decide (a ≤ b)

end Curation.Text
