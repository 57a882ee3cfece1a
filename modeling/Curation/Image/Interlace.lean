/-! The passes in which the pixels of an image are written: all rows at once, or first a few pixels of the whole
    image and then more and more of those between. -/

namespace Curation.Image

/-- The pixels that one pass writes: those at a first column and row and at regular distances from it. -/
structure Pass where
  firstColumn : Nat := 0
  columnStep : Nat := 1
  firstRow : Nat := 0
  rowStep : Nat := 1
  deriving DecidableEq, Repr

namespace Pass

/-- How many of some places are at a first one and at regular distances from it. -/
def count (places first step : Nat) : Nat := (places - first + step - 1) / step

def columns (p : Pass) (width : Nat) : Nat := count width p.firstColumn p.columnStep

def rows (p : Pass) (height : Nat) : Nat := count height p.firstRow p.rowStep

/-- The pass writes the pixel at a column and row. -/
def writes (p : Pass) (x y : Nat) : Bool :=
  p.firstColumn ≤ x && (x - p.firstColumn) % p.columnStep == 0 &&
    p.firstRow ≤ y && (y - p.firstRow) % p.rowStep == 0

/-- All pixels at once. -/
def whole : List Pass := [{}]

/-- Seven passes, each of which doubles the pixels that are there. -/
def interlaced : List Pass := [
  ⟨0, 8, 0, 8⟩, ⟨4, 8, 0, 8⟩, ⟨0, 4, 4, 8⟩, ⟨2, 4, 0, 4⟩, ⟨0, 2, 2, 4⟩, ⟨1, 2, 0, 2⟩, ⟨0, 1, 1, 2⟩]

end Pass

end Curation.Image
