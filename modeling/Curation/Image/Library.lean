import Curation.Image.Raster

/-! Libraries for images. How data is decoded, and how colours are merged until few enough are left, is theirs; what is
    done with it is told here. -/

namespace Curation.Image

/-- Pixels whose colours were merged into the entries of a palette: how many pixels each entry stands for, with its
    number, and the colours of the entries. -/
structure Reduced where
  counts : List (Nat × Nat)
  palette : Nat → Rgb

/-- A library for images. One about which nothing else is said reads none. -/
structure Library where
  /-- The image that data holds, if it can be read. -/
  decode : ByteArray → Option Raster := fun _ => none
  /-- Merges the colours of pixels until there are so many at most, if that is possible. -/
  reduce : Nat → List Rgb → Option Reduced := fun _ _ => none

/-- Of two entries the one that counts more, or else the one with the higher number. -/
def larger (e f : Nat × Nat) : Nat × Nat := if e.1 < f.1 || (e.1 == f.1 && e.2 < f.2) then f else e

/-- The entry that counts most. -/
def largest? : List (Nat × Nat) → Option (Nat × Nat)
  | [] => none
  | e :: es => some (es.foldl larger e)

end Curation.Image
