/-! Numbers in the headers of image files. -/

namespace Curation.Image

/-- The byte at a place; zero beyond the end. -/
def byteAt (data : ByteArray) (i : Nat) : UInt8 := (data[i]?).getD 0

/-- The number that some bytes from a place on write, the highest first. -/
def bigEndian (data : ByteArray) (start count : Nat) : Nat :=
  (List.range count).foldl (fun n k => n * 256 + (byteAt data (start + k)).toNat) 0

/-- The number that some bytes from a place on write, the lowest first. -/
def littleEndian (data : ByteArray) (start count : Nat) : Nat :=
  (List.range count).foldr (fun k n => n * 256 + (byteAt data (start + k)).toNat) 0

/-- The bytes from a place on are these. -/
def bytesAre (data : ByteArray) (start : Nat) (expected : List UInt8) : Bool :=
  start + expected.length ≤ data.size &&
    (List.range expected.length).all fun k => byteAt data (start + k) == expected.getD k 0

end Curation.Image
