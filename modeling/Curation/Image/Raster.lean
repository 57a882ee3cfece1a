/-! Images as grids of colours, and the region of them that is looked at. -/

namespace Curation.Image

/-- A colour of eight bits for each of red, green and blue. -/
structure Rgb where
  red : UInt8
  green : UInt8
  blue : UInt8
  deriving DecidableEq, Repr

namespace Rgb

def grey (v : UInt8) : Rgb := ⟨v, v, v⟩

def black : Rgb := grey 0

/-- The colour as one number, red in the highest eight of its 24 bits. -/
def packed (c : Rgb) : Nat := c.red.toNat * 65536 + c.green.toNat * 256 + c.blue.toNat

/-- The most that a colour comes to as one number. -/
abbrev maxPacked : Nat := 0xFFFFFF

theorem packed_le (c : Rgb) : c.packed ≤ maxPacked := by
  have hred : c.red.toNat < 256 := c.red.toNat_lt
  have hgreen : c.green.toNat < 256 := c.green.toNat_lt
  have hblue : c.blue.toNat < 256 := c.blue.toNat_lt
  unfold packed maxPacked
  omega

end Rgb

/-- An image: its size, and the colour at each column and row. -/
structure Raster where
  width : Nat
  height : Nat
  pixel : Nat → Nat → Rgb

/-- The most pixels an image may have. -/
def maxPixels : Nat := 178956970

namespace Raster

/-- The image has pixels, and not too many. -/
def sized (r : Raster) : Bool :=
  0 < r.width && 0 < r.height && r.width * r.height ≤ maxPixels

/-- The side of the square that an image is scaled to. -/
abbrev scaledSide : Nat := 256

/-- The first column and row of the region that is looked at, and how many there are of each. -/
abbrev regionStart : Nat := 128
abbrev regionSide : Nat := 64

/-- The pixel of the scaled image at a column and row: the pixel of the image under its centre. -/
def scaled (r : Raster) (x y : Nat) : Rgb :=
  r.pixel ((2 * x + 1) * r.width / (2 * scaledSide)) ((2 * y + 1) * r.height / (2 * scaledSide))

/-- The colours of the region, row by row. -/
def region (r : Raster) : List Rgb :=
  (List.range regionSide).flatMap fun y =>
    (List.range regionSide).map fun x => r.scaled (regionStart + x) (regionStart + y)

end Raster

end Curation.Image
