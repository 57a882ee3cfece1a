import Curation.Image.Bytes
import Curation.Image.Raster

/-! Bitmaps of 24 bits for a pixel without compression. Rows are filled up to a multiple of four bytes, and
    the lowest row comes first unless the height is negative. -/

namespace Curation.Image.Bitmap

/-- What the header of a bitmap says. -/
structure Header where
  width : Nat
  height : Nat
  /-- The highest row comes first. -/
  topDown : Bool := false
  bits : Nat
  /-- Nothing is said of the masks of the colours, or they are the usual ones. -/
  usualMasks : Bool := true
  /-- Where the header ends. -/
  stop : Nat

/-- The sizes of the headers that have the long form. -/
def longSizes : List Nat := [40, 52, 56, 64, 108, 124]

/-- The masks of red, green and blue when each has eight bits. -/
def usualMasks : List Nat := [0xff0000, 0xff00, 0xff]

/-- Reads a header in the short form, with sizes of 16 bits. -/
def shortHeader (data : ByteArray) : Header where
  width := littleEndian data 18 2
  height := littleEndian data 20 2
  bits := littleEndian data 24 2
  stop := 26

/-- Reads a header in the long form. The masks, if they are given, are the last part of it, or follow it if it has
    no room for them. -/
def longHeader (data : ByteArray) (size : Nat) : Header :=
  let height := littleEndian data 22 4
  let topDown := byteAt data 25 == 0xff
  let masked := littleEndian data 30 4 == 3
  let masks := (List.range 3).map fun k => littleEndian data (54 + 4 * k) 4
  let stop := 14 + size
  { width := littleEndian data 18 4
    height := if topDown then Nat.pow 2 32 - height else height
    topDown
    bits := littleEndian data 28 2
    usualMasks := littleEndian data 30 4 == 0 || (masked && masks == usualMasks)
    stop := if masked then max stop 66 else stop }

/-- Reads the header of a bitmap. -/
def header? (data : ByteArray) : Option Header := do
  guard (bytesAre data 0 [0x42, 0x4d])
  let size := littleEndian data 14 4
  let h ← if size == 12 then some (shortHeader data)
    else if longSizes.contains size then some (longHeader data size) else none
  guard (h.stop ≤ data.size && h.bits == 24 && h.usualMasks)
  return h

/-- The image in the data, if the data is a whole bitmap. The last row need not be filled up. -/
def decode? (data : ByteArray) : Option Raster := do
  let h ← header? data
  let start := littleEndian data 10 4
  let start := if start = 0 then h.stop else start
  let stride := (h.width * 3 + 3) / 4 * 4
  guard (start + stride * (h.height - 1) + h.width * 3 ≤ data.size)
  let pixel (x y : Nat) : Rgb :=
    let row := if h.topDown then y else h.height - 1 - y
    let at_ := start + row * stride + x * 3
    ⟨byteAt data (at_ + 2), byteAt data (at_ + 1), byteAt data at_⟩
  return { width := h.width, height := h.height, pixel }

end Curation.Image.Bitmap
