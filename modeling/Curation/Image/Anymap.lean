import Curation.Image.Bytes
import Curation.Image.Raster

/-! Portable anymaps in binary form, with eight bits for a sample: a header in words, then the samples. -/

namespace Curation.Image.Anymap

/-- The bytes that stand between the words of a header. -/
def isGap (b : UInt8) : Bool := b == 0x20 || (0x09 ≤ b && b ≤ 0x0d)

def isLineEnd (b : UInt8) : Bool := b == 0x0a || b == 0x0d

/-- Reads a word of a header from a place on. A number sign starts a comment, which lasts to the end of
    its line; a word ends at a gap, or with the data. Returns the place after the gap. -/
def word (data : ByteArray) : Nat → Bool → List UInt8 → Nat → List UInt8 × Nat
  | 0, _, read, i => (read.reverse, i)
  | fuel + 1, comment, read, i =>
    if i < data.size then
      let b := byteAt data i
      if comment then word data fuel (!isLineEnd b) read (i + 1)
      else if isGap b then
        if read.isEmpty then word data fuel false read (i + 1) else (read.reverse, i + 1)
      else if b == 0x23 then word data fuel true read (i + 1)
      else word data fuel false (b :: read) (i + 1)
    else (read.reverse, i)

def isDigit (b : UInt8) : Bool := 0x30 ≤ b && b ≤ 0x39

/-- The digits of a word without the underscores, each of which stands between two digits. -/
def joinDigits? : List UInt8 → Option (List UInt8)
  | [] => none
  | [b] => if isDigit b then some [b] else none
  | b :: c :: bs =>
    if !isDigit b then none
    else if c == 0x5f then (joinDigits? bs).map (b :: ·)
    else (joinDigits? (c :: bs)).map (b :: ·)

/-- The number that a word of at most ten bytes writes, after a sign if it has one; a size that is negative is no
    size. -/
def number? (word : List UInt8) : Option Nat :=
  let digits := match word with
    | 0x2b :: rest => rest
    | word => word
  if 10 < word.length then none
  else (joinDigits? digits).map fun ds => ds.foldl (fun n b => n * 10 + (b.toNat - 0x30)) 0

def nextNumber? (data : ByteArray) (i : Nat) : Option (Nat × Nat) := do
  let (w, i) := word data (data.size - i) false [] i
  return (← number? w, i)

/-- The image in the data, if the data is a whole anymap. -/
def decode? (data : ByteArray) : Option Raster := do
  let samples ← if bytesAre data 0 [0x50, 0x36] then some 3
    else if bytesAre data 0 [0x50, 0x35] then some 1 else none
  guard (isGap (byteAt data 2))
  let (width, i) ← nextNumber? data 3
  let (height, i) ← nextNumber? data i
  let (top, start) ← nextNumber? data i
  guard (top == 255 && start + width * height * samples ≤ data.size)
  let pixel (x y : Nat) : Rgb :=
    let at_ := start + (y * width + x) * samples
    if samples == 3 then ⟨byteAt data at_, byteAt data (at_ + 1), byteAt data (at_ + 2)⟩
    else .grey (byteAt data at_)
  return { width, height, pixel }

end Curation.Image.Anymap
