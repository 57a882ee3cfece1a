import Curation.Json.Value
import Curation.Text.Utf8

/-! The code points that bytes of the interchange format write. The format is written in UTF-8, UTF-16 or UTF-32; a mark
    at the start or the zeros among the first bytes tell in which. Halves of surrogate pairs may stand alone in each. -/

namespace Curation.Json

/-- The numbers that groups of `n` bytes write, the most significant byte first or last. -/
def units (n : Nat) (bigEndian : Bool) : Nat → List UInt8 → Option (List Nat)
  | _, [] => some []
  | 0, _ => none
  | fuel + 1, bs =>
    if bs.length < n then none
    else
      let group := bs.take n
      let group := if bigEndian then group else group.reverse
      (units n bigEndian fuel (bs.drop n)).map (group.foldl (fun m b => m * 256 + b.toNat) 0 :: ·)

/-- The code points that units of 16 bits write. -/
def joinPairs : List Nat → List Nat
  | [] => []
  | [u] => [u]
  | u :: v :: us =>
    if 0xd800 ≤ u && u ≤ 0xdbff && 0xdc00 ≤ v && v ≤ 0xdfff then
      (0x10000 + (u - 0xd800) * 0x400 + (v - 0xdc00)) :: joinPairs us
    else u :: joinPairs (v :: us)
  termination_by us => us.length

def ofUtf8? (bs : List UInt8) : Option (List Nat) := (Text.decodeUtf8 true bs).mapM id

def ofUtf16? (bigEndian : Bool) (bs : List UInt8) : Option (List Nat) :=
  (units 2 bigEndian bs.length bs).map joinPairs

/-- Units of 32 bits are code points, unless they are too large. -/
def ofUtf32? (bigEndian : Bool) (bs : List UInt8) : Option (List Nat) :=
  (units 4 bigEndian bs.length bs).filter (·.all (· < 0x110000))

/-- The numbers of the code points that bytes write, if they write any. -/
def codePoints? (bs : List UInt8) : Option (List Nat) :=
  match bs.map UInt8.toNat with
  | 0 :: 0 :: 0xfe :: 0xff :: _ => ofUtf32? true (bs.drop 4)
  | 0xff :: 0xfe :: 0 :: 0 :: _ => ofUtf32? false (bs.drop 4)
  | 0xfe :: 0xff :: _ => ofUtf16? true (bs.drop 2)
  | 0xff :: 0xfe :: _ => ofUtf16? false (bs.drop 2)
  | 0xef :: 0xbb :: 0xbf :: _ => ofUtf8? (bs.drop 3)
  | 0 :: b :: _ :: _ :: _ => if b = 0 then ofUtf32? true bs else ofUtf16? true bs
  | _ :: 0 :: c :: d :: _ => if c = 0 && d = 0 then ofUtf32? false bs else ofUtf16? false bs
  | [0, _] => ofUtf16? true bs
  | [_, 0] => ofUtf16? false bs
  | _ => ofUtf8? bs

/-- What bytes write, code point by code point. -/
def decode? (bs : List UInt8) : Option (List Point) := (codePoints? bs).map (·.map Point.ofNat)

end Curation.Json
