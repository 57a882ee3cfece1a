/-! Texts as bytes of UTF-8. Halves of surrogate pairs are no characters; where they are let pass they are written like
    the code points around them. -/

namespace Curation.Text

/-- What the first byte of a code point says: how many bytes follow it, from where to where the first of them
    lies, and the bits that the byte itself carries. -/
def leadByte? (halves : Bool) (b : Nat) : Option (Nat × Nat × Nat × Nat) :=
  if b < 0x80 then some (0, 0, 0, b)
  else if b < 0xc2 then none
  else if b < 0xe0 then some (1, 0x80, 0xbf, b - 0xc0)
  else if b = 0xe0 then some (2, 0xa0, 0xbf, 0)
  else if b = 0xed then some (2, 0x80, if halves then 0xbf else 0x9f, 0xd)
  else if b < 0xf0 then some (2, 0x80, 0xbf, b - 0xe0)
  else if b = 0xf0 then some (3, 0x90, 0xbf, 0)
  else if b < 0xf4 then some (3, 0x80, 0xbf, b - 0xf0)
  else if b = 0xf4 then some (3, 0x80, 0x8f, 4)
  else none

/-- Takes up to `n` bytes that continue a code point, the first of them between two bounds. Returns how many
    there are, and the bits gathered. -/
def continuation : Nat → Nat → Nat → Nat → List UInt8 → Nat × Nat
  | 0, _, _, bits, _ => (0, bits)
  | _ + 1, _, _, bits, [] => (0, bits)
  | n + 1, low, high, bits, b :: bs =>
    if low ≤ b.toNat && b.toNat ≤ high then
      let (taken, bits) := continuation n 0x80 0xbf (bits * 64 + (b.toNat - 0x80)) bs
      (taken + 1, bits)
    else (0, bits)

/-- The code points that bytes write, with nothing in the place of bytes that write none. -/
def decodeUtf8 (halves : Bool) : List UInt8 → List (Option Nat)
  | [] => []
  | b :: bs =>
    match leadByte? halves b.toNat with
    | none => none :: decodeUtf8 halves bs
    | some (n, low, high, bits) =>
      let (taken, bits) := continuation n low high bits bs
      (if taken = n then some bits else none) :: decodeUtf8 halves (bs.drop taken)
  termination_by bs => bs.length
  decreasing_by all_goals (simp only [List.length_drop, List.length_cons]; omega)

/-- The text that bytes write, with a mark in the place of bytes that write no character. -/
def ofUtf8 (bytes : List UInt8) : String :=
  String.ofList ((decodeUtf8 false bytes).map fun n => n.elim '\ufffd' Char.ofNat)

end Curation.Text
