import Curation.Text.Blank
import Curation.Text.Split

/-! Integers as people write them: decimal digits of any script with single underscores between them at most, perhaps
    a sign in front, and perhaps spaces around. -/

namespace Curation.Text

/-- The zeros of the scripts that have decimal digits. The other nine digits of a script follow its zero. -/
def zeros : List Nat := [
  0x30, 0x660, 0x6f0, 0x7c0, 0x966, 0x9e6, 0xa66, 0xae6, 0xb66, 0xbe6, 0xc66, 0xce6, 0xd66, 0xde6, 0xe50, 0xed0,
  0xf20, 0x1040, 0x1090, 0x17e0, 0x1810, 0x1946, 0x19d0, 0x1a80, 0x1a90, 0x1b50, 0x1bb0, 0x1c40, 0x1c50, 0xa620,
  0xa8d0, 0xa900, 0xa9d0, 0xa9f0, 0xaa50, 0xabf0, 0xff10, 0x104a0, 0x10d30, 0x11066, 0x110f0, 0x11136, 0x111d0,
  0x112f0, 0x11450, 0x114d0, 0x11650, 0x116c0, 0x11730, 0x118e0, 0x11950, 0x11c50, 0x11d50, 0x11da0, 0x16a60,
  0x16ac0, 0x16b50, 0x1d7ce, 0x1d7d8, 0x1d7e2, 0x1d7ec, 0x1d7f6, 0x1e140, 0x1e2f0, 0x1e950, 0x1fbf0]

/-- The value of a decimal digit. -/
def digitOf? (c : Char) : Option Nat :=
  (zeros.find? fun z => z ≤ c.toNat && c.toNat < z + 10).map (c.toNat - ·)

/-- The spaces around a number; unlike other blanks, the four separators of records are none. -/
def isSpace (c : Char) : Bool := isBlank c && !(0x1c ≤ c.toNat && c.toNat ≤ 0x1f)

/-- The most digits that are read. -/
def maxDigits : Nat := 4300

/-- Why a text is not read as an integer. -/
inductive IntegerFault where
  | unclear
  | tooLong (digits : Nat)
  deriving DecidableEq, Repr

/-- The number that digits at the start write. Nothing but spaces may follow them. -/
def naturalOf (cs : List Char) : Except IntegerFault Nat :=
  let run := cs.takeWhile fun c => c == '_' || (digitOf? c).isSome
  let digits := run.filterMap digitOf?
  if (splitChars '_' run).any (·.isEmpty) then .error .unclear
  else if maxDigits < digits.length then .error (.tooLong digits.length)
  else if (cs.drop run.length).all isSpace then .ok (digits.foldl (fun n d => n * 10 + d) 0)
  else .error .unclear

/-- The integer that a text writes. -/
def integerOf (s : String) : Except IntegerFault Int :=
  match s.toList.dropWhile isSpace with
  | '-' :: cs => (naturalOf cs).map fun n => -(n : Int)
  | '+' :: cs => (naturalOf cs).map fun n => (n : Int)
  | cs => (naturalOf cs).map fun n => (n : Int)

end Curation.Text
