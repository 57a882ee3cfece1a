/-! Numbers on the binary grid: a mantissa of at most 53 bits times a power of two, no finer than the power
    -1074 and below the power 1024. A number that is given in another way stands for the nearest one. Powers are those
    of core, so that nothing here depends on an algebra of numbers. -/

namespace Curation.Number

/-- The number mantissa · 2^exponent. The mantissa is odd, or both are zero, so that equal numbers are equal
    values. -/
structure Binary where
  mantissa : Int
  exponent : Int
  deriving DecidableEq, Repr

namespace Binary

/-- The bits of a mantissa. -/
def precision : Nat := 53

/-- The finest power of two. -/
def leastExponent : Int := -1074

/-- The first power of two that is too large. -/
def overflowExponent : Int := 1024

/-- Takes factors of two out of a mantissa, at most `fuel` of them. -/
def halve : Nat → Nat → Int → Nat × Int
  | 0, m, e => (m, e)
  | fuel + 1, m, e => if m % 2 = 0 then halve fuel (m / 2) (e + 1) else (m, e)

/-- The number m · 2^e, with a sign. -/
def ofScaled (negative : Bool) (m : Nat) (e : Int) : Binary :=
  if m = 0 then ⟨0, 0⟩
  else
    let (m, e) := halve m.log2 m e
    ⟨if negative then -(m : Int) else m, e⟩

/-- The quotient rounded to the nearest integer, a half to the even neighbour. -/
def roundedQuotient (num den : Nat) : Nat :=
  let q := num / den
  let r := num % den
  if 2 * r < den then q else if den < 2 * r then q + 1 else q + q % 2

/-- The quotient num · 2^(-e) / den as one fraction. -/
def scaledFraction (num den : Nat) (e : Int) : Nat × Nat :=
  if 0 ≤ e then (num, den * Nat.pow 2 e.toNat) else (num * Nat.pow 2 (-e).toNat, den)

/-- The power of two that the last bit of the number nearest to a fraction has. -/
def lastBit (num den : Nat) : Int :=
  let e : Int := num.log2 - den.log2 - (precision - 1)
  let (n, d) := scaledFraction num den e
  let e := if n / d < Nat.pow 2 (precision - 1) then e - 1 else e
  max e leastExponent

/-- The number nearest to a fraction, if it is not too large. -/
def ofFraction? (negative : Bool) (num den : Nat) : Option Binary :=
  if num = 0 then some ⟨0, 0⟩
  else
    let e := lastBit num den
    let (n, d) := scaledFraction num den e
    let q := roundedQuotient n d
    if overflowExponent ≤ e + q.log2 then none else some (ofScaled negative q e)

/-- Powers of ten beyond which a number is too large or nothing, whatever its leading digit. -/
def decimalBound : Int := 400

/-- The number nearest to mantissa · 10^(-places), if it is not too large. -/
def ofDecimal? (mantissa places : Int) : Option Binary :=
  let m := mantissa.natAbs
  let magnitude : Int := (toString m).length - places
  if m = 0 then some ⟨0, 0⟩
  else if decimalBound < magnitude then none
  else if magnitude < -decimalBound then some ⟨0, 0⟩
  else if 0 ≤ places then ofFraction? (decide (mantissa < 0)) m (Nat.pow 10 places.toNat)
  else ofFraction? (decide (mantissa < 0)) (m * Nat.pow 10 (-places).toNat) 1

/-- The integer that a number is, if it is whole. -/
def toInt? (b : Binary) : Option Int :=
  if 0 ≤ b.exponent then some (b.mantissa * Nat.pow 2 b.exponent.toNat) else none

/-- The mantissa and the places of the decimal that a number is. -/
def toDecimal (b : Binary) : Int × Int :=
  if 0 ≤ b.exponent then (b.mantissa * Nat.pow 2 b.exponent.toNat, 0)
  else (b.mantissa * Nat.pow 5 (-b.exponent).toNat, -b.exponent)

/-- The distance of a number from zero as a fraction. -/
def magnitude (b : Binary) : Nat × Nat :=
  if 0 ≤ b.exponent then (b.mantissa.natAbs * Nat.pow 2 b.exponent.toNat, 1)
  else (b.mantissa.natAbs, Nat.pow 2 (-b.exponent).toNat)

/-- The power of ten of the leading digit of a fraction that is not zero. -/
def leadingPower (num den : Nat) : Int :=
  if den ≤ num then (toString (num / den)).length - 1
  else -((toString ((den - 1) / num)).length : Int)

/-- The first `count` digits of a number that is not zero, as one integer, and the power of ten of the leading
    one. The last digit is rounded, a half upwards. -/
def leadingDigits (count : Nat) (b : Binary) : Nat × Int :=
  let (num, den) := b.magnitude
  let k := leadingPower num den
  let shift : Int := count - 1 - k
  let (n, d) := if 0 ≤ shift then (num * Nat.pow 10 shift.toNat, den) else (num, den * Nat.pow 10 (-shift).toNat)
  let digits := (2 * n + d) / (2 * d)
  if digits = Nat.pow 10 count then (Nat.pow 10 (count - 1), k + 1) else (digits, k)

end Binary

end Curation.Number
