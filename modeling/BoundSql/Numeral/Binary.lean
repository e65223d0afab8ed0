import BoundSql.Numeral.Power

/-!
# Binary interchange formats

A format is given by the widths of its two fields. A finite magnitude is
`significand * 2 ^ exponent`; the bit pattern of a magnitude is a natural number below
`2 ^ (exponentBits + fractionBits)`, and patterns are ordered as the magnitudes are. Rounding takes
the nearest magnitude of the format, a tie goes to the even pattern, and a magnitude from half a
unit above the greatest finite one on becomes infinite.
-/

namespace BoundSql.Numeral

/-- The field widths of a binary interchange format. -/
structure BinaryFormat where
  /-- Width of the fraction field. -/
  fractionBits : Nat
  /-- Width of the exponent field. -/
  exponentBits : Nat

namespace BinaryFormat

/-- Single precision: 8 bits of exponent and 23 of fraction. -/
def single : BinaryFormat := ⟨23, 8⟩

/-- Double precision: 11 bits of exponent and 52 of fraction. -/
def double : BinaryFormat := ⟨52, 11⟩

/-- The exponent of the unit in the last place of the smallest magnitudes. -/
def leastExponent (f : BinaryFormat) : Int :=
  2 - (pow2 (f.exponentBits - 1) : Nat) - f.fractionBits

/-- The pattern of the infinite magnitude. -/
def infinity (f : BinaryFormat) : Nat := (pow2 f.exponentBits - 1) * pow2 f.fractionBits

/-- The pattern of the default not-a-number. -/
def quietNaN (f : BinaryFormat) : Nat := f.infinity + pow2 (f.fractionBits - 1)

/-- The bit that carries the sign. -/
def signBit (f : BinaryFormat) : Nat := pow2 (f.exponentBits + f.fractionBits)

end BinaryFormat

/-- What a bit pattern stands for. -/
inductive BinaryDatum where
  /-- The number `significand * 2 ^ exponent`, with the sign of the pattern. -/
  | finite (negative : Bool) (significand : Nat) (exponent : Int)
  /-- An infinity. -/
  | infinite (negative : Bool)
  /-- Not a number. -/
  | nan
  deriving DecidableEq, Repr

namespace BinaryFormat

/-- Decode a bit pattern. -/
def decode (f : BinaryFormat) (bits : Nat) : BinaryDatum :=
  let negative := bits / f.signBit % 2 = 1
  let magnitude := bits % f.signBit
  let biased := magnitude / pow2 f.fractionBits
  let fraction := magnitude % pow2 f.fractionBits
  if f.infinity < magnitude then .nan
  else if magnitude = f.infinity then .infinite negative
  else if biased = 0 then .finite negative fraction f.leastExponent
  else .finite negative (pow2 f.fractionBits + fraction) (f.leastExponent + biased - 1)

end BinaryFormat

/-- The integer nearest to `num / den`; a tie goes to the even one. -/
def divNearestEven (num den : Nat) : Nat :=
  let quotient := num / den
  let twice := 2 * (num % den)
  if twice < den then quotient
  else if den < twice then quotient + 1
  else quotient + quotient % 2

/-- The integer nearest to `num / den`; a tie goes up. -/
def divNearestUp (num den : Nat) : Nat := (2 * num + den) / (2 * den)

/-- A fraction times a power of two, as a fraction. -/
def scaleByTwo (num den : Nat) (exponent : Int) : Nat × Nat :=
  (num * pow2 exponent.toNat, den * pow2 (-exponent).toNat)

namespace BinaryFormat

/-- The exponent of the unit in the last place near the fraction `num / den`. -/
def unitExponent (f : BinaryFormat) (num den : Nat) : Int :=
  let guess : Int := (num.log2 : Int) - den.log2
  let (n, d) := scaleByTwo num den (-guess)
  let floorLog := if n < d then guess - 1 else guess
  max (floorLog - f.fractionBits) f.leastExponent

/-- The pattern of the magnitude nearest to the fraction `num / den`. -/
def nearest (f : BinaryFormat) (num den : Nat) : Nat :=
  if num = 0 then 0
  else
    let unit := f.unitExponent num den
    let (n, d) := scaleByTwo num den (-unit)
    let steps := (unit - f.leastExponent).toNat
    min (steps * pow2 f.fractionBits + divNearestEven n d) f.infinity

/-- The pattern of the magnitude nearest to `digits * 10 ^ exponent`. Far outside the format's range
the answer is known from the number of digits alone. -/
def nearestDecimal (f : BinaryFormat) (digits : Nat) (exponent : Int) : Nat :=
  let leading : Int := (Nat.toDigits 10 digits).length + exponent
  if digits = 0 ∨ leading ≤ f.leastExponent - 1 then 0
  else if ((pow2 (f.exponentBits - 1) : Nat) : Int) < leading then f.infinity
  else f.nearest (digits * pow10 exponent.toNat) (pow10 (-exponent).toNat)

end BinaryFormat

end BoundSql.Numeral
