import BoundSql.Numeral.Binary64
import BoundSql.Numeral.Decimal.Basic
import BoundSql.Numeral.Power

/-!
# Decimals and doubles

A double that is an integer becomes that integer, if there is room. Any other double becomes a
decimal through a coefficient of 96 bits: halvings are turned into multiplications by five as long
as the coefficient has room, and cost the lowest bit otherwise; then the scale is brought to at most
28, rounding half up digit by digit. A decimal becomes a double as the sum of its integer part and
its fraction, rounded to its own scale.
-/

namespace BoundSql.Numeral.Decimal

/-- Bring `coefficient * 5 ^ steps / 10 ^ scale` into the form `coefficient / 10 ^ scale`: halve an
even coefficient, otherwise multiply by five while there is room, otherwise drop the lowest bit. -/
def absorbHalvings : Nat → Nat → Nat → Nat × Nat
  | 0, coefficient, scale => (coefficient, scale)
  | steps + 1, coefficient, scale =>
    if coefficient % 2 = 0 then absorbHalvings steps (coefficient / 2) (scale - 1)
    else if coefficient * 5 < capacity then absorbHalvings steps (coefficient * 5) scale
    else absorbHalvings steps (coefficient / 2) (scale - 1)

/-- Bring the scale down by `steps`, rounding half up at each digit; zero ends with scale zero. -/
def dropDigits : Nat → Nat → Nat → Nat × Nat
  | 0, coefficient, scale => (coefficient, scale)
  | steps + 1, coefficient, scale =>
    let quotient := coefficient / 10
    if quotient = 0 then (0, 0)
    else dropDigits steps (if 5 ≤ coefficient % 10 then quotient + 1 else quotient) (scale - 1)

/-- The decimal near to a finite double, as far as the coefficient has room. -/
def ofBinary64? (x : Binary64) : Option Decimal :=
  match x.datum with
  | .finite negative significand exponent =>
    if significand = 0 then ofSignedParts? negative 0 0
    else if 0 ≤ exponent then ofSignedParts? negative (significand * pow2 exponent.toNat) 0
    else
      let (coefficient, scale) := absorbHalvings exponent.natAbs significand exponent.natAbs
      let (coefficient, scale) := dropDigits (scale - maxScale) coefficient scale
      ofSignedParts? negative coefficient scale
  | _ => none

/-- The double for a decimal: integer part plus fraction, rounded half up at the decimal's scale. -/
def toBinary64 (d : Decimal) : Binary64 :=
  if d.scale = 0 then .nearest d.negative d.coefficient 1
  else
    let unit := pow10 d.scale
    let rounded (num den : Nat) : Nat × Nat := (Binary64.nearest false num den).magnitude
    let (wholeNum, wholeDen) := rounded (d.coefficient / unit) 1
    let (partNum, partDen) := rounded (d.coefficient % unit) 1
    let (unitNum, unitDen) := rounded unit 1
    let (fracNum, fracDen) := rounded (partNum * unitDen) (partDen * unitNum)
    if fracNum = 0 then .nearest d.negative wholeNum wholeDen
    else
      let (sumNum, sumDen) := rounded (wholeNum * fracDen + fracNum * wholeDen) (wholeDen * fracDen)
      let (scaledNum, scaledDen) := rounded (sumNum * unitNum) (sumDen * unitDen)
      let (digitsNum, digitsDen) := rounded (divNearestUp scaledNum scaledDen) 1
      .nearest d.negative (digitsNum * unitDen) (digitsDen * unitNum)

end BoundSql.Numeral.Decimal
