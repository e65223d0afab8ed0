import BoundSql.Numeral.Decimal.Text
import BoundSql.Wire.BigEndian

/-!
# Decimals on the wire

A decimal is sent in groups of four digits: how many groups there are, the weight of the first one,
the sign, how many digits stand behind the point, and the groups. The first group counts for
`10000 ^ weight`.

A decimal that is read is added up group by group. Where the sum outgrows the capacity of a decimal,
digits are rounded away, to an even last digit on a tie; at the end the sum is brought to the number
of digits behind the point that was sent.
-/

namespace BoundSql.Wire

open Numeral (Decimal)

/-- The groups of four digits of a number. -/
def digitGroups (n : Nat) : List Nat :=
  if n = 0 then [] else digitGroups (n / 10000) ++ [n % 10000]

/-- The code of a minus sign. -/
def minusSign : Nat := 0x4000

/-- The groups without those at the end that are zero. -/
def trimGroups (groups : List Nat) : List Nat := (groups.reverse.dropWhile (· = 0)).reverse

/-- A decimal in its binary form. Zero has no groups, and a number that has groups before the point
has no zeros at the end of those behind it. -/
def numericBytes (d : Decimal) : List UInt8 :=
  if d.coefficient = 0 then natBytes 8 0
  else
    let fractionGroups := (d.scale + 3) / 4
    let groups := digitGroups (d.coefficient * Numeral.pow10 (4 * fractionGroups - d.scale))
    let weight : Int := groups.length - fractionGroups - 1
    let groups :=
      if weight < 0 then groups
      else
        let before := groups.length - fractionGroups
        groups.take before ++ trimGroups (groups.drop before)
    natBytes 2 groups.length ++ intBytes 2 weight ++
      natBytes 2 (if d.negative then minusSign else 0) ++ natBytes 2 d.scale ++
      groups.flatMap (natBytes 2)

/-- Read `count` groups; what follows them is not looked at. -/
def readGroups? : Nat → List UInt8 → Option (List Nat)
  | 0, _ => some []
  | count + 1, bytes => do
    let (group, bytes) ← takeNat? 2 bytes
    return group :: (← readGroups? count bytes)

/-- Round away as few digits as there are too many, up to `scale` of them. -/
def shrink? (coefficient scale : Nat) : Option (Nat × Nat) := do
  let drop ← (List.range (scale + 1)).find? fun drop =>
    coefficient / Numeral.pow10 drop < Decimal.capacity
  let rounded := Numeral.divNearestEven coefficient (Numeral.pow10 drop)
  -- Rounding up can need one digit more than there is room for.
  if rounded < Decimal.capacity then return (rounded, scale - drop)
  else if drop < scale then return (Numeral.divNearestEven rounded 10, scale - drop - 1)
  else none

/-- Add `part / 10 ^ power` to a sum given by its coefficient and scale. -/
def addPart? (sum : Nat × Nat) (part power : Nat) : Option (Nat × Nat) :=
  if part = 0 then some sum
  else
    let scale := max sum.2 power
    shrink? (sum.1 * Numeral.pow10 (scale - sum.2) + part * Numeral.pow10 (scale - power)) scale

/-- Add up the groups before the point; there are zeros for those that are missing. -/
def integerPart? : Nat → List Nat → Nat → Option Nat
  | 0, _, total => some total
  | count + 1, groups, total =>
    let total := total * 10000 + groups.headD 0
    if total < Decimal.capacity then integerPart? count groups.tail total else none

/-- Add the groups behind the point; the first one counts for `10 ^ -power`. The group that follows
the last place of a decimal rounds that place. -/
def addFraction? : Nat → List Nat → Nat × Nat → Option (Nat × Nat)
  | _, [], sum => some sum
  | power, group :: groups, sum => do
    let sum ←
      if power ≤ Decimal.maxScale then addPart? sum group power
      else if power = Decimal.maxScale + 4 ∧ 5000 ≤ group then addPart? sum 1 Decimal.maxScale
      else some sum
    addFraction? (power + 4) groups sum

/-- Bring a coefficient to a greater scale, as far as there is room. -/
def growScale : Nat → Nat → Nat → Nat × Nat
  | 0, coefficient, scale => (coefficient, scale)
  | steps + 1, coefficient, scale =>
    if coefficient * 10 < Decimal.capacity then growScale steps (coefficient * 10) (scale + 1)
    else (coefficient, scale)

/-- Bring a coefficient to a scale. Digits that are dropped round half up. -/
def rescale (coefficient scale target : Nat) : Nat × Nat :=
  if coefficient = 0 then (0, target)
  else if target < scale then
    (Numeral.divNearestUp coefficient (Numeral.pow10 (scale - target)), target)
  else growScale (target - scale) coefficient scale

/-- Read a decimal in its binary form. -/
def readNumeric? (bytes : List UInt8) : Option Decimal := do
  let (count, bytes) ← takeNat? 2 bytes
  let (weight, bytes) ← takeNat? 2 bytes
  let (sign, bytes) ← takeNat? 2 bytes
  let (scale, bytes) ← takeNat? 2 bytes
  let groups ← readGroups? count bytes
  guard (sign = 0 ∨ sign = minusSign)
  let before := ((weight : Int).bmod 65536 + 1)
  let integer ← integerPart? before.toNat groups 0
  let skipped := (-before).toNat
  let (coefficient, found) ←
    addFraction? (4 * (skipped + 1)) (groups.drop before.toNat) (integer, 0)
  let (coefficient, scale) := rescale coefficient found (min scale Decimal.maxScale)
  Decimal.ofSignedParts? (sign = minusSign) coefficient scale

end BoundSql.Wire
