import BoundSql.Numeral.Power
import BoundSql.Numeral.Shortest

/-!
# Fixed-capacity decimals

A decimal is a sign, a coefficient of at most 96 bits and a scale of at most 28: the number
`± coefficient / 10 ^ scale`. The scale is part of the value, so `1.5` and `1.50` are different
decimals that denote the same number, and the text of a decimal shows its scale.
-/

namespace BoundSql.Numeral

/-- One more than the greatest coefficient, which has 96 bits. -/
def Decimal.capacity : Nat := 79228162514264337593543950336

/-- The greatest scale. -/
def Decimal.maxScale : Nat := 28

/-- A decimal number of limited capacity. -/
structure Decimal where
  /-- Whether the number carries a minus sign; a zero can carry one too. -/
  negative : Bool
  /-- The digits as an integer. -/
  coefficient : Nat
  /-- How many of the digits stand behind the point. -/
  scale : Nat
  /-- The coefficient is within the capacity. -/
  coefficient_lt : coefficient < Decimal.capacity
  /-- The scale is not above the greatest. -/
  scale_le : scale ≤ Decimal.maxScale
  deriving DecidableEq

namespace Decimal

/-- The decimal with the given parts, if they fit; a zero gets no sign. -/
def ofParts? (negative : Bool) (coefficient scale : Nat) : Option Decimal :=
  if h : coefficient < capacity ∧ scale ≤ maxScale then
    some ⟨negative && coefficient != 0, coefficient, scale, h.1, h.2⟩
  else none

/-- The decimal with the given parts, if they fit; a zero keeps its sign. -/
def ofSignedParts? (negative : Bool) (coefficient scale : Nat) : Option Decimal :=
  (ofParts? false coefficient scale).map fun d => { d with negative }

/-- A 64-bit signed integer as a decimal. -/
def ofInt64 (i : Int64) : Decimal :=
  ⟨i.toInt < 0, i.toInt.natAbs, 0,
    by have := Int64.toInt_lt i; have := Int64.le_toInt i; unfold capacity; omega, by decide⟩

/-- A 64-bit natural number as a decimal. -/
def ofUInt64 (n : UInt64) : Decimal :=
  ⟨false, n.toNat, 0, by have := n.toNat_lt; unfold capacity; omega, by decide⟩

/-- The text of a decimal: all digits of its scale, and no exponent. -/
def toText (d : Decimal) : String :=
  String.ofList ((if d.negative then ['-'] else []) ++ positional d.coefficient (-(d.scale : Int)))

/-- Whether the number is an integer. -/
def isIntegral (d : Decimal) : Bool := d.coefficient % pow10 d.scale = 0

/-- The integer part, if it fits 64 bits with sign. -/
def toInt64? (d : Decimal) : Option Int64 :=
  let whole : Int := d.coefficient / pow10 d.scale
  let i := if d.negative then -whole else whole
  if -(pow2 63 : Int) ≤ i ∧ i < pow2 63 then some (.ofInt i) else none

end Decimal

end BoundSql.Numeral
