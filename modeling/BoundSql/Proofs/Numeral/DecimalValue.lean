import BoundSql.Numeral.Binary
import BoundSql.Numeral.Decimal.Basic
import Mathlib.Algebra.Order.Field.Basic
import Mathlib.Data.Rat.Cast.Order
import Mathlib.Tactic.FieldSimp
import Mathlib.Tactic.Linarith
import Mathlib.Tactic.Ring

/-!
# The numbers that decimals denote

A decimal denotes a rational number, and several decimals denote the same one: they differ in the
zeros behind the last place, or in the sign of a zero. Not every rational number is denoted by a
decimal (`Decimal.CanHold`).
-/

namespace BoundSql.Numeral

theorem pow10_eq (n : ℕ) : pow10 n = 10 ^ n := rfl

/-- Dividing without remainder does not round. -/
theorem divNearestEven_mul (n : ℕ) {den : ℕ} (hden : 0 < den) :
    divNearestEven (n * den) den = n := by
  have hmod : 2 * (n * den % den) < den := by rwa [Nat.mul_mod_left]
  rw [divNearestEven, if_pos hmod, Nat.mul_div_cancel _ hden]

theorem divNearestUp_mul (n : ℕ) {den : ℕ} (hden : 0 < den) :
    divNearestUp (n * den) den = n := by
  have hsplit : 2 * (n * den) + den = den + 2 * den * n := by ring
  rw [divNearestUp, hsplit, Nat.add_mul_div_left _ _ (by omega), Nat.div_eq_of_lt (by omega),
    Nat.zero_add]

namespace Decimal

/-- The number that a decimal denotes. -/
def toRat (d : Decimal) : ℚ :=
  (if d.negative then -1 else 1) * d.coefficient / 10 ^ d.scale

/-- Whether a decimal denotes a number. -/
def CanHold (x : ℚ) : Prop := ∃ d : Decimal, d.toRat = x

/-- Whether there is room for a number without sign: it has a coefficient and a scale within the
limits. -/
def Fits (x : ℚ) : Prop :=
  ∃ coefficient < capacity, ∃ scale ≤ maxScale, (coefficient / 10 ^ scale : ℚ) = x

variable {negative : Bool} {coefficient scale : ℕ} {d : Decimal} {x : ℚ}

/-- A number is denoted by a decimal exactly if there is room for its magnitude. -/
theorem canHold_iff : CanHold x ↔ Fits |x| := by
  constructor
  · rintro ⟨d, rfl⟩
    refine ⟨d.coefficient, d.coefficient_lt, d.scale, d.scale_le, ?_⟩
    have hnonneg : (0 : ℚ) ≤ d.coefficient / 10 ^ d.scale := by positivity
    rw [toRat, mul_div_assoc]
    cases d.negative <;> simp [abs_of_nonneg hnonneg]
  · rintro ⟨coefficient, hcoefficient, scale, hscale, hvalue⟩
    refine ⟨⟨x < 0, coefficient, scale, hcoefficient, hscale⟩, ?_⟩
    simp only [toRat, decide_eq_true_eq, mul_div_assoc, hvalue]
    rcases lt_or_ge x 0 with hneg | hnonneg
    · rw [if_pos hneg, abs_of_neg hneg]
      ring
    · rw [if_neg (not_lt.2 hnonneg), abs_of_nonneg hnonneg, one_mul]

/-- Parts that fit are those of a decimal that denotes what they stand for. -/
theorem toRat_of_ofSignedParts? (h : ofSignedParts? negative coefficient scale = some d) :
    d.toRat = (if negative then -1 else 1) * coefficient / 10 ^ scale := by
  unfold ofSignedParts? ofParts? at h
  split at h
  · obtain rfl := Option.some.inj h
    rfl
  · cases h

/-- A zero without its sign denotes the same number. -/
theorem toRat_of_ofParts? (h : ofParts? negative coefficient scale = some d) :
    d.toRat = (if negative then -1 else 1) * coefficient / 10 ^ scale := by
  unfold ofParts? at h
  split at h
  · obtain rfl := Option.some.inj h
    by_cases hzero : coefficient = 0 <;> simp [toRat, hzero]
  · cases h

end Decimal

end BoundSql.Numeral
