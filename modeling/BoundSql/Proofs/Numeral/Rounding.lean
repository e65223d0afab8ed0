import BoundSql.Numeral.Shortest
import Mathlib.Algebra.Order.Field.Power
import Mathlib.Data.Int.Log
import Mathlib.Data.Rat.Floor
import Mathlib.Tactic.FieldSimp
import Mathlib.Tactic.Linarith
import Mathlib.Tactic.NormNum
import Mathlib.Tactic.Positivity
import Mathlib.Tactic.Ring

/-!
# Rounding to a binary format

Rounding works on fractions of natural numbers, which are scaled by powers of two. Here it is
described on the rational numbers that these fractions are: the unit in the last place comes from
the binary logarithm, and a rational number that is nearer to a magnitude of the format than to its
neighbours is rounded to that magnitude.

* `BinaryFormat.unitExponent_eq`: the exponent of the unit in the last place;
* `BinaryFormat.Magnitude`: what a finite magnitude is, and its pattern;
* `BinaryFormat.nearest_le`: how far rounding goes at most;
* `BinaryFormat.Magnitude.nearest_eq_of_contains`: what lies in the interval around a magnitude is
  rounded to it.
-/

namespace BoundSql.Numeral

/-! ### Fractions and powers -/

/-- A power with an integer exponent as a fraction of natural numbers. -/
theorem zpow_eq_div {b : ℕ} (hb : b ≠ 0) (e : ℤ) :
    (b : ℚ) ^ e = ((b ^ e.toNat : ℕ) : ℚ) / ((b ^ (-e).toNat : ℕ) : ℚ) := by
  have hb' : (b : ℚ) ≠ 0 := Nat.cast_ne_zero.2 hb
  push_cast
  rw [← zpow_natCast, ← zpow_natCast, ← zpow_sub₀ hb']
  congr 1
  omega

theorem zpow_two_eq_div (e : ℤ) :
    (2 : ℚ) ^ e = ((pow2 e.toNat : ℕ) : ℚ) / ((pow2 (-e).toNat : ℕ) : ℚ) :=
  mod_cast zpow_eq_div two_ne_zero e

theorem zpow_ten_eq_div (e : ℤ) :
    (10 : ℚ) ^ e = ((pow10 e.toNat : ℕ) : ℚ) / ((pow10 (-e).toNat : ℕ) : ℚ) :=
  mod_cast zpow_eq_div (b := 10) (by decide) e

section Scaling

variable {num den : ℕ}

/-- The fraction that is scaled by a power of two is multiplied by it. -/
theorem scaleByTwo_div (num den : ℕ) (e : ℤ) :
    ((scaleByTwo num den e).1 : ℚ) / ((scaleByTwo num den e).2 : ℚ) = num / den * 2 ^ e := by
  rw [zpow_two_eq_div, scaleByTwo, Nat.cast_mul, Nat.cast_mul, mul_div_mul_comm]

theorem scaleByTwo_snd_pos (hden : 0 < den) (e : ℤ) : 0 < (scaleByTwo num den e).2 :=
  Nat.mul_pos hden (Nat.two_pow_pos _)

/-- The binary logarithms of both parts of a fraction locate it between two powers of two. -/
theorem log2_sub_log2 (hnum : 0 < num) (hden : 0 < den) :
    (2 : ℚ) ^ ((num.log2 : ℤ) - den.log2 - 1) < num / den ∧
      (num / den : ℚ) < 2 ^ ((num.log2 : ℤ) - den.log2 + 1) := by
  have hnum' : (2 : ℚ) ^ num.log2 ≤ num := mod_cast Nat.log2_self_le hnum.ne'
  have hden' : (2 : ℚ) ^ den.log2 ≤ den := mod_cast Nat.log2_self_le hden.ne'
  have hnum'' : (num : ℚ) < 2 ^ (num.log2 + 1) := mod_cast Nat.lt_log2_self
  have hden'' : (den : ℚ) < 2 ^ (den.log2 + 1) := mod_cast Nat.lt_log2_self
  have hpos : (0 : ℚ) < den := mod_cast hden
  have hlow : (2 : ℚ) ^ ((num.log2 : ℤ) - den.log2 - 1) = 2 ^ num.log2 / 2 ^ (den.log2 + 1) := by
    rw [← zpow_natCast, ← zpow_natCast, ← zpow_sub₀ two_ne_zero]
    congr 1
    push_cast
    ring
  have hhigh : (2 : ℚ) ^ ((num.log2 : ℤ) - den.log2 + 1) = 2 ^ (num.log2 + 1) / 2 ^ den.log2 := by
    rw [← zpow_natCast, ← zpow_natCast, ← zpow_sub₀ two_ne_zero]
    congr 1
    push_cast
    ring
  rw [hlow, hhigh, div_lt_div_iff₀ (pow_pos two_pos _) hpos,
    div_lt_div_iff₀ hpos (pow_pos two_pos _)]
  constructor
  · calc (2 : ℚ) ^ num.log2 * den ≤ num * den := by gcongr
      _ < num * 2 ^ (den.log2 + 1) := by gcongr
  · calc (num : ℚ) * 2 ^ den.log2 < 2 ^ (num.log2 + 1) * 2 ^ den.log2 := by gcongr
      _ ≤ 2 ^ (num.log2 + 1) * den := by gcongr

/-- A number below a power of two has a smaller logarithm. -/
theorem log_lt_of_lt {v : ℚ} {k : ℤ} (hpos : 0 < v) (h : v < 2 ^ k) : Int.log 2 v < k :=
  (Int.lt_zpow_iff_log_lt one_lt_two hpos).1 (by exact_mod_cast h)

/-- The exponent with which a rational number lies between two powers of two is its logarithm. -/
theorem log_eq_of_mem {v : ℚ} {k : ℤ} (hlow : 2 ^ k ≤ v) (hhigh : v < 2 ^ (k + 1)) :
    Int.log 2 v = k := by
  have hpos : 0 < v := lt_of_lt_of_le (zpow_pos two_pos k) hlow
  have hle := (Int.zpow_le_iff_le_log one_lt_two hpos).1 (by exact_mod_cast hlow)
  have hlt := log_lt_of_lt hpos hhigh
  omega

/-- The exponent of the unit in the last place of a fraction, from its binary logarithm. -/
theorem BinaryFormat.unitExponent_eq (f : BinaryFormat) (hnum : 0 < num) (hden : 0 < den) :
    f.unitExponent num den =
      max (Int.log 2 (num / den : ℚ) - f.fractionBits) f.leastExponent := by
  obtain ⟨hlow, hhigh⟩ := log2_sub_log2 hnum hden
  rw [unitExponent]
  generalize (num.log2 : ℤ) - den.log2 = guess at hlow hhigh
  have hratio := scaleByTwo_div num den (-guess)
  have hpos : (0 : ℚ) < ((scaleByTwo num den (-guess)).2 : ℕ) :=
    mod_cast scaleByTwo_snd_pos hden (-guess)
  have hlt : (scaleByTwo num den (-guess)).1 < (scaleByTwo num den (-guess)).2 ↔
      (num / den : ℚ) < 2 ^ guess := by
    rw [← Nat.cast_lt (α := ℚ), ← div_lt_one hpos, hratio, zpow_neg, ← div_eq_mul_inv,
      div_lt_one (zpow_pos two_pos guess)]
  dsimp only
  congr 2
  split
  · next h => exact (log_eq_of_mem hlow.le (by simpa using hlt.1 h)).symm
  · next h => exact (log_eq_of_mem (not_lt.1 (mt hlt.2 h)) hhigh).symm

/-- The exponent of the unit in the last place is the one that leaves a significand of the format's
width. -/
theorem BinaryFormat.unitExponent_eq_of_mem (f : BinaryFormat) (hnum : 0 < num) (hden : 0 < den)
    {u : ℤ} (hleast : f.leastExponent ≤ u)
    (hlow : u = f.leastExponent ∨ 2 ^ (u + f.fractionBits) ≤ (num / den : ℚ))
    (hhigh : (num / den : ℚ) < 2 ^ (u + f.fractionBits + 1)) : f.unitExponent num den = u := by
  have hpos : (0 : ℚ) < num / den := div_pos (mod_cast hnum) (mod_cast hden)
  have hlt := log_lt_of_lt hpos hhigh
  rw [f.unitExponent_eq hnum hden]
  rcases hlow with rfl | hlow
  · omega
  · have hle := (Int.zpow_le_iff_le_log one_lt_two hpos).1 (by exact_mod_cast hlow)
    omega

end Scaling

/-! ### Rounding to an integer -/

/-- The integer that is nearest to a fraction, the even one of two, is what it is rounded to. -/
theorem divNearestEven_eq {num den k : ℕ} (hden : 0 < den)
    (hnear : |(num / den : ℚ) - k| ≤ 1 / 2)
    (hodd : k % 2 = 1 → |(num / den : ℚ) - k| < 1 / 2) : divNearestEven num den = k := by
  have hpos : (0 : ℚ) < den := mod_cast hden
  have hsplit : num = den * (num / den) + num % den := (Nat.div_add_mod num den).symm
  have hlt := Nat.mod_lt num hden
  rw [divNearestEven]
  generalize num / den = quotient at hsplit
  generalize num % den = rest at hsplit hlt
  have hvalue : (num / den : ℚ) - k = (quotient - k) + rest / den := by
    rw [hsplit]
    push_cast
    field_simp
    ring
  have hnonneg : (0 : ℚ) ≤ rest / den := by positivity
  have hlt_one : (rest / den : ℚ) < 1 := (div_lt_one hpos).2 (mod_cast hlt)
  have hhalf : (rest / den : ℚ) < 1 / 2 ↔ 2 * rest < den := by
    rw [div_lt_div_iff₀ hpos two_pos, mul_comm, one_mul]
    exact_mod_cast Iff.rfl
  have hhalf' : (1 / 2 : ℚ) < rest / den ↔ den < 2 * rest := by
    rw [div_lt_div_iff₀ two_pos hpos, mul_comm (rest : ℚ), one_mul]
    exact_mod_cast Iff.rfl
  rw [hvalue] at hnear hodd
  generalize (rest / den : ℚ) = part at *
  obtain ⟨hlow, hhigh⟩ := abs_le.1 hnear
  -- The integer is the quotient or the next one, and the remainder tells which.
  have hle : quotient < k + 1 := by
    have : (quotient : ℚ) < k + 1 := by linarith
    exact_mod_cast this
  have hge : k < quotient + 2 := by
    have : (k : ℚ) < quotient + 2 := by linarith
    exact_mod_cast this
  rcases (by omega : k = quotient ∨ k = quotient + 1) with rfl | rfl
  · rw [sub_self, zero_add] at hhigh hodd
    have hnot : ¬den < 2 * rest := fun h => absurd (hhalf'.2 h) (not_lt.2 hhigh)
    have heven : k % 2 = 1 → 2 * rest < den := fun h => hhalf.1 (abs_lt.1 (hodd h)).2
    split
    · rfl
    · omega
  · push_cast at hlow hodd
    have hnot : ¬2 * rest < den := fun h => by linarith [hhalf.2 h]
    have heven : (quotient + 1) % 2 = 1 → den < 2 * rest := fun h =>
      hhalf'.1 (by linarith [(abs_lt.1 (hodd h)).1])
    split
    · contradiction
    · split <;> omega

/-- A fraction is rounded up by one at most. -/
theorem divNearestEven_le (num den : ℕ) : divNearestEven num den ≤ num / den + 1 := by
  rw [divNearestEven]
  split
  · omega
  · split <;> omega

/-! ### Rounding to a magnitude -/

namespace BinaryFormat

/-- The pattern of the magnitude `significand * 2 ^ exponent`. -/
def pattern (f : BinaryFormat) (significand : ℕ) (exponent : ℤ) : ℕ :=
  (exponent - f.leastExponent).toNat * pow2 f.fractionBits + significand

/-- What makes `significand * 2 ^ exponent` a finite magnitude of a format in its canonical form. -/
structure Magnitude (f : BinaryFormat) (significand : ℕ) (exponent : ℤ) : Prop where
  /-- The exponent is not below that of the smallest magnitudes. -/
  leastExponent_le : f.leastExponent ≤ exponent
  /-- The significand has one bit more than the fraction at most. -/
  significand_lt : significand < 2 ^ (f.fractionBits + 1)
  /-- It has that many unless the magnitude is one of the smallest. -/
  normal : exponent = f.leastExponent ∨ 2 ^ f.fractionBits ≤ significand
  /-- The pattern is below that of the infinite magnitude. -/
  pattern_lt : f.pattern significand exponent < f.infinity

variable {f : BinaryFormat} {significand num den : ℕ} {exponent unit : ℤ}

/-- Rounding, once the unit in the last place is known. -/
theorem nearest_of_unitExponent (hnum : 0 < num) (hunit : f.unitExponent num den = unit) :
    f.nearest num den =
      min ((unit - f.leastExponent).toNat * pow2 f.fractionBits +
          divNearestEven (scaleByTwo num den (-unit)).1 (scaleByTwo num den (-unit)).2)
        f.infinity := by
  rw [nearest, if_neg hnum.ne', hunit]

/-- A fraction `w * 2 ^ exponent` with `w` close to a significand is rounded to that one's pattern,
if its unit in the last place is `2 ^ exponent`. -/
theorem nearest_of_near (hnum : 0 < num) (hden : 0 < den) {w : ℚ}
    (hvalue : (num / den : ℚ) = w * 2 ^ exponent) (hleast : f.leastExponent ≤ exponent)
    (hlow : exponent = f.leastExponent ∨ 2 ^ f.fractionBits ≤ w)
    (hhigh : w < 2 ^ (f.fractionBits + 1)) (hnear : |w - significand| ≤ 1 / 2)
    (hodd : significand % 2 = 1 → |w - significand| < 1 / 2) :
    f.nearest num den = min (f.pattern significand exponent) f.infinity := by
  have hpow : (0 : ℚ) < 2 ^ exponent := zpow_pos two_pos exponent
  have hunit : f.unitExponent num den = exponent := by
    refine f.unitExponent_eq_of_mem hnum hden hleast (hlow.imp id fun hlow => ?_) ?_
    · rw [hvalue, add_comm, zpow_add₀ two_ne_zero, zpow_natCast]
      gcongr
    · rw [hvalue, add_assoc, add_comm, zpow_add₀ two_ne_zero]
      gcongr
      exact_mod_cast hhigh
  have hscaled : ((scaleByTwo num den (-exponent)).1 : ℚ) / (scaleByTwo num den (-exponent)).2 =
      w := by
    rw [scaleByTwo_div, hvalue, zpow_neg, mul_assoc, mul_inv_cancel₀ hpow.ne', mul_one]
  rw [nearest_of_unitExponent hnum hunit, pattern,
    divNearestEven_eq (scaleByTwo_snd_pos hden _) (by rwa [hscaled]) (by rwa [hscaled])]

/-- Rounding goes to the end of the magnitudes with the same unit at most. -/
theorem nearest_le (f : BinaryFormat) (hnum : 0 < num) (hden : 0 < den) :
    f.nearest num den ≤ (f.unitExponent num den - f.leastExponent).toNat * 2 ^ f.fractionBits +
      2 ^ (f.fractionBits + 1) := by
  have hunit := f.unitExponent_eq hnum hden
  rw [nearest_of_unitExponent hnum rfl]
  generalize f.unitExponent num den = unit at hunit ⊢
  refine le_trans (min_le_left _ _) (Nat.add_le_add_left ?_ _)
  have hpos : 0 < (scaleByTwo num den (-unit)).2 := scaleByTwo_snd_pos hden (-unit)
  have hratio := scaleByTwo_div num den (-unit)
  generalize scaleByTwo num den (-unit) = scaled at hpos hratio ⊢
  have hpos' : (0 : ℚ) < scaled.2 := mod_cast hpos
  have hlt : (scaled.1 / scaled.2 : ℚ) < 2 ^ (f.fractionBits + 1) := by
    have hlog : (num / den : ℚ) < 2 ^ (Int.log 2 (num / den : ℚ) + 1) := by
      exact_mod_cast Int.lt_zpow_succ_log_self one_lt_two (num / den : ℚ)
    calc (scaled.1 / scaled.2 : ℚ) = num / den * 2 ^ (-unit) := hratio
      _ < 2 ^ (Int.log 2 (num / den : ℚ) + 1) * 2 ^ (-unit) := by gcongr
      _ = 2 ^ (Int.log 2 (num / den : ℚ) + 1 + -unit) := (zpow_add₀ two_ne_zero _ _).symm
      _ ≤ 2 ^ ((f.fractionBits + 1 : ℕ) : ℤ) := zpow_le_zpow_right₀ one_le_two (by omega)
      _ = 2 ^ (f.fractionBits + 1) := zpow_natCast _ _
  rw [div_lt_iff₀ hpos'] at hlt
  have hquotient : scaled.1 / scaled.2 < 2 ^ (f.fractionBits + 1) := by
    refine Nat.div_lt_of_lt_mul ?_
    rw [mul_comm]
    exact_mod_cast hlt
  exact le_trans (divNearestEven_le _ _) hquotient

/-- A magnitude whose significand is a power of two ends the magnitudes of the next smaller unit. -/
theorem pattern_double (hleast : f.leastExponent < exponent) :
    f.pattern (2 ^ (f.fractionBits + 1)) (exponent - 1) =
      f.pattern (2 ^ f.fractionBits) exponent := by
  have hsteps : (exponent - f.leastExponent).toNat =
      (exponent - 1 - f.leastExponent).toNat + 1 := by omega
  simp only [pattern, hsteps, pow2, Nat.pow_eq]
  ring

/-- A fraction `w * 2 ^ exponent` is rounded to the magnitude whose significand is nearest to `w`.
Below a power of two the magnitudes are closer to each other. -/
theorem Magnitude.nearest_eq (h : f.Magnitude significand exponent) (hnum : 0 < num)
    (hden : 0 < den) {w : ℚ} (hvalue : (num / den : ℚ) = w * 2 ^ exponent)
    (hnear : |w - significand| ≤ 1 / 2) (hodd : significand % 2 = 1 → |w - significand| < 1 / 2)
    (hnarrow : significand = 2 ^ f.fractionBits → f.leastExponent < exponent →
      significand - 1 / 4 ≤ w) :
    f.nearest num den = f.pattern significand exponent := by
  obtain ⟨hdown, hup⟩ := abs_le.1 hnear
  have hwidth : (significand : ℚ) + 1 ≤ 2 ^ (f.fractionBits + 1) := mod_cast h.significand_lt
  by_cases hlow : exponent = f.leastExponent ∨ 2 ^ f.fractionBits ≤ w
  · rw [nearest_of_near hnum hden hvalue h.leastExponent_le hlow (by linarith) hnear hodd,
      min_eq_left h.pattern_lt.le]
  · -- Only just below a power of two is the unit in the last place the next smaller one.
    obtain ⟨hne, hbelow⟩ := not_or.1 hlow
    rw [not_le] at hbelow
    have hleast : f.leastExponent < exponent := lt_of_le_of_ne h.leastExponent_le (Ne.symm hne)
    have hsignificand : significand = 2 ^ f.fractionBits := by
      refine le_antisymm (Nat.le_of_lt_succ ?_) (h.normal.resolve_left hne)
      have hlt : (significand : ℚ) < 2 ^ f.fractionBits + 1 := by linarith
      exact_mod_cast hlt
    have hquarter := hnarrow hsignificand hleast
    have hone : (1 : ℚ) ≤ 2 ^ f.fractionBits := one_le_pow₀ one_le_two
    have hcast : ((2 ^ (f.fractionBits + 1) : ℕ) : ℚ) = 2 * 2 ^ f.fractionBits := by
      push_cast
      ring
    rw [hsignificand] at hquarter
    push_cast at hquarter
    have hdouble : (num / den : ℚ) = w * 2 * 2 ^ (exponent - 1) := by
      rw [hvalue, zpow_sub_one₀ two_ne_zero]
      ring
    have hnear' : |w * 2 - (2 ^ (f.fractionBits + 1) : ℕ)| ≤ 1 / 2 := by
      rw [hcast, abs_le]
      constructor <;> linarith
    rw [nearest_of_near hnum hden hdouble (by omega) (Or.inr (by linarith))
      (by rw [pow_succ]; linarith) hnear' fun hodd => absurd hodd (by simp [pow_succ]),
      pattern_double hleast, ← hsignificand, min_eq_left h.pattern_lt.le]

end BinaryFormat

/-! ### The interval around a magnitude -/

namespace RoundingInterval

/-- Whether a rational number lies in the interval. -/
def Contains (r : RoundingInterval) (v : ℚ) : Prop :=
  if r.closed then r.low * (r.num / r.den) ≤ v ∧ v ≤ r.high * (r.num / r.den)
  else r.low * (r.num / r.den) < v ∧ v < r.high * (r.num / r.den)

/-- The check of a decimal is whether the interval contains it. -/
theorem holds_iff {r : RoundingInterval} (hden : 0 < r.den) (point : ℕ) (place : ℤ) :
    r.holds point place ↔ r.Contains (point * 10 ^ place) := by
  have hpos : (0 : ℚ) < r.den := mod_cast hden
  have hten : (0 : ℚ) < (pow10 (-place).toNat : ℕ) := mod_cast Nat.pow_pos (by decide)
  -- Both sides of a comparison are multiplied by the two denominators.
  have hscale : (0 : ℚ) < r.den * (pow10 (-place).toNat : ℕ) := mul_pos hpos hten
  have hleft : (point * 10 ^ place : ℚ) * (r.den * (pow10 (-place).toNat : ℕ)) =
      ((point * pow10 place.toNat * r.den : ℕ) : ℚ) := by
    rw [zpow_ten_eq_div, Nat.cast_mul, Nat.cast_mul]
    field_simp
  have hend : ∀ n : ℕ, (n * (r.num / r.den) : ℚ) * (r.den * (pow10 (-place).toNat : ℕ)) =
      ((n * (r.num * pow10 (-place).toNat) : ℕ) : ℚ) := by
    intro n
    rw [Nat.cast_mul, Nat.cast_mul]
    field_simp
  have hle : ∀ {a b : ℚ}, a ≤ b ↔
      a * (r.den * (pow10 (-place).toNat : ℕ)) ≤ b * (r.den * (pow10 (-place).toNat : ℕ)) :=
    (mul_le_mul_iff_left₀ hscale).symm
  have hlt : ∀ {a b : ℚ}, a < b ↔
      a * (r.den * (pow10 (-place).toNat : ℕ)) < b * (r.den * (pow10 (-place).toNat : ℕ)) :=
    (mul_lt_mul_iff_left₀ hscale).symm
  rw [holds, Contains]
  split
  · rw [Bool.and_eq_true, decide_eq_true_eq, decide_eq_true_eq, hle (a := r.low * _), 
      hle (b := r.high * _), hleft, hend, hend, Nat.cast_le, Nat.cast_le]
  · rw [Bool.and_eq_true, decide_eq_true_eq, decide_eq_true_eq, hlt (a := r.low * _), 
      hlt (b := r.high * _), hleft, hend, hend, Nat.cast_lt, Nat.cast_lt]

variable {f : BinaryFormat} {significand : ℕ} {exponent : ℤ} {v : ℚ}

/-- The unit of the interval around a magnitude is a quarter of the unit in the last place. -/
theorem around_unit (f : BinaryFormat) (significand : ℕ) (exponent : ℤ) :
    ((around f significand exponent).num / (around f significand exponent).den : ℚ) =
      2 ^ exponent / 4 := by
  have hratio := scaleByTwo_div 1 1 (exponent - 2)
  rw [Nat.cast_one, div_one, one_mul, zpow_sub₀ two_ne_zero] at hratio
  rw [around]
  norm_num at hratio ⊢
  exact hratio

theorem around_den_pos (f : BinaryFormat) (significand : ℕ) (exponent : ℤ) :
    0 < (around f significand exponent).den := by
  have hunit : 0 < (scaleByTwo 1 1 (exponent - 2)).2 := scaleByTwo_snd_pos one_pos (exponent - 2)
  exact hunit

/-- The lower end of the interval lies a half of the unit in the last place below the magnitude, or
a quarter of it below a power of two. -/
theorem around_low (hpos : 0 < significand) :
    ((around f significand exponent).low : ℚ) =
      if significand = pow2 f.fractionBits ∧ f.leastExponent < exponent then
        4 * (significand : ℚ) - 1
      else 4 * significand - 2 := by
  rw [around]
  dsimp only
  split
  · rw [Nat.cast_sub (by omega)]
    push_cast
    rfl
  · rw [Nat.cast_sub (by omega)]
    push_cast
    rfl

/-- The interval around a magnitude, in terms of the unit in the last place. -/
theorem contains_around_iff {w : ℚ} :
    (around f significand exponent).Contains (w * 2 ^ exponent) ↔
      if significand % 2 = 0 then
        (around f significand exponent).low ≤ 4 * w ∧ 4 * w ≤ 4 * significand + 2
      else (around f significand exponent).low < 4 * w ∧ 4 * w < 4 * significand + 2 := by
  have hpow : (0 : ℚ) < 2 ^ exponent / 4 := div_pos (zpow_pos two_pos exponent) (by norm_num)
  have hvalue : w * 2 ^ exponent = 4 * w * (2 ^ exponent / 4) := by ring
  have hclosed : (around f significand exponent).closed = decide (significand % 2 = 0) := rfl
  have hhigh : ((around f significand exponent).high : ℚ) = 4 * significand + 2 := by
    rw [around]
    push_cast
    rfl
  rw [Contains, around_unit, hvalue, hhigh, hclosed]
  simp only [decide_eq_true_eq, mul_le_mul_iff_left₀ hpow, mul_lt_mul_iff_left₀ hpow]

/-- A number in the interval around a magnitude is near to it. -/
theorem Contains.near {w : ℚ} (hpos : 0 < significand)
    (h : (around f significand exponent).Contains (w * 2 ^ exponent)) :
    |w - significand| ≤ 1 / 2 ∧ (significand % 2 = 1 → |w - significand| < 1 / 2) ∧
      (significand = 2 ^ f.fractionBits → f.leastExponent < exponent →
        significand - 1 / 4 ≤ w) := by
  rw [contains_around_iff, around_low hpos] at h
  rw [abs_le, abs_lt]
  have hlow : (4 * significand - 2 : ℚ) ≤
      if significand = pow2 f.fractionBits ∧ f.leastExponent < exponent then
        4 * (significand : ℚ) - 1
      else 4 * significand - 2 := by
    split <;> linarith
  refine ⟨?_, fun hodd => ?_, fun hpower hleast => ?_⟩
  · split at h <;> constructor <;> linarith [h.1, h.2]
  · rw [if_neg (by omega)] at h
    constructor <;> linarith [h.1, h.2]
  · have hnarrow : significand = pow2 f.fractionBits ∧ f.leastExponent < exponent :=
      ⟨hpower, hleast⟩
    rw [if_pos hnarrow] at h
    split at h <;> linarith [h.1]

/-- The interval around a magnitude goes half a unit in the last place to either side. -/
theorem Contains.bounds (hpos : 0 < significand)
    (h : (around f significand exponent).Contains v) :
    (significand - 1 / 2) * 2 ^ exponent ≤ v ∧ v ≤ (significand + 1 / 2) * 2 ^ exponent := by
  have hpow : (0 : ℚ) < 2 ^ exponent := zpow_pos two_pos exponent
  have hvalue : v = v / 2 ^ exponent * 2 ^ exponent := (div_mul_cancel₀ _ hpow.ne').symm
  rw [hvalue] at h
  obtain ⟨hlow, hhigh⟩ := abs_le.1 (h.near hpos).1
  rw [hvalue]
  constructor <;> gcongr <;> linarith

/-- The interval around a magnitude goes a quarter of the unit in the last place below it. -/
theorem contains_around_of_quarter {w : ℚ} (hpos : 0 < significand) (hbits : 0 < f.fractionBits)
    (hlow : significand - 1 / 4 < w) (hhigh : w ≤ significand) :
    (around f significand exponent).Contains (w * 2 ^ exponent) := by
  rw [contains_around_iff, around_low hpos]
  split
  · constructor
    · split <;> linarith
    · linarith
  · next hodd =>
    have hpower : significand ≠ pow2 f.fractionBits := by
      rintro rfl
      exact hodd (Nat.mod_eq_zero_of_dvd (dvd_pow_self 2 hbits.ne'))
    rw [if_neg fun h => hpower h.1]
    constructor <;> linarith

end RoundingInterval

/-- What lies in the interval around a magnitude is rounded to it. -/
theorem BinaryFormat.Magnitude.nearest_eq_of_contains {f : BinaryFormat} {significand num den : ℕ}
    {exponent : ℤ} (h : f.Magnitude significand exponent) (hpos : 0 < significand)
    (hden : 0 < den)
    (hv : (RoundingInterval.around f significand exponent).Contains (num / den)) :
    f.nearest num den = f.pattern significand exponent := by
  have hpow : (2 : ℚ) ^ exponent ≠ 0 := (zpow_pos two_pos exponent).ne'
  have hvalue : (num / den : ℚ) = num / den / 2 ^ exponent * 2 ^ exponent :=
    (div_mul_cancel₀ _ hpow).symm
  rw [hvalue] at hv
  obtain ⟨hnear, hodd, hnarrow⟩ := hv.near hpos
  have hnum : 0 < num := by
    rw [Nat.pos_iff_ne_zero]
    rintro rfl
    have hone : (1 : ℚ) ≤ significand := mod_cast hpos
    rw [Nat.cast_zero, zero_div, zero_div, abs_le] at hnear
    linarith [hnear.1]
  exact h.nearest_eq hnum hden hvalue hnear hodd hnarrow

end BoundSql.Numeral
