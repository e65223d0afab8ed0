import BoundSql.Proofs.Numeral.Rounding

/-!
# The shortest decimal reads back

The search for the shortest decimal of a magnitude goes from coarse grids to fine ones and takes a
decimal only if the interval of the magnitude contains it. On a grid that is finer than a quarter of
the unit in the last place there is one (`RoundingInterval.exists_pointOn?`), and such a grid is
reached in time: ten is a little less than `2 ^ (10 / 3)` and a little more than `2 ^ (33 / 10)`,
which is near enough for all exponents of double precision.
-/

namespace BoundSql.Numeral

/-- A power of ten is compared with a power of two through `10 ^ 3 < 2 ^ 10` and
`2 ^ 33 < 10 ^ 10`. -/
theorem ten_zpow_le_two_zpow {t m : ℤ} (h : 0 ≤ t ∧ 10 * t ≤ 3 * m ∨ t < 0 ∧ 33 * t ≤ 10 * m) :
    (10 : ℚ) ^ t ≤ 2 ^ m := by
  have hten : (0 : ℚ) ≤ 10 ^ t := (zpow_pos (by norm_num) t).le
  have htwo : (0 : ℚ) ≤ 2 ^ m := (zpow_pos two_pos m).le
  rcases h with ⟨hnonneg, hle⟩ | ⟨hneg, hle⟩
  · refine le_of_pow_le_pow_left₀ (n := 3) (by decide) htwo ?_
    calc ((10 : ℚ) ^ t) ^ 3 = (10 ^ 3 : ℚ) ^ t := by rw [← zpow_natCast, zpow_comm, zpow_natCast]
      _ ≤ (2 ^ 10 : ℚ) ^ t := zpow_le_zpow_left₀ hnonneg (by norm_num) (by norm_num)
      _ = 2 ^ (10 * t) := by rw [zpow_mul, ← zpow_natCast (2 : ℚ) 10]; rfl
      _ ≤ 2 ^ (m * 3) := zpow_le_zpow_right₀ one_le_two (by omega)
      _ = (2 ^ m) ^ 3 := by rw [zpow_mul, ← zpow_natCast ((2 : ℚ) ^ m)]; rfl
  · have hinv : (2 ^ 33 : ℚ) ^ (-t) ≤ (10 ^ 10) ^ (-t) :=
      zpow_le_zpow_left₀ (by omega) (by norm_num) (by norm_num)
    rw [zpow_neg, zpow_neg, inv_le_inv₀ (zpow_pos (by norm_num) t) (zpow_pos (by norm_num) t)]
      at hinv
    refine le_of_pow_le_pow_left₀ (n := 10) (by decide) htwo ?_
    calc ((10 : ℚ) ^ t) ^ 10 = (10 ^ 10 : ℚ) ^ t := by rw [← zpow_natCast, zpow_comm, zpow_natCast]
      _ ≤ (2 ^ 33 : ℚ) ^ t := hinv
      _ = 2 ^ (33 * t) := by rw [zpow_mul, ← zpow_natCast (2 : ℚ) 33]; rfl
      _ ≤ 2 ^ (m * 10) := zpow_le_zpow_right₀ one_le_two (by omega)
      _ = (2 ^ m) ^ 10 := by rw [zpow_mul, ← zpow_natCast ((2 : ℚ) ^ m)]; rfl

namespace RoundingInterval

variable {r : RoundingInterval} {tie : TieRule} {place : ℤ}

/-- The point of the grid of multiples of `10 ^ place` at the magnitude or next below it. -/
def below (r : RoundingInterval) (place : ℤ) : ℕ :=
  r.middle * r.num * pow10 (-place).toNat / (r.den * pow10 place.toNat)

/-- The magnitude lies between the point below it and the next one. -/
theorem below_spec (hden : 0 < r.den) (place : ℤ) :
    r.below place * 10 ^ place ≤ r.middle * (r.num / r.den : ℚ) ∧
      r.middle * (r.num / r.den : ℚ) < (r.below place + 1) * 10 ^ place := by
  have hpos : (0 : ℚ) < r.den := mod_cast hden
  have hup : (0 : ℚ) < (pow10 (-place).toNat : ℕ) := mod_cast Nat.pow_pos (by decide)
  have hgrid : 0 < r.den * pow10 place.toNat := Nat.mul_pos hden (Nat.pow_pos (by decide))
  have hle : (r.below place * (r.den * pow10 place.toNat) : ℚ) ≤
      r.middle * r.num * (pow10 (-place).toNat : ℕ) :=
    mod_cast Nat.div_mul_le_self (r.middle * r.num * pow10 (-place).toNat) _
  have hlt : (r.middle * r.num * (pow10 (-place).toNat : ℕ) : ℚ) <
      (r.below place + 1) * (r.den * (pow10 place.toNat : ℕ)) := by
    have hnext : r.middle * r.num * pow10 (-place).toNat <
        (r.below place + 1) * (r.den * pow10 place.toNat) := by
      rw [mul_comm (r.below place + 1)]
      exact Nat.lt_mul_div_succ _ hgrid
    exact_mod_cast hnext
  rw [zpow_ten_eq_div, mul_div_assoc', mul_div_assoc', mul_div_assoc', div_le_div_iff₀ hup hpos,
    div_lt_div_iff₀ hpos hup]
  constructor <;> linarith

/-- A point that is found on a grid lies in the interval. -/
theorem holds_of_pointOn? {point : ℕ} (h : r.pointOn? tie place = some point) :
    r.holds point place := by
  rw [pointOn?] at h
  split at h
  · next hbelow habove =>
    obtain rfl := Option.some.inj h
    split_ifs <;> assumption
  · next hbelow _ => exact Option.some.inj h ▸ hbelow
  · next _ habove => exact Option.some.inj h ▸ habove
  · cases h

/-- A point is found if the one below the magnitude lies in the interval. -/
theorem pointOn?_isSome_of_holds (h : r.holds (r.below place) place) :
    (r.pointOn? tie place).isSome := by
  rw [below] at h
  rw [pointOn?, h]
  split
  · rfl
  · rfl
  · next hfalse _ => cases hfalse
  · next hfalse _ => cases hfalse

/-- What the search finds lies in the interval, if there is something to find in time. -/
theorem holds_search (r : RoundingInterval) (tie : TieRule) {fuel k : ℕ} (hk : k < fuel)
    (h : (r.pointOn? tie (place - k)).isSome) :
    r.holds (r.search tie fuel place).1 (r.search tie fuel place).2 := by
  induction fuel generalizing place k with
  | zero => omega
  | succ fuel ih =>
    rw [search]
    split
    · next point hpoint => exact holds_of_pointOn? hpoint
    · next hnone =>
      cases k with
      | zero => simp [hnone] at h
      | succ k =>
        refine ih (k := k) (by omega) ?_
        rwa [show place - 1 - (k : ℤ) = place - ((k + 1 : ℕ) : ℤ) by push_cast; ring]

variable {f : BinaryFormat} {significand : ℕ} {exponent : ℤ}

/-- A grid that is not coarser than a quarter of the unit in the last place has a point in the
interval, namely the next one below the magnitude. -/
theorem pointOn?_isSome (hpos : 0 < significand) (hbits : 0 < f.fractionBits)
    (hplace : (10 : ℚ) ^ place ≤ 2 ^ exponent / 4) :
    ((around f significand exponent).pointOn? tie place).isSome := by
  have hpow : (0 : ℚ) < 2 ^ exponent := zpow_pos two_pos exponent
  have hden := around_den_pos f significand exponent
  obtain ⟨hle, hlt⟩ := below_spec hden place
  have hmiddle : ((around f significand exponent).middle : ℚ) = 4 * significand := by
    rw [around]
    push_cast
    rfl
  rw [hmiddle, around_unit] at hle hlt
  refine pointOn?_isSome_of_holds ((holds_iff hden _ place).2 ?_)
  generalize ((around f significand exponent).below place : ℚ) = point at hle hlt ⊢
  have hvalue : point * 10 ^ place = point * 10 ^ place / 2 ^ exponent * 2 ^ exponent :=
    (div_mul_cancel₀ _ hpow.ne').symm
  rw [hvalue]
  refine contains_around_of_quarter hpos hbits ?_ ?_
  · rw [lt_div_iff₀ hpow]
    linarith
  · rw [div_le_iff₀ hpow]
    linarith

end RoundingInterval

/-- The parts of the magnitudes of double precision, in numbers. -/
theorem BinaryFormat.Magnitude.bounds {significand : ℕ} {exponent : ℤ}
    (h : BinaryFormat.double.Magnitude significand exponent) :
    -1074 ≤ exponent ∧ exponent ≤ 972 ∧ significand < 2 ^ 53 := by
  have hleast : BinaryFormat.double.leastExponent = -1074 := by decide
  refine ⟨hleast ▸ h.leastExponent_le, ?_, h.significand_lt⟩
  by_contra hexponent
  have hpattern := h.pattern_lt
  rw [BinaryFormat.pattern, hleast] at hpattern
  have hsteps : 2047 ≤ (exponent - -1074).toNat := by omega
  have hle : 2047 * pow2 52 ≤ (exponent - -1074).toNat * pow2 52 := Nat.mul_le_mul_right _ hsteps
  exact absurd hpattern (not_lt.2 (le_trans hle (Nat.le_add_right _ _)))

/-- The shortest decimal of a magnitude of double precision lies in the interval around it. -/
theorem contains_shortestDecimal {significand : ℕ} {exponent : ℤ} (tie : TieRule)
    (h : BinaryFormat.double.Magnitude significand exponent) (hpos : 0 < significand) :
    (RoundingInterval.around .double significand exponent).Contains
      ((shortestDecimal .double tie significand exponent).1 *
        10 ^ (shortestDecimal .double tie significand exponent).2) := by
  obtain ⟨hleast, hgreatest, hwidth⟩ := h.bounds
  rw [← RoundingInterval.holds_iff (RoundingInterval.around_den_pos _ _ _), shortestDecimal]
  refine RoundingInterval.holds_search _ tie (k := 23) (by decide)
    (RoundingInterval.pointOn?_isSome hpos (by decide) ?_)
  have hlog : significand.log2 < 53 := (Nat.log2_lt hpos.ne').2 hwidth
  have hquarter : (2 : ℚ) ^ exponent / 4 = 2 ^ (exponent - 2) := by
    rw [zpow_sub₀ two_ne_zero]
    norm_num
  rw [hquarter]
  refine ten_zpow_le_two_zpow ?_
  rw [Int.fdiv_eq_ediv_of_nonneg _ (by decide)]
  omega

end BoundSql.Numeral
