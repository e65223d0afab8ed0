import BoundSql.Proofs.Numeral.Written
import BoundSql.Proofs.Text.Blanks
import Mathlib.Data.List.TakeWhile

/-!
# Decimals read exactly

Reading a decimal rounds where there is no room, and nothing tells that it did. In a text without an
exponent this happens exactly if no decimal denotes the number that is written. In front of an
exponent the digits are read first and shifted then, so that there has to be room for the number in
front of the exponent and for the shifted one: neither of the two roundings can make up for the
other (`Decimal.toRat_eq_writtenNumber_iff`).
-/

namespace BoundSql.Numeral

variable {s digits exponent : List Char} {d base : Decimal} {power : ℕ} {x : ℚ}

theorem writtenMagnitude_nonneg (s : List Char) : 0 ≤ writtenMagnitude s := by
  unfold writtenMagnitude
  positivity

/-- A plus sign does not count. -/
theorem writtenMagnitude_plus (s : List Char) :
    writtenMagnitude ('+' :: s) = writtenMagnitude s := by
  have hdigit : ¬ '+'.isDigit := by decide
  simp [writtenMagnitude, fractionOf, digitsOf_cons_of_not_isDigit hdigit]

namespace Decimal

/-! ### Without an exponent -/

/-- A decimal without an exponent is read as a sign and digits. -/
theorem exists_run?_of_ofPlainText? (h : ofPlainText? s = some d) :
    ∃ negative digits result, Reading.run? {} digits = some result ∧
      ofParts? negative result.1 result.2 = some d ∧
      writtenPlain s = (if negative then -1 else 1) * writtenMagnitude digits ∧
      ∀ c ∈ s, c ∈ digits ∨ c = '-' ∨ c = '+' := by
  unfold ofPlainText? at h
  dsimp only at h
  split at h
  · next result coefficient scale hrun =>
    refine ⟨_, _, (coefficient, scale), hrun, h, ?_⟩
    unfold writtenPlain
    split
    · simp +contextual
    · next hminus =>
      split
      · next rest => exact absurd rfl (hminus rest)
      · simp +contextual [writtenMagnitude_plus]
      · simp +contextual
  · cases h

/-- A decimal without an exponent that is read is within the capacity, and it is read as it is if
there is room for it. -/
theorem ofPlainText?_exact (h : ofPlainText? s = some d) :
    |writtenPlain s| < capacity ∧ (CanHold (writtenPlain s) → d.toRat = writtenPlain s) := by
  obtain ⟨negative, digits, result, hrun, hparts, hwritten, -⟩ := exists_run?_of_ofPlainText? h
  obtain ⟨hlt, hvalue⟩ := Reading.run?_eq_total Reading.valid_start hrun
  rw [Reading.total_start] at hlt hvalue
  have habs : |writtenPlain s| = writtenMagnitude digits := by
    have hnonneg := abs_of_nonneg (writtenMagnitude_nonneg digits)
    rw [hwritten]
    cases negative <;> simpa using hnonneg
  refine ⟨habs ▸ hlt, fun hheld => ?_⟩
  have hfits : Fits (writtenMagnitude digits) := habs ▸ canHold_iff.1 hheld
  rw [toRat_of_ofParts? hparts, mul_div_assoc, hvalue hfits, hwritten]

/-! ### With an exponent -/

/-- Shifting to the left is exact. -/
theorem toRat_of_shiftUp? (h : base.shiftUp? power = some d) :
    d.toRat = base.toRat * 10 ^ power := by
  rw [toRat_of_ofParts? h, toRat, Nat.cast_mul, pow10_eq, Nat.cast_pow, Nat.cast_ofNat]
  -- The scale is used up first, and what is left of the power are zeros.
  rcases le_total power base.scale with hle | hle
  · obtain ⟨places, hplaces⟩ := Nat.exists_eq_add_of_le hle
    rw [hplaces, Nat.add_sub_cancel_left, Nat.sub_eq_zero_of_le (Nat.le_add_right _ _), pow_add]
    field_simp
  · obtain ⟨zeros, hzeros⟩ := Nat.exists_eq_add_of_le hle
    rw [hzeros, Nat.add_sub_cancel_left, Nat.sub_eq_zero_of_le (Nat.le_add_right _ _), pow_add]
    field_simp

/-- A coefficient for whose number there is room ends with as many zeros as there are places too
many. -/
theorem exists_eq_mul_pow_of_fits {coefficient scale : ℕ}
    (hfits : Fits (coefficient / 10 ^ scale)) :
    ∃ quotient, coefficient = quotient * 10 ^ (scale - maxScale) := by
  obtain ⟨short, -, places, hplaces, hvalue⟩ := hfits
  rcases le_total scale maxScale with hle | hle
  · exact ⟨coefficient, by rw [Nat.sub_eq_zero_of_le hle, pow_zero, Nat.mul_one]⟩
  · obtain ⟨extra, rfl⟩ := Nat.exists_eq_add_of_le hle
    obtain ⟨missing, hmissing⟩ := Nat.exists_eq_add_of_le hplaces
    refine ⟨short * 10 ^ missing, ?_⟩
    rw [div_eq_div_iff (by positivity) (by positivity), hmissing] at hvalue
    have hcast : short * 10 ^ (places + missing + extra) = coefficient * 10 ^ places := by
      exact_mod_cast hvalue
    have hsplit : coefficient * 10 ^ places = short * 10 ^ missing * 10 ^ extra * 10 ^ places := by
      rw [← hcast]
      ring
    rw [Nat.add_sub_cancel_left]
    exact Nat.eq_of_mul_eq_mul_right (Nat.pow_pos (by decide)) hsplit

/-- Shifting to the right is exact if there is room for the shifted number. -/
theorem toRat_of_shiftDown? (h : base.shiftDown? power = some d)
    (hheld : CanHold (base.toRat / 10 ^ power)) : d.toRat = base.toRat / 10 ^ power := by
  have hshifted : base.toRat / 10 ^ power =
      (if base.negative then -1 else 1) * (base.coefficient / 10 ^ (base.scale + power)) := by
    rw [toRat, pow_add, div_div, mul_div_assoc]
  have hfits : Fits (base.coefficient / 10 ^ (base.scale + power)) := by
    have hnonneg : (0 : ℚ) ≤ base.coefficient / 10 ^ (base.scale + power) := by positivity
    rw [canHold_iff, hshifted] at hheld
    cases hnegative : base.negative <;> simpa [hnegative, abs_of_nonneg hnonneg] using hheld
  -- The digits that are dropped are zeros.
  obtain ⟨quotient, hquotient⟩ := exists_eq_mul_pow_of_fits hfits
  have hplaces : (10 : ℚ) ^ (base.scale + power) =
      10 ^ min (base.scale + power) maxScale * 10 ^ (base.scale + power - maxScale) := by
    rw [← pow_add]
    congr 1
    omega
  rw [toRat_of_ofSignedParts? h, hshifted, mul_div_assoc, pow10_eq, hquotient,
    divNearestUp_mul _ (Nat.pow_pos (by decide)), hplaces, Nat.cast_mul, Nat.cast_pow,
    Nat.cast_ofNat, mul_div_mul_right]
  positivity

/-- There is room for a number within the capacity if there is room for it after it was shifted to
the right. -/
theorem canHold_of_shifted (hx : |x| < capacity) (hheld : CanHold (x / 10 ^ power)) :
    CanHold x := by
  obtain ⟨coefficient, hcoefficient, scale, hscale, hvalue⟩ := canHold_iff.1 hheld
  rw [abs_div, abs_of_pos (by positivity : (0 : ℚ) < 10 ^ power),
    div_eq_div_iff (by positivity) (by positivity)] at hvalue
  rw [canHold_iff]
  rcases le_total power scale with hle | hle
  · obtain ⟨places, rfl⟩ := Nat.exists_eq_add_of_le hle
    refine ⟨coefficient, hcoefficient, places, by omega, ?_⟩
    rw [div_eq_iff (by positivity)]
    have hpower : (0 : ℚ) < 10 ^ power := by positivity
    refine mul_right_cancel₀ hpower.ne' ?_
    rw [hvalue]
    ring
  · -- An integer has room if it is within the capacity.
    obtain ⟨zeros, rfl⟩ := Nat.exists_eq_add_of_le hle
    have hinteger : ((coefficient * 10 ^ zeros : ℕ) : ℚ) = |x| := by
      have hscale' : (0 : ℚ) < 10 ^ scale := by positivity
      refine mul_right_cancel₀ hscale'.ne' ?_
      rw [← hvalue]
      push_cast
      ring
    refine ⟨coefficient * 10 ^ zeros, ?_, 0, Nat.zero_le _, ?_⟩
    · rw [← hinteger] at hx
      exact_mod_cast hx
    · rw [pow_zero, div_one, hinteger]

/-- A number that was read and then shifted is the written one exactly if there is room for the
number in front of the exponent and for the shifted one. -/
theorem toRat_of_shift?_iff {exponentNegative : Bool} (hx : |x| < capacity)
    (hbase : CanHold x → base.toRat = x) (h : base.shift? exponentNegative power = some d) :
    let shifted := x * 10 ^ (if exponentNegative then -(power : ℤ) else power)
    d.toRat = shifted ↔ CanHold x ∧ CanHold shifted := by
  intro shifted
  unfold shift? at h
  split at h
  · cases h
  split at h
  · next hnegative =>
    have hshifted : shifted = x / 10 ^ power := by
      simp only [shifted, if_pos hnegative, zpow_neg, zpow_natCast, div_eq_mul_inv]
    rw [hshifted]
    constructor
    · intro hvalue
      have hheld : CanHold (x / 10 ^ power) := ⟨d, hvalue⟩
      exact ⟨canHold_of_shifted hx hheld, hheld⟩
    · rintro ⟨hheld, hshiftedHeld⟩
      rw [← hbase hheld] at hshiftedHeld ⊢
      exact toRat_of_shiftDown? h hshiftedHeld
  · next hpositive =>
    have hshifted : shifted = x * 10 ^ power := by
      simp only [shifted, if_neg hpositive, zpow_natCast]
    rw [hshifted, toRat_of_shiftUp? h]
    constructor
    · intro hvalue
      have hpower : (0 : ℚ) < 10 ^ power := by positivity
      have hexact := mul_right_cancel₀ hpower.ne' hvalue
      exact ⟨⟨base, hexact⟩, d, by rw [toRat_of_shiftUp? h, hvalue]⟩
    · rintro ⟨hheld, -⟩
      rw [hbase hheld]

/-! ### Both kinds of text -/

/-- Without the mark of an exponent the number in front of the exponent is all. -/
theorem written_of_no_mark (h : ∀ c ∈ s, isExponentMark c = false) :
    writtenMantissa s = writtenPlain s ∧ writtenNumber s = writtenPlain s := by
  have htake : s.takeWhile (fun c => !isExponentMark c) = s :=
    List.takeWhile_eq_self_iff.2 fun c hc => by rw [h c hc, Bool.not_false]
  have hdrop : s.dropWhile (fun c => !isExponentMark c) = [] :=
    List.dropWhile_eq_nil_iff.2 fun c hc => by rw [h c hc, Bool.not_false]
  have hmantissa : writtenMantissa s = writtenPlain s := by rw [writtenMantissa, htake]
  have hexponent : writtenExponent s = 0 := by
    rw [writtenExponent, hdrop]
    rfl
  exact ⟨hmantissa, by rw [writtenNumber, hmantissa, hexponent, zpow_zero, mul_one]⟩

/-- The mark of an exponent does not occur in what is read without one. -/
theorem not_mark_of_ofPlainText? (h : ofPlainText? s = some d) :
    ∀ c ∈ s, isExponentMark c = false := by
  obtain ⟨negative, digits, result, hrun, -, -, hchars⟩ := exists_run?_of_ofPlainText? h
  intro c hc
  rw [isExponentMark, Bool.or_eq_false_iff, decide_eq_false_iff_not, decide_eq_false_iff_not]
  constructor
  all_goals
    rintro rfl
    rcases hchars _ hc with hdigits | hsign
    · exact absurd (Reading.mem_of_run? hrun _ hdigits) (by decide)
    · exact absurd hsign (by decide)

/-- The digits of an exponent are read as the number they denote. -/
theorem digitsValue_of_readUnsigned? (h : readUnsigned? digits = some power) :
    digitsValue (digitsOf digits) = power := by
  have hread : ∀ {digits}, readNat? digits = some power →
      digitsValue (digitsOf digits) = power := by
    intro digits hread
    unfold readNat? at hread
    split at hread
    · next hdigits =>
      rw [digitsOf, List.filter_eq_self.2 (List.all_eq_true.1 hdigits.2)]
      exact Option.some.inj hread
    · cases hread
  unfold readUnsigned? at h
  split at h
  · next rest =>
    have hplus : ¬ '+'.isDigit := by decide
    rw [digitsOf_cons_of_not_isDigit hplus]
    exact hread h
  · exact hread h

/-- Behind its mark, an exponent is a sign and digits. -/
theorem writtenExponent_of_dropWhile {mark : Char} {rest : List Char} (hmark : ¬mark.isDigit)
    (hdrop : s.dropWhile (fun c => !isExponentMark c) = mark :: rest) :
    (∀ digits, rest = '-' :: digits → writtenExponent s = -(digitsValue (digitsOf digits) : ℤ)) ∧
      ((∀ digits, rest ≠ '-' :: digits) →
        writtenExponent s = (digitsValue (digitsOf rest) : ℤ)) := by
  constructor
  · rintro digits rfl
    rw [writtenExponent, hdrop]
    rfl
  · intro hminus
    rw [writtenExponent, hdrop]
    split
    · next heq => exact absurd (List.cons.inj heq).2 (hminus _)
    · rw [digitsOf_cons_of_not_isDigit hmark]

/-- A decimal with an exponent is read as the number in front of the exponent, which is shifted. -/
theorem exists_shift?_of_ofScientificText? (h : ofScientificText? s = some d) :
    ∃ base exponentNegative power,
      ofPlainText? (s.takeWhile fun c => !isExponentMark c) = some base ∧
      base.shift? exponentNegative power = some d ∧
      writtenExponent s = if exponentNegative then -(power : ℤ) else power := by
  unfold ofScientificText? at h
  dsimp only at h
  split at h
  · cases h
  · next mark exponent hdrop =>
    have hmark : ¬mark.isDigit := by
      have hhead : mark ∈ (s.dropWhile fun c => !isExponentMark c).head? := by
        simpa [isExponentMark] using congrArg List.head? hdrop
      have hexponent := Text.head?_dropWhile hhead
      rintro hdigit
      rw [Bool.not_eq_false', isExponentMark, Bool.or_eq_true, decide_eq_true_eq,
        decide_eq_true_eq] at hexponent
      rcases hexponent with rfl | rfl <;> exact absurd hdigit (by decide)
    obtain ⟨hnegative, hpositive⟩ := writtenExponent_of_dropWhile hmark hdrop
    split at h
    · next base power hbase hpower =>
      refine ⟨base, _, power, hbase, h, ?_⟩
      rw [← digitsValue_of_readUnsigned? hpower]
      split
      · exact hnegative _ rfl
      · next hminus => exact hpositive fun digits heq => hminus digits heq
    · cases h

/-- A decimal that is read denotes the number that is written exactly if there is room for the number
in front of the exponent and for the number itself. -/
theorem toRat_eq_writtenNumber_iff (h : ofText? s = some d) :
    d.toRat = writtenNumber s ↔ CanHold (writtenMantissa s) ∧ CanHold (writtenNumber s) := by
  unfold ofText? at h
  rcases hplain : ofPlainText? s with _ | e
  · rw [hplain] at h
    obtain ⟨base, exponentNegative, power, hbase, hshift, hexponent⟩ :=
      exists_shift?_of_ofScientificText? h
    obtain ⟨hlt, hexact⟩ := ofPlainText?_exact hbase
    have hiff := toRat_of_shift?_iff hlt hexact hshift
    rwa [← hexponent] at hiff
  · rw [hplain] at h
    obtain rfl : e = d := Option.some.inj h
    obtain ⟨hmantissa, hnumber⟩ := written_of_no_mark (not_mark_of_ofPlainText? hplain)
    rw [hmantissa, hnumber, and_self]
    exact ⟨fun hvalue => ⟨e, hvalue⟩, (ofPlainText?_exact hplain).2⟩

end Decimal

end BoundSql.Numeral
