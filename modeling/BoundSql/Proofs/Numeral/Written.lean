import BoundSql.Numeral.Decimal.Text
import BoundSql.Proofs.Numeral.DecimalValue
import BoundSql.Proofs.Numeral.Digits

/-!
# Written numbers

The number that a text of digits denotes, whatever its length, and what becomes of it when the text
is read into a coefficient of limited capacity. The reader takes digits as long as there is room for
them; from the first one without room on they are rounded away. So a number that a coefficient and a
scale within the limits can stand for is read as it is (`Reading.run?_eq_total`): what such a
number has behind its last place are zeros.

* `writtenNumber`: the number that a text denotes;
* `Reading.total`: the number that a reading denotes together with the text that is still to come.
-/

namespace BoundSql.Numeral

/-- The digits of a text. What stands between them, as a point or an underscore, is passed over. -/
def digitsOf (s : List Char) : List Char := s.filter Char.isDigit

/-- The digits behind the point. -/
def fractionOf (s : List Char) : List Char := digitsOf (s.dropWhile fun c => c ≠ '.')

/-- The number that digits with at most one point denote. -/
def writtenMagnitude (s : List Char) : ℚ :=
  digitsValue (digitsOf s) / 10 ^ (fractionOf s).length

/-- The number that digits behind an optional sign denote. -/
def writtenPlain : List Char → ℚ
  | '-' :: rest => -writtenMagnitude rest
  | s => writtenMagnitude s

/-- Whether an exponent begins. -/
def isExponentMark (c : Char) : Bool := c = 'e' || c = 'E'

/-- The number in front of the exponent. -/
def writtenMantissa (s : List Char) : ℚ := writtenPlain (s.takeWhile fun c => !isExponentMark c)

/-- The exponent, which is zero if there is none. -/
def writtenExponent (s : List Char) : ℤ :=
  match s.dropWhile fun c => !isExponentMark c with
  | _ :: '-' :: rest => -digitsValue (digitsOf rest)
  | rest => digitsValue (digitsOf rest)

/-- The number that a text denotes: an optional sign, digits with at most one point among them, and
an optional exponent. -/
def writtenNumber (s : List Char) : ℚ := writtenMantissa s * 10 ^ writtenExponent s

example : writtenNumber "-1_20.50e-2".toList = -1205 / 1000 := by decide +kernel

/-! ### Digits -/

variable {s : List Char} {c : Char}

theorem digitsOf_cons_of_isDigit (hc : c.isDigit) : digitsOf (c :: s) = c :: digitsOf s :=
  List.filter_cons_of_pos hc

theorem digitsOf_cons_of_not_isDigit (hc : ¬c.isDigit) : digitsOf (c :: s) = digitsOf s :=
  List.filter_cons_of_neg hc

/-- The first digit counts as much as there are digits behind it. -/
theorem digitsValue_cons (c : Char) (s : List Char) :
    digitsValue (c :: s) = (c.toNat - '0'.toNat) * 10 ^ s.length + digitsValue s := by
  rw [digitsValue_eq, digitsValue_eq, Nat.ofDigitChars_cons, Nat.ofDigitChars_eq_ofDigitChars_zero]
  ring

theorem toNat_sub_lt_ten (hc : c.isDigit) : c.toNat - '0'.toNat < 10 := by
  rw [Char.isDigit, Bool.and_eq_true, decide_eq_true_eq, decide_eq_true_eq] at hc
  have hle : c.toNat ≤ '9'.toNat := hc.2
  have hnine : '9'.toNat = 57 := rfl
  have hzero : '0'.toNat = 48 := rfl
  omega

/-- Digits denote less than one more digit would. -/
theorem digitsValue_digitsOf_lt (s : List Char) :
    digitsValue (digitsOf s) < 10 ^ (digitsOf s).length := by
  induction s with
  | nil => decide
  | cons c s ih =>
    by_cases hc : c.isDigit
    · have hdigit := toNat_sub_lt_ten hc
      rw [digitsOf_cons_of_isDigit hc, digitsValue_cons, List.length_cons, pow_succ]
      nlinarith
    · rwa [digitsOf_cons_of_not_isDigit hc]

namespace Decimal.Reading

/-- How many digits stand behind the point in the text that is still to come. -/
def placesIn (r : Reading) (s : List Char) : ℕ :=
  if r.afterPoint then (digitsOf s).length else (fractionOf s).length

/-- The number that has been read together with the text that is still to come. -/
def total (r : Reading) (s : List Char) : ℚ :=
  (r.coefficient * 10 ^ (digitsOf s).length + digitsValue (digitsOf s)) /
    10 ^ (r.scale + r.placesIn s)

/-- What holds of a reading at every place of a text. -/
structure Valid (r : Reading) : Prop where
  /-- The coefficient is within the capacity. -/
  coefficient_lt : r.coefficient < capacity
  /-- Places are counted from the point on. -/
  scale_eq_zero : r.afterPoint = false → r.scale = 0

variable {r : Reading} {coefficient scale digit : ℕ}

theorem valid_start : Valid {} := ⟨by decide, fun _ => rfl⟩

theorem total_start (s : List Char) : total {} s = writtenMagnitude s := by
  simp [total, placesIn, writtenMagnitude]

/-- At the end of the text the number has been read. -/
theorem total_nil (r : Reading) : r.total [] = r.coefficient / 10 ^ r.scale := by
  have hplaces : r.placesIn [] = 0 := by
    unfold placesIn
    split <;> rfl
  simp [total, hplaces, digitsOf, digitsValue]

/-- A digit that is taken was still to come before. -/
theorem total_push (hr : r.Valid) (hc : c.isDigit) (s : List Char) :
    (r.push (c.toNat - '0'.toNat)).total s = r.total (c :: s) := by
  have hpoint : c ≠ '.' := by
    rintro rfl
    exact absurd hc (by decide)
  have hplaces : (r.push (c.toNat - '0'.toNat)).scale +
      (r.push (c.toNat - '0'.toNat)).placesIn s = r.scale + r.placesIn (c :: s) := by
    unfold push placesIn
    dsimp only
    cases hafter : r.afterPoint with
    | true =>
      simp only [if_true, digitsOf_cons_of_isDigit hc, List.length_cons]
      omega
    | false => simp [hr.scale_eq_zero hafter, fractionOf, hpoint]
  unfold total
  rw [hplaces, digitsOf_cons_of_isDigit hc, digitsValue_cons, List.length_cons]
  congr 1
  unfold push
  push_cast
  ring

theorem valid_push (h : r.hasRoom digit) : (r.push digit).Valid := by
  unfold hasRoom at h
  rw [Bool.and_eq_true, decide_eq_true_eq] at h
  exact ⟨h.2, fun hafter => if_neg (by simpa [push] using hafter)⟩

/-- The point only says where the places begin. -/
theorem total_point (hafter : r.afterPoint = false) (s : List Char) :
    total { r with afterPoint := true } s = r.total ('.' :: s) := by
  have hdigit : ¬ '.'.isDigit := by decide
  simp [total, placesIn, hafter, fractionOf, digitsOf_cons_of_not_isDigit hdigit]

/-- An underscore does not count. -/
theorem total_underscore (r : Reading) (s : List Char) : r.total ('_' :: s) = r.total s := by
  have hdigit : ¬ '_'.isDigit := by decide
  simp [total, placesIn, fractionOf, digitsOf_cons_of_not_isDigit hdigit]

/-! ### Rounding -/

/-- Behind the point, what has been read and what is to come are less than one unit of the last
place apart. -/
theorem total_lt (hafter : r.afterPoint) (s : List Char) :
    r.total s < (r.coefficient + 1) / 10 ^ r.scale := by
  have hlt : (digitsValue (digitsOf s) : ℚ) < 10 ^ (digitsOf s).length :=
    mod_cast digitsValue_digitsOf_lt s
  unfold total placesIn
  rw [if_pos hafter, pow_add, ← div_div, div_lt_iff₀ (by positivity), div_mul_eq_mul_div,
    div_lt_div_iff_of_pos_right (by positivity)]
  linarith

/-- A number with no more places than have been read has only zeros to come. -/
theorem total_eq_of_scale_le (hafter : r.afterPoint)
    (hnumber : (coefficient / 10 ^ scale : ℚ) = r.total s) (hscale : scale ≤ r.scale) :
    digitsValue (digitsOf s) = 0 := by
  have hlt := digitsValue_digitsOf_lt s
  unfold total placesIn at hnumber
  rw [if_pos hafter, div_eq_div_iff (by positivity) (by positivity)] at hnumber
  obtain ⟨places, hplaces⟩ := Nat.exists_eq_add_of_le hscale
  have hsplit : coefficient * 10 ^ places * 10 ^ (digitsOf s).length * 10 ^ scale =
      (r.coefficient * 10 ^ (digitsOf s).length + digitsValue (digitsOf s)) * 10 ^ scale := by
    rw [← (by exact_mod_cast hnumber : coefficient * 10 ^ (r.scale + (digitsOf s).length) =
      (r.coefficient * 10 ^ (digitsOf s).length + digitsValue (digitsOf s)) * 10 ^ scale), hplaces]
    ring
  -- Without the common places, what is to come is a multiple of more than it.
  have hvalue := Nat.eq_of_mul_eq_mul_right (Nat.pow_pos (by decide)) hsplit
  have hdvd : 10 ^ (digitsOf s).length ∣ digitsValue (digitsOf s) :=
    (Nat.dvd_add_right (Dvd.intro_left _ rfl)).1 (hvalue ▸ Dvd.intro_left _ rfl)
  exact Nat.eq_zero_of_dvd_of_lt hdvd hlt

/-- What has been read behind the point is no more than what it is the beginning of. -/
theorem le_total (hafter : r.afterPoint) (s : List Char) :
    r.coefficient / 10 ^ r.scale ≤ r.total s := by
  unfold total placesIn
  rw [if_pos hafter, pow_add, ← div_div, le_div_iff₀ (by positivity), div_mul_eq_mul_div,
    div_le_div_iff_of_pos_right (by positivity)]
  have hnonneg : (0 : ℚ) ≤ digitsValue (digitsOf s) := Nat.cast_nonneg _
  linarith

/-- A number for which there is room has no more places than have been read when a digit finds no
room. -/
theorem scale_le_of_not_hasRoom (hr : r.Valid) (hafter : r.afterPoint) (hc : c.isDigit)
    (hroom : ¬r.hasRoom (c.toNat - '0'.toNat)) (hcoefficient : coefficient < capacity)
    (hscale : scale ≤ maxScale) (hnumber : (coefficient / 10 ^ scale : ℚ) = r.total (c :: s)) :
    scale ≤ r.scale := by
  by_contra hlt
  -- The scale is not full, so that it is the coefficient that has no room.
  have hfull : capacity ≤ r.coefficient * 10 + (c.toNat - '0'.toNat) := by
    have hplace : ¬maxScale ≤ r.scale := by omega
    simpa [hasRoom, hafter, hplace] using hroom
  have hscale' : (r.push (c.toNat - '0'.toNat)).scale = r.scale + 1 := if_pos hafter
  have hle := le_total (r := r.push (c.toNat - '0'.toNat)) hafter s
  rw [total_push hr hc, ← hnumber, hscale'] at hle
  have hpush : (capacity : ℚ) ≤ (r.push (c.toNat - '0'.toNat)).coefficient := mod_cast hfull
  have hshort : (coefficient : ℚ) / 10 ^ scale < capacity / 10 ^ (r.scale + 1) := by
    have hpow : (10 : ℚ) ^ (r.scale + 1) ≤ 10 ^ scale :=
      pow_le_pow_right₀ (by norm_num) (by omega)
    calc (coefficient : ℚ) / 10 ^ scale ≤ coefficient / 10 ^ (r.scale + 1) := by gcongr
      _ < capacity / 10 ^ (r.scale + 1) := by gcongr
  have hlong : (capacity : ℚ) / 10 ^ (r.scale + 1) ≤
      (r.push (c.toNat - '0'.toNat)).coefficient / 10 ^ (r.scale + 1) := by gcongr
  linarith

/-- What has been read is the number if only zeros are to come. -/
theorem total_of_zeros (hafter : r.afterPoint) (hzeros : digitsValue (digitsOf s) = 0) :
    r.total s = r.coefficient / 10 ^ r.scale := by
  unfold total placesIn
  rw [if_pos hafter, hzeros, Nat.cast_zero, add_zero, pow_add, mul_div_mul_right]
  positivity

/-- A number for which there is room has been read when the reading is cut off, and the digit at
which it is cut off is zero. -/
theorem total_eq_of_not_hasRoom (hr : r.Valid) (hafter : r.afterPoint) (hc : c.isDigit)
    (hroom : ¬r.hasRoom (c.toNat - '0'.toNat)) (hfits : Fits (r.total (c :: s))) :
    c.toNat - '0'.toNat = 0 ∧ r.total (c :: s) = r.coefficient / 10 ^ r.scale := by
  obtain ⟨coefficient, hcoefficient, scale, hscale, hnumber⟩ := hfits
  have hzeros := total_eq_of_scale_le hafter hnumber
    (scale_le_of_not_hasRoom hr hafter hc hroom hcoefficient hscale hnumber)
  refine ⟨?_, total_of_zeros hafter hzeros⟩
  rw [digitsOf_cons_of_isDigit hc, digitsValue_cons] at hzeros
  have hpos : 0 < 10 ^ (digitsOf s).length := Nat.pow_pos (by decide)
  exact (Nat.mul_eq_zero.1 (Nat.add_eq_zero_iff.1 hzeros).1).resolve_right hpos.ne'

/-- A number whose reading goes on behind the point is within the capacity. -/
theorem total_lt_capacity (hr : r.Valid) (hafter : r.afterPoint) (s : List Char) :
    r.total s < capacity := by
  have hroom : (r.coefficient : ℚ) + 1 ≤ capacity := mod_cast hr.coefficient_lt
  have hpow : (1 : ℚ) ≤ 10 ^ r.scale := one_le_pow₀ (by norm_num)
  calc r.total s < (r.coefficient + 1) / 10 ^ r.scale := total_lt hafter s
    _ ≤ r.coefficient + 1 := div_le_self (by positivity) hpow
    _ ≤ capacity := hroom

/-- A number that is read is within the capacity, and it is read as it is if there is room for it:
what is rounded away of it are zeros. -/
theorem run?_eq_total {result : ℕ × ℕ} (hr : r.Valid) (h : r.run? s = some result) :
    r.total s < capacity ∧
      (Fits (r.total s) → (result.1 / 10 ^ result.2 : ℚ) = r.total s) := by
  fun_induction run? r s with
  | case1 r hsome =>
    obtain rfl := Option.some.inj h
    have hlt : (r.coefficient : ℚ) < capacity := mod_cast hr.coefficient_lt
    have hpow : (1 : ℚ) ≤ 10 ^ r.scale := one_le_pow₀ (by norm_num)
    rw [total_nil]
    exact ⟨(div_le_self (by positivity) hpow).trans_lt hlt, fun _ => rfl⟩
  | case3 r c rest hc digit hroom ih =>
    rw [← total_push hr hc]
    exact ih (valid_push hroom) h
  | case4 r c rest hc digit hroom hrest =>
    have hafter : r.afterPoint := (Bool.and_eq_true_iff.1 hrest).1
    refine ⟨total_lt_capacity hr hafter _, fun hfits => ?_⟩
    obtain ⟨hzero, hvalue⟩ := total_eq_of_not_hasRoom hr hafter hc hroom hfits
    -- A zero rounds down.
    have hround : r.roundAt? digit = some (r.coefficient, r.scale) := if_pos (by omega)
    obtain rfl := Option.some.inj (hround.symm.trans h)
    exact hvalue.symm
  | case6 r c rest hc hpoint ih =>
    rw [Bool.and_eq_true, decide_eq_true_eq, Bool.not_eq_true'] at hpoint
    obtain ⟨rfl, hafter⟩ := hpoint
    rw [← total_point hafter]
    exact ih ⟨hr.coefficient_lt, fun hfalse => Bool.noConfusion hfalse⟩ h
  | case7 r c rest hc hpoint hunderscore hgoes ih =>
    rw [Bool.and_eq_true, decide_eq_true_eq] at hunderscore
    rw [hunderscore.1, total_underscore]
    exact ih hr h
  | case8 r c rest hc hpoint hunderscore hends hrest =>
    obtain rfl := Option.some.inj h
    rw [Bool.and_eq_true, decide_eq_true_eq] at hunderscore
    have hfull : (r.afterPoint = true ∧ maxScale ≤ r.scale) ∧
        r.coefficient / 10 < shortCapacity := by
      simpa [endsAtUnderscore] using hends
    obtain ⟨⟨hafter, hscale⟩, -⟩ := hfull
    rw [hunderscore.1, total_underscore]
    refine ⟨total_lt_capacity hr hafter _, fun hfits => ?_⟩
    obtain ⟨coefficient, -, scale, hle, hnumber⟩ := hfits
    exact (total_of_zeros hafter (total_eq_of_scale_le hafter hnumber (hle.trans hscale))).symm
  | _ => cases h

/-- Only digits, points and underscores are read. -/
theorem mem_of_run? {result : ℕ × ℕ} (h : r.run? s = some result) :
    ∀ c ∈ s, c.isDigit ∨ c = '.' ∨ c = '_' := by
  have hidle : ∀ rest : List Char, rest.all isIdle → ∀ c ∈ rest, c.isDigit ∨ c = '.' ∨ c = '_' := by
    intro rest hrest c hc
    have hidle := List.all_eq_true.1 hrest c hc
    rw [isIdle, Bool.or_eq_true, decide_eq_true_eq] at hidle
    exact hidle.imp id .inr
  fun_induction run? r s with
  | case1 => simp
  | case3 r c rest hc digit hroom ih =>
    exact List.forall_mem_cons.2 ⟨.inl hc, ih h⟩
  | case4 r c rest hc digit hroom hrest =>
    exact List.forall_mem_cons.2 ⟨.inl hc, hidle rest (Bool.and_eq_true_iff.1 hrest).2⟩
  | case6 r c rest hc hpoint ih =>
    rw [Bool.and_eq_true, decide_eq_true_eq] at hpoint
    exact List.forall_mem_cons.2 ⟨.inr (.inl hpoint.1), ih h⟩
  | case7 r c rest hc hpoint hunderscore hgoes ih =>
    rw [Bool.and_eq_true, decide_eq_true_eq] at hunderscore
    exact List.forall_mem_cons.2 ⟨.inr (.inr hunderscore.1), ih h⟩
  | case8 r c rest hc hpoint hunderscore hends hrest =>
    rw [Bool.and_eq_true, decide_eq_true_eq] at hunderscore
    exact List.forall_mem_cons.2 ⟨.inr (.inr hunderscore.1), hidle rest hrest⟩
  | _ => cases h

end Decimal.Reading

end BoundSql.Numeral
