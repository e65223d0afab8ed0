import BoundSql.Numeral.Decimal.Basic
import BoundSql.Proofs.Filter.LimitNumber
import BoundSql.Proofs.Numeral.Digits
import BoundSql.Proofs.Numeral.Shortest
import BoundSql.Proofs.Text.Runs

/-!
# Numbers written and read

The texts of numbers are read as double-precision numbers again. What is written out without an
exponent is read as the decimal it shows (`readDecimal?_positional`); the text of a finite
double-precision number is read as that number (`Binary64.ofText?_toText`), and the texts of the
integers and decimals that values can hold are read as finite numbers.
-/

namespace BoundSql.Numeral

/-! ### Reading a decimal -/

namespace FloatReading

variable {s whole fraction : List Char}

/-- Digits alone are read as an integer. -/
theorem readDecimal?_digits (hs : ∀ c ∈ s, c.isDigit) (hne : s ≠ []) :
    readDecimal? s = some (.decimal (digitsValue s) 0) := by
  have htake : s.takeWhile Char.isDigit = s := List.takeWhile_eq_self_iff.2 hs
  have hdrop : s.dropWhile Char.isDigit = [] := List.dropWhile_eq_nil_iff.2 hs
  simp [readDecimal?, htake, hdrop, hne, readExponent?]

/-- Digits with a point among them are read with as many places as stand behind the point. -/
theorem readDecimal?_point (hwhole : ∀ c ∈ whole, c.isDigit) (hfraction : ∀ c ∈ fraction, c.isDigit)
    (hne : whole ≠ []) :
    readDecimal? (whole ++ '.' :: fraction) =
      some (.decimal (digitsValue (whole ++ fraction)) (-fraction.length)) := by
  have hpoint : ∀ c ∈ ('.' :: fraction).head?, c.isDigit = false := by
    rintro _ ⟨⟩
    decide
  have htake : fraction.takeWhile Char.isDigit = fraction := List.takeWhile_eq_self_iff.2 hfraction
  have hdrop : fraction.dropWhile Char.isDigit = [] := List.dropWhile_eq_nil_iff.2 hfraction
  simp [readDecimal?, Text.takeWhile_word_append hwhole hpoint,
    Text.dropWhile_word_append hwhole hpoint, htake, hdrop, hne, readExponent?]

end FloatReading

/-- What is written out without an exponent is read as the decimal it shows. -/
theorem readDecimal?_positional (digits : ℕ) (place : ℤ) :
    ∃ (d : ℕ) (e : ℤ), FloatReading.readDecimal? (positional digits place) = some (.decimal d e) ∧
      (d * 10 ^ e : ℚ) = digits * 10 ^ place := by
  have hdigits : ∀ c ∈ Nat.toDigits 10 digits, c.isDigit := fun c hc =>
    Nat.isDigit_of_mem_toDigits (by decide) (by decide) hc
  have hzeros : ∀ k, ∀ c ∈ List.replicate k '0', c.isDigit := by
    intro k c hc
    obtain rfl := List.eq_of_mem_replicate hc
    decide
  rw [positional]
  split
  · next hplace =>
    have hall : ∀ c ∈ Nat.toDigits 10 digits ++ List.replicate place.toNat '0', c.isDigit :=
      fun c hc => (List.mem_append.1 hc).elim (hdigits c) (hzeros _ c)
    have hread := FloatReading.readDecimal?_digits hall (by simp [Nat.toDigits_ne_nil])
    rw [digitsValue_append_replicate, digitsValue_toDigits] at hread
    refine ⟨_, _, hread, ?_⟩
    rw [zpow_zero, mul_one, Nat.cast_mul, Nat.cast_pow, ← zpow_natCast, Int.toNat_of_nonneg hplace]
    rfl
  · next hplace =>
    -- The text is padded so that a digit is left in front of the point.
    dsimp only
    generalize hpadded :
      List.replicate ((-place).toNat + 1 - (Nat.toDigits 10 digits).length) '0' ++
        Nat.toDigits 10 digits = padded
    have hall : ∀ c ∈ padded, c.isDigit := fun c hc =>
      (List.mem_append.1 (hpadded ▸ hc)).elim (hzeros _ c) (hdigits c)
    have hvalue : digitsValue padded = digits := by
      rw [← hpadded, digitsValue_replicate_append, digitsValue_toDigits]
    have hlength : (-place).toNat < padded.length := by
      rw [← hpadded, List.length_append, List.length_replicate]
      omega
    have hread := FloatReading.readDecimal?_point
      (fun c hc => hall c (List.mem_of_mem_take (i := padded.length - (-place).toNat) hc))
      (fun c hc => hall c (List.mem_of_mem_drop (i := padded.length - (-place).toNat) hc))
      (by rw [Ne, ← List.length_eq_zero_iff, List.length_take]; omega)
    rw [List.take_append_drop, hvalue, List.length_drop] at hread
    refine ⟨_, _, hread, ?_⟩
    congr 2
    omega

/-! ### Reading the text of a number -/

/-- What is written out without an exponent, with or without a minus sign, is read with its sign. -/
theorem FloatReading.ofText?_positional (negative : Bool) (digits : ℕ) (place : ℤ) :
    ∃ (d : ℕ) (e : ℤ),
      ofText? ((if negative then ['-'] else []) ++ positional digits place) =
        some ⟨negative, .decimal d e⟩ ∧ (d * 10 ^ e : ℚ) = digits * 10 ^ place := by
  obtain ⟨d, e, hread, hvalue⟩ := readDecimal?_positional digits place
  have hsize : readSize? (positional digits place) = some (.decimal d e) := by
    rw [readSize?, hread]
    rfl
  refine ⟨d, e, ?_, hvalue⟩
  obtain ⟨hne, hchars⟩ := isDigit_or_point_of_mem_mantissa (positional_mem_mantissa digits place)
  have hplain : ∀ c, ¬c.isDigit → c ≠ '.' → ∀ rest, positional digits place ≠ c :: rest :=
    fun c hdigit hpoint rest heq => (hchars c (by rw [heq]; simp)).elim hdigit hpoint
  cases negative with
  | true => simp [ofText?, hsize]
  | false =>
    rw [if_neg (by decide), List.nil_append, ofText?.eq_3 _ (hplain '-' (by decide) (by decide))
      (hplain '+' (by decide) (by decide)), hsize, Option.map_some]

/-! ### Reading near a magnitude -/

/-- A decimal lies between two powers of ten that its number of digits tells. -/
theorem decimal_bounds {d : ℕ} (e : ℤ) (hpos : 0 < d) :
    (10 : ℚ) ^ ((Nat.toDigits 10 d).length + e - 1) ≤ d * 10 ^ e ∧
      (d * 10 ^ e : ℚ) < 10 ^ ((Nat.toDigits 10 d).length + e) := by
  have hten : (0 : ℚ) < 10 ^ e := zpow_pos (by norm_num) e
  have hlength : 0 < (Nat.toDigits 10 d).length := Nat.length_toDigits_pos
  obtain ⟨hle, hlt⟩ := pow_length_toDigits hpos
  generalize (Nat.toDigits 10 d).length = length at *
  constructor
  · have hsplit : (length + e - 1 : ℤ) = (length - 1 : ℕ) + e := by omega
    rw [hsplit, zpow_add₀ (by norm_num), zpow_natCast]
    gcongr
    exact_mod_cast hle
  · rw [zpow_add₀ (by norm_num), zpow_natCast]
    gcongr
    exact_mod_cast hlt

/-- A decimal that is not beyond double precision has not too many digits in front of the point. -/
theorem length_le_of_lt {d : ℕ} {e : ℤ} (hpos : 0 < d)
    (hhigh : (d * 10 ^ e : ℚ) < 2 ^ (1025 : ℤ)) :
    ¬((pow2 (BinaryFormat.double.exponentBits - 1) : ℕ) : ℤ) <
      ((Nat.toDigits 10 d).length : ℤ) + e := by
  have hgreatest : ((pow2 (BinaryFormat.double.exponentBits - 1) : ℕ) : ℤ) = 1024 := by decide
  rw [hgreatest]
  intro hlt
  have hpow : (2 : ℚ) ^ (1025 : ℤ) ≤ 10 ^ ((Nat.toDigits 10 d).length + e - 1) := by
    calc (2 : ℚ) ^ (1025 : ℤ) ≤ 2 ^ (3 * 1024 : ℤ) := zpow_le_zpow_right₀ one_le_two (by decide)
      _ = (2 ^ 3) ^ (1024 : ℤ) := by rw [zpow_mul]; rfl
      _ ≤ 10 ^ (1024 : ℤ) := zpow_le_zpow_left₀ (by decide) (by norm_num) (by norm_num)
      _ ≤ 10 ^ ((Nat.toDigits 10 d).length + e - 1) :=
        zpow_le_zpow_right₀ (by norm_num) (by omega)
  linarith [(decimal_bounds e hpos).1]

/-- A decimal that is neither too small nor too great is rounded as the fraction it is. -/
theorem nearestDecimal_eq_nearest {d : ℕ} {e : ℤ} (hpos : 0 < d)
    (hlow : (2 : ℚ) ^ (-1075 : ℤ) ≤ d * 10 ^ e) (hhigh : (d * 10 ^ e : ℚ) < 2 ^ (1025 : ℤ)) :
    BinaryFormat.double.nearestDecimal d e =
      BinaryFormat.double.nearest (d * pow10 e.toNat) (pow10 (-e).toNat) := by
  have hleast : BinaryFormat.double.leastExponent = -1074 := by decide
  have hsmall : ¬(d = 0 ∨
      ((Nat.toDigits 10 d).length + e : ℤ) ≤ BinaryFormat.double.leastExponent - 1) := by
    rw [hleast]
    rintro (hzero | hle)
    · omega
    · have hpow : (10 : ℚ) ^ ((Nat.toDigits 10 d).length + e) ≤ 2 ^ (-1075 : ℤ) :=
        ten_zpow_le_two_zpow (Or.inr ⟨by omega, by omega⟩)
      linarith [(decimal_bounds e hpos).2]
  rw [BinaryFormat.nearestDecimal]
  simp only [if_neg hsmall, if_neg (length_le_of_lt hpos hhigh)]

/-- The fraction of a decimal is its value. -/
theorem cast_decimal_div (d : ℕ) (e : ℤ) :
    ((d * pow10 e.toNat : ℕ) : ℚ) / (pow10 (-e).toNat : ℕ) = d * 10 ^ e := by
  rw [zpow_ten_eq_div, Nat.cast_mul, mul_div_assoc]

/-- A decimal in the interval around a magnitude is rounded to that magnitude. -/
theorem nearestDecimal_eq_pattern {significand d : ℕ} {exponent e : ℤ}
    (h : BinaryFormat.double.Magnitude significand exponent) (hpos : 0 < significand)
    (hv : (RoundingInterval.around .double significand exponent).Contains (d * 10 ^ e)) :
    BinaryFormat.double.nearestDecimal d e = BinaryFormat.double.pattern significand exponent := by
  obtain ⟨hleast, hgreatest, hwidth⟩ := h.bounds
  obtain ⟨hlow, hhigh⟩ := hv.bounds hpos
  have hpow : (0 : ℚ) < 2 ^ exponent := zpow_pos two_pos exponent
  have hone : (1 : ℚ) ≤ significand := mod_cast hpos
  have hwidth' : (significand : ℚ) + 1 ≤ 2 ^ 53 := mod_cast hwidth
  have hlow' : (2 : ℚ) ^ (-1075 : ℤ) ≤ d * 10 ^ e := by
    calc (2 : ℚ) ^ (-1075 : ℤ) ≤ 2 ^ (exponent - 1) := zpow_le_zpow_right₀ one_le_two (by omega)
      _ = 1 / 2 * 2 ^ exponent := by rw [zpow_sub_one₀ two_ne_zero]; ring
      _ ≤ (significand - 1 / 2) * 2 ^ exponent :=
        mul_le_mul_of_nonneg_right (by linarith) hpow.le
      _ ≤ d * 10 ^ e := hlow
  have hhigh' : (d * 10 ^ e : ℚ) < 2 ^ (1025 : ℤ) := by
    calc (d * 10 ^ e : ℚ) ≤ (significand + 1 / 2) * 2 ^ exponent := hhigh
      _ < 2 ^ 53 * 2 ^ exponent := mul_lt_mul_of_pos_right (by linarith) hpow
      _ = 2 ^ (53 + exponent) := by rw [zpow_add₀ two_ne_zero]; rfl
      _ ≤ 2 ^ (1025 : ℤ) := zpow_le_zpow_right₀ one_le_two (by omega)
  have hd : 0 < d := by
    rw [Nat.pos_iff_ne_zero]
    rintro rfl
    rw [Nat.cast_zero, zero_mul] at hlow'
    exact absurd hlow' (not_le.2 (zpow_pos two_pos _))
  rw [nearestDecimal_eq_nearest hd hlow' hhigh']
  refine h.nearest_eq_of_contains hpos (Nat.pow_pos (by decide)) ?_
  rwa [cast_decimal_div]

namespace Binary64

variable {x : Binary64} {negative : Bool} {significand : ℕ} {exponent : ℤ}

/-- A finite number is the one with its sign and the pattern of its magnitude. -/
theorem eq_ofMagnitude (h : x.datum = .finite negative significand exponent) :
    BinaryFormat.double.Magnitude significand exponent ∧
      x = ofMagnitude negative (BinaryFormat.double.pattern significand exponent) := by
  have hsign : BinaryFormat.double.signBit = 9223372036854775808 := by decide
  have hinfinity : BinaryFormat.double.infinity = 9218868437227405312 := by decide
  have hwidth : pow2 BinaryFormat.double.fractionBits = 4503599627370496 := by decide
  have hleast : BinaryFormat.double.leastExponent = -1074 := by decide
  have hbits := x.bits.toNat_lt
  have hofNat : UInt64.ofNat x.bits.toNat = x.bits := UInt64.ofNat_toNat
  rw [datum, BinaryFormat.decode] at h
  simp only [hsign, hinfinity, hwidth, hleast] at h
  generalize x.bits.toNat = bits at h hbits hofNat
  have hpattern : BinaryFormat.double.pattern significand exponent =
      (exponent + 1074).toNat * 4503599627370496 + significand := by
    rw [BinaryFormat.pattern, hwidth, hleast, sub_neg_eq_add]
  -- The two forms of a finite number are read off their fields.
  have hparts : negative = decide (bits / 9223372036854775808 % 2 = 1) ∧
      -1074 ≤ exponent ∧ significand < 9007199254740992 ∧
      (exponent = -1074 ∨ 4503599627370496 ≤ significand) ∧
      bits % 9223372036854775808 < 9218868437227405312 ∧
      (exponent + 1074).toNat * 4503599627370496 + significand = bits % 9223372036854775808 := by
    split at h
    · cases h
    · split at h
      · cases h
      · split at h
        · obtain ⟨rfl, rfl, rfl⟩ := BinaryDatum.finite.inj h
          refine ⟨rfl, by omega, by omega, Or.inl rfl, by omega, by omega⟩
        · obtain ⟨rfl, rfl, rfl⟩ := BinaryDatum.finite.inj h
          refine ⟨rfl, by omega, by omega, Or.inr (by omega), by omega, by omega⟩
  obtain ⟨rfl, hlow, hhigh, hnormal, hfinite, hsum⟩ := hparts
  rw [← hpattern] at hsum
  constructor
  · exact ⟨hleast ▸ hlow, hhigh, hleast ▸ hnormal, hinfinity ▸ hsum ▸ hfinite⟩
  · have hall : (bits % 9223372036854775808 +
        if decide (bits / 9223372036854775808 % 2 = 1) then 9223372036854775808 else 0) = bits := by
      split
      · next hnegative =>
        have hodd := of_decide_eq_true hnegative
        omega
      · next hpositive =>
        have heven := of_decide_eq_false (Bool.eq_false_iff.2 hpositive)
        omega
    rw [ofMagnitude, hsum, hsign, hall, hofNat]

/-- A number with a pattern below that of the infinite magnitude is finite. -/
theorem isFinite_ofMagnitude {pattern : ℕ} (h : pattern < BinaryFormat.double.infinity) :
    (ofMagnitude negative pattern).isFinite := by
  have hsign : BinaryFormat.double.signBit = 9223372036854775808 := by decide
  have hinfinity : BinaryFormat.double.infinity = 9218868437227405312 := by decide
  have hmagnitude : (ofMagnitude negative pattern).bits.toNat % BinaryFormat.double.signBit =
      pattern := by
    rw [ofMagnitude, UInt64.toNat_ofNat', hsign]
    rw [hinfinity] at h
    split <;> omega
  rw [isFinite, datum, BinaryFormat.decode]
  by_cases hzero : pattern / pow2 BinaryFormat.double.fractionBits = 0
  · simp only [hmagnitude, if_neg (not_lt.2 h.le), if_neg h.ne, if_pos hzero]
  · simp only [hmagnitude, if_neg (not_lt.2 h.le), if_neg h.ne, if_neg hzero]

/-- The text of a finite number is read as that number. -/
theorem ofText?_toText (h : x.isFinite) : ofText? x.toText.toList = some x := by
  rw [isFinite] at h
  split at h
  case h_2 => cases h
  next negative significand exponent hx =>
  obtain ⟨hmagnitude, heq⟩ := eq_ofMagnitude hx
  rw [toText, hx]
  simp only [String.toList_ofList]
  generalize hdecimal : (if significand = 0 then ((0 : ℕ), (0 : ℤ)) else
    shortestDecimal .double .up significand exponent) = decimal
  obtain ⟨digits, place⟩ := decimal
  obtain ⟨d, e, hread, hvalue⟩ := FloatReading.ofText?_positional negative digits place
  rw [ofText?, hread, Option.map_some, ofReading, FloatSize.pattern, heq]
  congr 2
  split at hdecimal
  · next hzero =>
    obtain ⟨rfl, rfl⟩ := Prod.mk.inj hdecimal
    subst hzero
    rw [Nat.cast_zero, zero_mul, mul_eq_zero, Nat.cast_eq_zero] at hvalue
    obtain rfl := hvalue.resolve_right (zpow_ne_zero _ (by norm_num))
    have hleast := hmagnitude.normal.resolve_right (by decide)
    rw [BinaryFormat.nearestDecimal, if_pos (Or.inl rfl), BinaryFormat.pattern, hleast, sub_self,
      Int.toNat_zero, zero_mul]
  · next hne =>
    have hpos := Nat.pos_of_ne_zero hne
    have hcontains := contains_shortestDecimal .up hmagnitude hpos
    rw [hdecimal, ← hvalue] at hcontains
    exact nearestDecimal_eq_pattern hmagnitude hpos hcontains

end Binary64

/-! ### Numbers far below the greatest -/

/-- A decimal below a great power of two is rounded to a finite number. -/
theorem nearestDecimal_lt_infinity {d : ℕ} {e : ℤ} (h : (d * 10 ^ e : ℚ) < 2 ^ (1022 : ℤ)) :
    BinaryFormat.double.nearestDecimal d e < BinaryFormat.double.infinity := by
  have hinfinity : BinaryFormat.double.infinity = 9218868437227405312 := by decide
  rw [hinfinity, BinaryFormat.nearestDecimal]
  split
  · decide
  · next hsmall =>
    have hpos : 0 < d := Nat.pos_of_ne_zero fun hzero => hsmall (Or.inl hzero)
    have hhigh : (d * 10 ^ e : ℚ) < 2 ^ (1025 : ℤ) :=
      lt_trans h (zpow_lt_zpow_right₀ one_lt_two (by decide))
    rw [if_neg (length_le_of_lt hpos hhigh)]
    have hnum : 0 < d * pow10 e.toNat := Nat.mul_pos hpos (Nat.pow_pos (by decide))
    have hden : 0 < pow10 (-e).toNat := Nat.pow_pos (by decide)
    have hlog : Int.log 2 (((d * pow10 e.toNat : ℕ) : ℚ) / (pow10 (-e).toNat : ℕ)) < 1022 := by
      rw [cast_decimal_div]
      have hvalue : (0 : ℚ) < d * 10 ^ e := mul_pos (mod_cast hpos) (zpow_pos (by norm_num) e)
      exact log_lt_of_lt hvalue h
    have hle := BinaryFormat.double.nearest_le hnum hden
    have hunit := BinaryFormat.double.unitExponent_eq hnum hden
    have hleast : BinaryFormat.double.leastExponent = -1074 := by decide
    have hwidth : BinaryFormat.double.fractionBits = 52 := rfl
    rw [hleast, hwidth] at hle hunit
    omega

/-- What is written out without an exponent is read as a finite number unless it is great. -/
theorem Binary64.exists_ofText?_positional (negative : Bool) {digits : ℕ} {place : ℤ}
    (h : (digits * 10 ^ place : ℚ) < 2 ^ (1022 : ℤ)) :
    ∃ x, ofText? ((if negative then ['-'] else []) ++ positional digits place) = some x ∧
      x.isFinite := by
  obtain ⟨d, e, hread, hvalue⟩ := FloatReading.ofText?_positional negative digits place
  rw [← hvalue] at h
  refine ⟨ofReading ⟨negative, .decimal d e⟩, ?_, ?_⟩
  · rw [ofText?, hread, Option.map_some]
  · exact isFinite_ofMagnitude (nearestDecimal_lt_infinity h)

/-- The text of a decimal is read as a finite number. -/
theorem Decimal.exists_ofText?_toText (d : Decimal) :
    ∃ x, Binary64.ofText? d.toText.toList = some x ∧ x.isFinite := by
  rw [toText, String.toList_ofList]
  refine Binary64.exists_ofText?_positional d.negative ?_
  have hcoefficient : (d.coefficient : ℚ) < 2 ^ (96 : ℤ) := by
    have hlt := d.coefficient_lt
    rw [show capacity = 2 ^ 96 by decide] at hlt
    exact_mod_cast hlt
  have hscale : (10 : ℚ) ^ (-(d.scale : ℤ)) ≤ 1 :=
    zpow_le_one_of_nonpos₀ (by norm_num) (by omega)
  calc (d.coefficient * 10 ^ (-(d.scale : ℤ)) : ℚ) ≤ d.coefficient * 1 := by gcongr
    _ = d.coefficient := mul_one _
    _ < 2 ^ (96 : ℤ) := hcoefficient
    _ ≤ 2 ^ (1022 : ℤ) := zpow_le_zpow_right₀ one_le_two (by decide)

/-- The text of an integer that is not too great is read as a finite number. -/
theorem exists_ofText?_toString {i : ℤ} (h : i.natAbs < 2 ^ 64) :
    ∃ x, Binary64.ofText? (toString i).toList = some x ∧ x.isFinite := by
  have htext : (toString i).toList =
      (if decide (i < 0) then ['-'] else []) ++ positional i.natAbs 0 := by
    rw [toList_toString]
    simp [positional]
  rw [htext]
  refine Binary64.exists_ofText?_positional _ ?_
  rw [zpow_zero, mul_one]
  calc (i.natAbs : ℚ) < 2 ^ (64 : ℤ) := mod_cast h
    _ ≤ 2 ^ (1022 : ℤ) := zpow_le_zpow_right₀ one_le_two (by decide)

end BoundSql.Numeral
