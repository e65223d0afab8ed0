import BoundSql.Calendar.TimeOfDay
import BoundSql.Calendar.Date
import BoundSql.Proofs.Numeral.Digits
import BoundSql.Proofs.Text.Blanks
import Mathlib.Data.List.Basic

/-!
# Numbers of dates and times

A number that is written in digits is read back in front of what follows it: as far as a reader
takes digits at all, it takes these and no others. The same holds of the years and of the fractions
of a second that the library writes.

* `Spells.number`: numbers;
* `year_yearText`: years, with a sign and without;
* `fraction_fractionText`: fractions of a second of zero, three, six or nine digits.
-/

namespace BoundSql.Calendar

open Numeral (digitsValue digitsValue_eq pow10)

/-- A number written in `width` digits. -/
structure Spells (s : List Char) (width n : ℕ) : Prop where
  /-- Only digits are written. -/
  isDigit : ∀ c ∈ s, c.isDigit
  /-- There are as many of them as there should be. -/
  length_eq : s.length = width
  /-- They have the value of the number. -/
  value_eq : digitsValue s = n

variable {s rest : List Char} {width least most n : ℕ} {c : Char}

theorem spells_twoDigitText (h : n < 100) : Spells (twoDigitText n) 2 n := by
  have hhigh : n / 10 % 10 < 10 := Nat.mod_lt _ (by decide)
  have hlow : n % 10 < 10 := Nat.mod_lt _ (by decide)
  refine ⟨?_, rfl, ?_⟩
  · simp [twoDigitText, Nat.isDigit_digitChar, hhigh, hlow]
  · rw [digitsValue_eq, twoDigitText, Nat.ofDigitChars_cons_digitChar_of_lt_ten hhigh,
      Nat.ofDigitChars_cons_digitChar_of_lt_ten hlow, Nat.ofDigitChars_nil]
    omega

theorem spells_paddedText (width n : ℕ) :
    Spells (paddedText width n) (max width (Nat.toDigits 10 n).length) n := by
  refine ⟨fun c hc => ?_, ?_, ?_⟩
  · rcases List.mem_append.1 hc with hc | hc
    · obtain rfl := List.eq_of_mem_replicate hc
      decide
    · exact Nat.isDigit_of_mem_toDigits (by decide) (by decide) hc
  · rw [paddedText, List.length_append, List.length_replicate]
    omega
  · rw [paddedText, Numeral.digitsValue_replicate_append, Numeral.digitsValue_toDigits]

/-- A number that fits its width has that width. -/
theorem spells_paddedText_of_lt (hpos : 0 < width) (h : n < 10 ^ width) :
    Spells (paddedText width n) width n := by
  have hlength := (Nat.length_toDigits_le_iff (by decide) hpos).2 h
  have hspells := spells_paddedText width n
  rwa [Nat.max_eq_left hlength] at hspells

namespace Spells

/-- A reader that takes no more digits, or finds no more, reads the number. -/
theorem number (h : Spells s width n) (hleast : least ≤ width) (hmost : width ≤ most)
    (hrest : width = most ∨ ∀ c ∈ rest.head?, c.isDigit = false) :
    number least most (s ++ rest) = some (n, rest) := by
  have htake : ((s ++ rest).takeWhile Char.isDigit).take most = s := by
    -- The reader stops by itself, or it stops at what follows.
    rcases hrest with rfl | hrest
    · rw [List.takeWhile_append_of_pos h.isDigit, List.take_left' h.length_eq]
    · rw [Text.takeWhile_word_append h.isDigit hrest, List.take_of_length_le (h.length_eq ▸ hmost)]
  rw [Calendar.number, htake, if_neg (by rw [h.length_eq]; omega), h.value_eq, List.drop_left]

/-- No blanks stand before a number. -/
theorem trimStart (h : Spells s width n) (hpos : 0 < width) :
    Text.trimStart (s ++ rest) = s ++ rest := by
  refine Text.trimStart_of_head? fun c hc => ?_
  have hne : s ≠ [] := List.ne_nil_of_length_pos (h.length_eq ▸ hpos)
  rw [List.head?_append_of_ne_nil _ hne] at hc
  exact Unicode.isBlank_of_isDigit (h.isDigit c (List.mem_of_head? hc))

/-- A point and digits are read as a fraction of a second. -/
theorem fraction (h : Spells s width n) (hpos : 0 < width) (hwidth : width ≤ 9)
    (hrest : ∀ c ∈ rest.head?, c.isDigit = false) :
    fraction ('.' :: (s ++ rest)) = some (n * pow10 (9 - width), rest) := by
  have hne : s ≠ [] := List.ne_nil_of_length_pos (h.length_eq ▸ hpos)
  have htake : s.take 9 = s := List.take_of_length_le (h.length_eq ▸ hwidth)
  rw [Calendar.fraction, Text.takeWhile_word_append h.isDigit hrest,
    Text.dropWhile_word_append h.isDigit hrest, htake]
  simp only [if_neg hne, h.value_eq, h.length_eq]

end Spells

theorem twoDigits_twoDigitText (h : n < 100) (rest : List Char) :
    twoDigits (twoDigitText n ++ rest) = some (n, rest) := by
  have hspells := spells_twoDigitText h
  rw [twoDigits, hspells.trimStart (by decide), hspells.number (by decide) le_rfl (.inl rfl)]

@[simp]
theorem mark_cons (c : Char) (rest : List Char) : mark c (c :: rest) = some rest :=
  if_pos rfl

theorem spacedMark_cons (h : Unicode.isBlank c = false) (rest : List Char) :
    spacedMark c (c :: rest) = some rest := by
  rw [spacedMark, Text.trimStart_of_head? (by simpa using h), mark_cons]

/-! ### Years -/

/-- A year from 0 to 9999 has four digits. -/
theorem spells_yearText {y : ℤ} (h : 0 ≤ y ∧ y ≤ 9999) : Spells (Date.yearText y) 4 y.toNat := by
  rw [Date.yearText, if_pos h]
  exact spells_paddedText_of_lt (by decide) (by omega)

/-- Any other year has a sign in front of its digits. -/
theorem yearText_of_outside {y : ℤ} (h : ¬(0 ≤ y ∧ y ≤ 9999)) :
    Date.yearText y = (if y < 0 then '-' else '+') :: paddedText 4 y.natAbs :=
  if_neg h

/-- A year is read back, if its digits do not go on. -/
theorem year_yearText (y : ℤ) (hrest : ∀ c ∈ rest.head?, c.isDigit = false) :
    year (Date.yearText y ++ rest) = some (y, rest) := by
  by_cases h : 0 ≤ y ∧ y ≤ 9999
  · have hspells := spells_yearText h
    have hnumber : number 1 4 (Date.yearText y ++ rest) = some (y.toNat, rest) :=
      hspells.number (by decide) le_rfl (.inl rfl)
    rw [year, hspells.trimStart (by decide)]
    -- Its first character is a digit and not a sign.
    obtain ⟨first, digits, htext⟩ := List.exists_cons_of_length_pos
      (hspells.length_eq ▸ (by decide : 0 < 4) : 0 < (Date.yearText y).length)
    have hfirst : first.isDigit := hspells.isDigit first (by simp [htext])
    rw [htext, List.cons_append] at hnumber ⊢
    split
    · next heq => exact absurd (List.cons.inj heq).1 (by rintro rfl; cases hfirst)
    · next heq => exact absurd (List.cons.inj heq).1 (by rintro rfl; cases hfirst)
    · simp only [hnumber, Option.map_some, Int.toNat_of_nonneg h.1]
  · have hspells := spells_paddedText 4 y.natAbs
    have hnumber : number 1 (paddedText 4 y.natAbs ++ rest).length (paddedText 4 y.natAbs ++ rest) =
        some (y.natAbs, rest) :=
      hspells.number (by omega) (by rw [List.length_append, hspells.length_eq]; omega) (.inr hrest)
    have hminus : Unicode.isBlank '-' = false := by decide
    have hplus : Unicode.isBlank '+' = false := by decide
    rw [yearText_of_outside h, List.cons_append, year]
    -- Behind a sign all digits belong to the year.
    split_ifs with hnegative
    all_goals
      rw [Text.trimStart_of_head? (by simp [hminus, hplus])]
      simp only [hnumber, Option.map_some, Option.some.injEq, Prod.mk.injEq, and_true]
      omega

/-! ### Fractions of a second -/

/-- A fraction of a second is read back, if it does not go on. -/
theorem fraction_fractionText (h : n < 1000000000)
    (hrest : ∀ c ∈ rest.head?, c.isDigit = false ∧ c ≠ '.') :
    fraction (TimeOfDay.fractionText n ++ rest) = some (n, rest) := by
  have hdigit : ∀ c ∈ rest.head?, c.isDigit = false := fun c hc => (hrest c hc).1
  rw [TimeOfDay.fractionText]
  split_ifs with hzero hmilli hmicro
  · subst hzero
    rw [List.nil_append]
    cases rest with
    | nil => rfl
    | cons c rest => exact fraction.eq_2 _ fun _ heq => (hrest c rfl).2 (List.cons.inj heq).1
  · have hspells : Spells (paddedText 3 (n / 1000000)) 3 (n / 1000000) :=
      spells_paddedText_of_lt (by decide) (by omega)
    rw [List.cons_append, hspells.fraction (by decide) (by decide) hdigit,
      Nat.div_mul_cancel (Nat.dvd_of_mod_eq_zero hmilli)]
  · have hspells : Spells (paddedText 6 (n / 1000)) 6 (n / 1000) :=
      spells_paddedText_of_lt (by decide) (by omega)
    rw [List.cons_append, hspells.fraction (by decide) (by decide) hdigit,
      Nat.div_mul_cancel (Nat.dvd_of_mod_eq_zero hmicro)]
  · have hspells : Spells (paddedText 9 n) 9 n := spells_paddedText_of_lt (by decide) h
    rw [List.cons_append, hspells.fraction (by decide) le_rfl hdigit, Nat.sub_self]
    exact congrArg (fun n => some (n, rest)) (Nat.mul_one n)

end BoundSql.Calendar
