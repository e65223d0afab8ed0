import BoundSql.Proofs.Sql.Sound
import Mathlib.Computability.Language

/-!
# The text of decimal numbers

A decimal number as a database reads it: an optional sign, digits with an optional point and an
optional power of ten (`decimalText`). Between its two signs there is always a digit, so that no
comment begins in such a text (`isPlainNumber_of_mem_decimalText`).
-/

namespace BoundSql.Numeral

open Language
open Sql (IsPlainNumber isNumberChar)

/-- At least one digit. -/
def digits : Language Char := {s | s ≠ [] ∧ ∀ c ∈ s, c.isDigit}

/-- A sign, or none. -/
def sign : Language Char := {[], ['+'], ['-']}

/-- Digits with or without a point, on one side of which they may be missing. -/
def mantissa : Language Char := digits * (1 + {['.']} * (1 + digits)) + {['.']} * digits

/-- A power of ten. -/
def exponent : Language Char := {['e'], ['E']} * sign * digits

/-- The text of a decimal number. -/
def decimalText : Language Char := sign * mantissa * (1 + exponent)

variable {s whole fraction : List Char}

theorem mem_mantissa_of_digits (h : s ∈ digits) : s ∈ mantissa := by
  have hall : s ++ [] ∈ digits * (1 + {['.']} * (1 + digits)) :=
    append_mem_mul h (Or.inl nil_mem_one)
  rw [List.append_nil] at hall
  exact Or.inl hall

/-- Digits on one side of a point are enough. -/
theorem mem_mantissa_of_point (hwhole : ∀ c ∈ whole, c.isDigit)
    (hfraction : ∀ c ∈ fraction, c.isDigit) (hne : whole ≠ [] ∨ fraction ≠ []) :
    whole ++ '.' :: fraction ∈ mantissa := by
  by_cases hw : whole = []
  · have hf : fraction ∈ digits := ⟨hne.resolve_left (not_not.2 hw), hfraction⟩
    have hpoint : ['.'] ++ fraction ∈ ({['.']} * digits : Language Char) := append_mem_mul rfl hf
    rw [hw]
    exact Or.inr hpoint
  · have hpoint : ['.'] ++ fraction ∈ ({['.']} * (1 + digits) : Language Char) := by
      refine append_mem_mul rfl ?_
      by_cases hf : fraction = []
      · exact Or.inl hf
      · exact Or.inr ⟨hf, hfraction⟩
    exact Or.inl (append_mem_mul ⟨hw, hwhole⟩ (Or.inr hpoint))

theorem isDigit_or_point_of_mem_mantissa (h : s ∈ mantissa) :
    s ≠ [] ∧ ∀ c ∈ s, c.isDigit ∨ c = '.' := by
  rcases h with h | h
  · obtain ⟨whole, ⟨hne, hwhole⟩, rest, hrest, rfl⟩ := mem_mul.1 h
    refine ⟨by simp [hne], fun c hc => ?_⟩
    rcases List.mem_append.1 hc with hc | hc
    · exact Or.inl (hwhole c hc)
    rcases hrest with rfl | hrest
    · cases hc
    · obtain ⟨_, rfl, fraction, hfraction, rfl⟩ := mem_mul.1 hrest
      rcases List.mem_cons.1 hc with rfl | hc
      · exact Or.inr rfl
      rcases hfraction with rfl | hfraction
      · cases hc
      · exact Or.inl (hfraction.2 c hc)
  · obtain ⟨_, rfl, fraction, hfraction, rfl⟩ := mem_mul.1 h
    refine ⟨by simp, fun c hc => ?_⟩
    rcases List.mem_cons.1 hc with rfl | hc
    · exact Or.inr rfl
    · exact Or.inl (hfraction.2 c hc)

/-- No two minus signs touch. -/
abbrev DashesApart (s : List Char) : Prop := s.IsChain fun a b => ¬(a = '-' ∧ b = '-')

/-- Characters without a minus sign can be put before others. -/
theorem DashesApart.append {a b : List Char} (ha : '-' ∉ a) (hb : DashesApart b) :
    DashesApart (a ++ b) := by
  induction a with
  | nil => exact hb
  | cons c a ih =>
    simp only [List.mem_cons, not_or] at ha
    exact List.isChain_cons.2 ⟨fun d _ h => ha.1 h.1.symm, ih ha.2⟩

/-- A sign can be put before characters that do not begin with a minus sign. -/
theorem DashesApart.sign_append {a b : List Char} (ha : a ∈ sign) (hb : DashesApart b)
    (hhead : b.head? ≠ some '-') : DashesApart (a ++ b) := by
  rcases ha with rfl | rfl | rfl
  · exact hb
  · exact DashesApart.append (by decide) hb
  · refine List.isChain_cons.2 ⟨?_, hb⟩
    rintro d hd ⟨-, rfl⟩
    exact hhead hd

theorem isNumberChar_of_isDigit {c : Char} (h : c.isDigit) : isNumberChar c := by
  simp [isNumberChar, h]

theorem isNumberChar_of_mem_sign (h : s ∈ sign) : ∀ c ∈ s, isNumberChar c := by
  rcases h with rfl | rfl | rfl <;> exact List.all_eq_true.1 (by decide)

/-- Behind its letter a power of ten has one minus sign at most. -/
theorem isNumberChar_of_mem_exponent (h : s ∈ exponent) :
    (∀ c ∈ s, isNumberChar c) ∧ DashesApart s := by
  obtain ⟨head, hhead, power, ⟨-, hpower⟩, rfl⟩ := mem_mul.1 h
  obtain ⟨letter, hletter, sgn, hsgn, rfl⟩ := mem_mul.1 hhead
  have hdash : '-' ∉ power := fun hmem => absurd (hpower '-' hmem) (by decide)
  have hletter' : '-' ∉ letter ∧ ∀ c ∈ letter, isNumberChar c := by
    rcases hletter with rfl | rfl <;>
      exact ⟨by decide, List.all_eq_true.1 (by decide)⟩
  constructor
  · intro c hc
    rcases List.mem_append.1 hc with hc | hc
    · rcases List.mem_append.1 hc with hc | hc
      · exact hletter'.2 c hc
      · exact isNumberChar_of_mem_sign hsgn c hc
    · exact isNumberChar_of_isDigit (hpower c hc)
  · have hrest : DashesApart power := by
      simpa using DashesApart.append hdash List.isChain_nil
    rw [List.append_assoc]
    refine DashesApart.append hletter'.1 (DashesApart.sign_append hsgn hrest fun h => ?_)
    exact hdash (List.mem_of_head? h)

/-- A decimal number is made of the characters of numbers, and no two minus signs touch in it. -/
theorem isPlainNumber_of_mem_decimalText (h : s ∈ decimalText) : IsPlainNumber s := by
  obtain ⟨head, hhead, power, hpower, rfl⟩ := mem_mul.1 h
  obtain ⟨sgn, hsgn, size, hsize, rfl⟩ := mem_mul.1 hhead
  obtain ⟨hne, hchars⟩ := isDigit_or_point_of_mem_mantissa hsize
  have hpower' : (∀ c ∈ power, isNumberChar c) ∧ DashesApart power := by
    rcases hpower with rfl | hpower
    · exact ⟨by simp, List.isChain_nil⟩
    · exact isNumberChar_of_mem_exponent hpower
  have hdash : '-' ∉ size := fun hmem => by
    rcases hchars '-' hmem with h | h
    · exact absurd h (by decide)
    · exact absurd h (by decide)
  -- Digits stand between the two signs.
  have hhead : (size ++ power).head? ≠ some '-' := by
    rw [List.head?_append_of_ne_nil _ hne]
    exact fun h => hdash (List.mem_of_head? h)
  refine ⟨by simp [hne], fun c hc => ?_, ?_⟩
  · rcases List.mem_append.1 hc with hc | hc
    · rcases List.mem_append.1 hc with hc | hc
      · exact isNumberChar_of_mem_sign hsgn c hc
      · rcases hchars c hc with hc | rfl
        · exact isNumberChar_of_isDigit hc
        · decide
    · exact hpower'.1 c hc
  · rw [List.append_assoc]
    exact DashesApart.sign_append hsgn (DashesApart.append hdash hpower'.2) hhead

end BoundSql.Numeral
