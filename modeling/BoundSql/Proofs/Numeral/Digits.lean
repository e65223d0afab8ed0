import BoundSql.Numeral.Integer
import Mathlib.Algebra.Order.Group.Nat
import Mathlib.Data.Nat.Digits.Defs
import Mathlib.Tactic.Common

/-!
# Digits

The value of a run of decimal digits, and the runs that have a given value and length.
-/

namespace BoundSql.Numeral


/-- The value of digits is the library's. -/
theorem digitsValue_eq (s : List Char) : digitsValue s = Nat.ofDigitChars 10 s 0 := by
  rw [digitsValue, Nat.ofDigitChars_eq_foldl]
  simp only [mul_comm]

theorem digitsValue_toDigits (n : ℕ) : digitsValue (Nat.toDigits 10 n) = n := by
  rw [digitsValue_eq, Nat.ofDigitChars_ten_toDigits]

/-- Zeros in front do not matter. -/
theorem digitsValue_replicate_append (k : ℕ) (s : List Char) :
    digitsValue (List.replicate k '0' ++ s) = digitsValue s := by
  induction k with
  | zero => rfl
  | succ k ih => rw [List.replicate_succ, List.cons_append, ← ih]; rfl

/-- Zeros behind multiply by ten. -/
theorem digitsValue_append_replicate (s : List Char) (k : ℕ) :
    digitsValue (s ++ List.replicate k '0') = digitsValue s * 10 ^ k := by
  induction k with
  | zero => simp
  | succ k ih =>
    rw [List.replicate_succ', ← List.append_assoc, digitsValue, List.foldl_append, ← digitsValue,
      ih, pow_succ]
    simp [mul_assoc]

/-- How many digits a number has, in terms of its size. -/
theorem pow_length_toDigits {n : ℕ} (hpos : 0 < n) :
    10 ^ ((Nat.toDigits 10 n).length - 1) ≤ n ∧ n < 10 ^ (Nat.toDigits 10 n).length := by
  have hlength : 0 < (Nat.toDigits 10 n).length := Nat.length_toDigits_pos
  refine ⟨?_, (Nat.length_toDigits_le_iff (by decide) hlength).1 le_rfl⟩
  rcases Nat.eq_zero_or_pos ((Nat.toDigits 10 n).length - 1) with hzero | hone
  · rw [hzero]
    exact hpos
  · rw [← not_lt, ← Nat.length_toDigits_le_iff (by decide) hone]
    omega

/-! ### Integers -/

/-- An integer is written as its digits, with a minus sign in front if it is negative. -/
theorem toList_toString (i : ℤ) :
    (toString i).toList = (if i < 0 then ['-'] else []) ++ Nat.toDigits 10 i.natAbs := by
  cases i with
  | ofNat n => simp [toString, Int.repr]
  | negSucc n => simp [toString, Int.repr]

theorem readNat?_toDigits (n : ℕ) : readNat? (Nat.toDigits 10 n) = some n := by
  have hdigits : (Nat.toDigits 10 n).all Char.isDigit := List.all_eq_true.2 fun _ =>
    Nat.isDigit_of_mem_toDigits (by decide) (by decide)
  rw [readNat?, if_pos ⟨Nat.toDigits_ne_nil, hdigits⟩, digitsValue_toDigits]

/-- An integer is read back from its digits. -/
theorem readInt?_toString (i : ℤ) : readInt? (toString i).toList = some i := by
  rw [toList_toString]
  split
  · next hneg =>
    have hvalue : -(i.natAbs : ℤ) = i := by omega
    rw [List.singleton_append, readInt?, readNat?_toDigits]
    exact congrArg some hvalue
  · next hnonneg =>
    -- The first digit is no sign.
    have hsign : ∀ c, c.isDigit = false → ∀ rest, Nat.toDigits 10 i.natAbs ≠ c :: rest := by
      intro c hc rest heq
      have hdigit := Nat.isDigit_of_mem_toDigits (by decide) (by decide)
        (heq ▸ List.mem_cons_self : c ∈ Nat.toDigits 10 i.natAbs)
      rw [hc] at hdigit
      cases hdigit
    rw [List.nil_append, readInt?.eq_2 _ (hsign '-' rfl), readUnsigned?.eq_2 _ (hsign '+' rfl),
      readNat?_toDigits]
    exact congrArg some (Int.natAbs_of_nonneg (not_lt.1 hnonneg))

end BoundSql.Numeral
