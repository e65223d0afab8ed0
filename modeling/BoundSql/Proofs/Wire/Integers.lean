import BoundSql.Numeral.Integer
import BoundSql.Wire.Decode
import Mathlib.Tactic.Ring

/-!
# Integers as bytes, both ways

A natural number and the bytes that stand for it determine each other as long as the number is not
too great for its bytes, and so do an integer and its bytes in two's complement.

* `natOf_natBytes` and `natBytes_natOf`: natural numbers;
* `intOf_intBytes` and `intBytes_intOf`: integers with a sign;
* `takeNat?_natBytes`: a number is read back in front of other bytes.
-/

namespace BoundSql.Wire

open Numeral (IntRange pow2)

variable {width n : ℕ} {i : ℤ} {bytes rest : List UInt8}

theorem pow2_pos (n : ℕ) : 0 < pow2 n := Nat.two_pow_pos n

/-- One more byte. -/
theorem pow2_succ_byte (width : ℕ) : pow2 (8 * (width + 1)) = pow2 (8 * width) * 256 :=
  Nat.pow_add 2 (8 * width) 8

/-- The number that bytes stand for fits them. -/
theorem natOf_lt (bytes : List UInt8) : natOf bytes < pow2 (8 * bytes.length) := by
  induction bytes with
  | nil => exact Nat.one_pos
  | cons b bytes ih =>
    rw [natOf, List.length_cons, pow2_succ_byte]
    have hb : b.toNat + 1 ≤ 256 := b.toNat_lt
    calc b.toNat * pow2 (8 * bytes.length) + natOf bytes
        < b.toNat * pow2 (8 * bytes.length) + pow2 (8 * bytes.length) := by omega
      _ = pow2 (8 * bytes.length) * (b.toNat + 1) := by ring
      _ ≤ pow2 (8 * bytes.length) * 256 := Nat.mul_le_mul_left _ hb

/-- The lowest bytes of a number do not show what stands above them. -/
theorem natBytes_add_mul (width k n : ℕ) :
    natBytes width (n + pow2 (8 * width) * k) = natBytes width n := by
  induction width generalizing k with
  | zero => rfl
  | succ width ih =>
    have hsplit : n + pow2 (8 * (width + 1)) * k = n + pow2 (8 * width) * (256 * k) := by
      rw [pow2_succ_byte, Nat.mul_assoc]
    rw [natBytes, natBytes, hsplit, ih, Nat.add_mul_div_left _ _ (pow2_pos _)]
    congr 1
    rw [UInt8.ofNat_eq_iff_mod_eq_toNat, UInt8.toNat_ofNat', Nat.add_mul_mod_self_left]

/-- The bytes of a number that bytes stand for are these bytes. -/
theorem natBytes_natOf (bytes : List UInt8) : natBytes bytes.length (natOf bytes) = bytes := by
  induction bytes with
  | nil => rfl
  | cons b bytes ih =>
    have hrest := natOf_lt bytes
    rw [List.length_cons, natBytes, natOf, Nat.mul_comm, Nat.mul_add_div (pow2_pos _),
      Nat.div_eq_of_lt hrest, Nat.add_zero, UInt8.ofNat_toNat, Nat.add_comm, natBytes_add_mul, ih]

/-- A number is read back in front of other bytes. -/
theorem takeNat?_natBytes (h : n < pow2 (8 * width)) (rest : List UInt8) :
    takeNat? width (natBytes width n ++ rest) = some (n, rest) := by
  have hlength := length_natBytes width n
  rw [takeNat?, if_pos (by simp), List.take_left' hlength, List.drop_left' hlength, natOf_natBytes,
    Nat.mod_eq_of_lt h]

/-! ### Integers with a sign -/

/-- Half of the numbers of a width are negative. -/
theorem pow2_eq_two_mul (h : 0 < n) : pow2 n = 2 * pow2 (n - 1) := by
  obtain ⟨n, rfl⟩ := Nat.exists_eq_add_of_le' h
  exact Nat.pow_succ'

theorem signed_contains_iff :
    (IntRange.signed n).contains i ↔ -(pow2 (n - 1) : ℕ) ≤ i ∧ i < (pow2 (n - 1) : ℕ) := by
  rw [IntRange.contains, Bool.and_eq_true, decide_eq_true_eq, decide_eq_true_eq]
  exact and_congr_right fun _ => Int.le_sub_one_iff

theorem unsigned_contains_iff :
    (IntRange.unsigned n).contains i ↔ 0 ≤ i ∧ i < (pow2 n : ℕ) := by
  rw [IntRange.contains, Bool.and_eq_true, decide_eq_true_eq, decide_eq_true_eq]
  exact and_congr_right fun _ => Int.le_sub_one_iff

@[simp]
theorem length_intBytes (width : ℕ) (i : ℤ) : (intBytes width i).length = width :=
  length_natBytes width _

/-- The bytes of an integer stand for the integer as far as they hold it. -/
theorem natOf_intBytes (width : ℕ) (i : ℤ) :
    (natOf (intBytes width i) : ℤ) = i % (pow2 (8 * width) : ℕ) := by
  have hpos : (0 : ℤ) < (pow2 (8 * width) : ℕ) := mod_cast Nat.two_pow_pos _
  have hnonneg := Int.emod_nonneg i hpos.ne'
  have hlt := Int.emod_lt_of_pos i hpos
  rw [intBytes, natOf_natBytes, Nat.mod_eq_of_lt (by omega), Int.toNat_of_nonneg hnonneg]

/-- An integer of a signed type is read back. -/
theorem intOf_intBytes (hwidth : 0 < width) (h : (IntRange.signed (8 * width)).contains i) :
    intOf (intBytes width i) = i := by
  have htwice : pow2 (8 * width) = 2 * pow2 (8 * width - 1) := pow2_eq_two_mul (by omega)
  rw [signed_contains_iff] at h
  rw [intOf, natOf_intBytes, length_intBytes, Int.emod_bmod]
  exact Int.bmod_eq_of_le_mul_two (by omega) (by omega)

/-- An integer of an unsigned type is read back. -/
theorem natOf_intBytes_of_unsigned (h : (IntRange.unsigned (8 * width)).contains i) :
    (natOf (intBytes width i) : ℤ) = i := by
  rw [unsigned_contains_iff] at h
  rw [natOf_intBytes, Int.emod_eq_of_lt h.1 h.2]

/-- The bytes of an integer that bytes stand for are these bytes. -/
theorem intBytes_intOf (bytes : List UInt8) : intBytes bytes.length (intOf bytes) = bytes := by
  have hlt : (natOf bytes : ℤ) < (pow2 (8 * bytes.length) : ℕ) := mod_cast natOf_lt bytes
  rw [intBytes, intOf, Int.bmod_emod, Int.emod_eq_of_lt (by omega) hlt, Int.toNat_natCast,
    natBytes_natOf]

/-- Bytes of another number are not read. -/
theorem readInt?_eq_some_iff : readInt? width bytes = some i ↔
    bytes.length = width ∧ intOf bytes = i := by
  rw [readInt?, exactly?]
  split <;> simp_all

end BoundSql.Wire
