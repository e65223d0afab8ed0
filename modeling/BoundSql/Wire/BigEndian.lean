import BoundSql.Numeral.Power

/-!
# Big-endian integers

Integers as a fixed number of bytes, most significant byte first, with two's complement for signed
ones. Writing and reading back keeps an integer that fits, which `natOf_natBytes` says for natural
numbers.
-/

namespace BoundSql.Wire

open Numeral (pow2)

/-- The lowest `width` bytes of a natural number. -/
def natBytes : Nat → Nat → List UInt8
  | 0, _ => []
  | width + 1, n => .ofNat (n / pow2 (8 * width)) :: natBytes width n

/-- The natural number that bytes stand for. -/
def natOf : List UInt8 → Nat
  | [] => 0
  | b :: rest => b.toNat * pow2 (8 * rest.length) + natOf rest

/-- The lowest `width` bytes of an integer in two's complement. -/
def intBytes (width : Nat) (i : Int) : List UInt8 :=
  natBytes width (i % (pow2 (8 * width) : Nat)).toNat

/-- The integer that bytes stand for in two's complement. -/
def intOf (bytes : List UInt8) : Int := (natOf bytes : Int).bmod (pow2 (8 * bytes.length))

/-- Read a natural number of `width` bytes; the rest follows. -/
def takeNat? (width : Nat) (bytes : List UInt8) : Option (Nat × List UInt8) :=
  if width ≤ bytes.length then some (natOf (bytes.take width), bytes.drop width) else none

/-- An integer has as many bytes as were asked for. -/
@[simp]
theorem length_natBytes (width n : Nat) : (natBytes width n).length = width := by
  induction width with
  | zero => rfl
  | succ width ih => simp [natBytes, ih]

/-- Bytes are read back as the number, as far as they hold it. -/
theorem natOf_natBytes (width n : Nat) : natOf (natBytes width n) = n % pow2 (8 * width) := by
  induction width with
  | zero => simp [natBytes, natOf, Nat.mod_one]
  | succ width ih =>
    have h : pow2 (8 * (width + 1)) = pow2 (8 * width) * 256 := Nat.pow_add 2 (8 * width) 8
    rw [h, Nat.mod_mul]
    simp only [natBytes, natOf, length_natBytes, UInt8.toNat_ofNat', ih]
    rw [Nat.mul_comm]
    exact Nat.add_comm _ _

end BoundSql.Wire
