import BoundSql.Numeral.Power

/-!
# Decimal integers

Reading an optional sign and one or more ASCII digits, and the ranges of the fixed-width integer
types that a column can have.
-/

namespace BoundSql.Numeral

/-- The number that a run of ASCII digits denotes, most significant digit first. -/
def digitsValue (digits : List Char) : Nat :=
  digits.foldl (fun total c => total * 10 + (c.toNat - '0'.toNat)) 0

/-- Read one or more ASCII digits and nothing else. -/
def readNat? (s : List Char) : Option Nat :=
  if s ≠ [] ∧ s.all Char.isDigit then some (digitsValue s) else none

/-- Read an optional plus sign and one or more ASCII digits. -/
def readUnsigned? : List Char → Option Nat
  | '+' :: rest => readNat? rest
  | s => readNat? s

/-- Read an optional sign and one or more ASCII digits. -/
def readInt? : List Char → Option Int
  | '-' :: rest => (readNat? rest).map fun n => -(n : Int)
  | s => (readUnsigned? s).map Int.ofNat

/-- A range of integers, both ends included. -/
structure IntRange where
  /-- The least member. -/
  least : Int
  /-- The greatest member. -/
  greatest : Int

namespace IntRange

/-- Whether `i` lies in the range. -/
def contains (range : IntRange) (i : Int) : Bool := range.least ≤ i && i ≤ range.greatest

/-- The range of two's complement integers of `bits` bits. -/
def signed (bits : Nat) : IntRange := ⟨-pow2 (bits - 1), pow2 (bits - 1) - 1⟩

/-- The range of unsigned integers of `bits` bits. -/
def unsigned (bits : Nat) : IntRange := ⟨0, pow2 bits - 1⟩

/-- Keep `i` if it lies in the range. -/
def restrict? (range : IntRange) (i : Int) : Option Int :=
  if range.contains i then some i else none

end IntRange

end BoundSql.Numeral
