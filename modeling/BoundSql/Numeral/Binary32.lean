import BoundSql.Numeral.Binary64

/-!
# Single-precision numbers

Single precision is met in two places: in columns of that width, and as a width that a caller's
number has before it is widened. Widening is exact.
-/

namespace BoundSql.Numeral

/-- A single-precision number. -/
structure Binary32 where
  /-- The bit pattern: sign, exponent, fraction. -/
  bits : UInt32
  deriving DecidableEq, Inhabited

namespace Binary32

/-- The number with the given sign and pattern of its magnitude. -/
def ofMagnitude (negative : Bool) (pattern : Nat) : Binary32 :=
  ⟨.ofNat (pattern + if negative then BinaryFormat.single.signBit else 0)⟩

/-- The number nearest to an integer. -/
def ofInt (i : Int) : Binary32 :=
  ofMagnitude (i < 0) (BinaryFormat.single.nearest i.natAbs 1)

/-- Read the text of a number. -/
def ofText? (s : List Char) : Option Binary32 :=
  (FloatReading.ofText? s).map fun r =>
    ofMagnitude r.negative (r.size.pattern BinaryFormat.single)

/-- The same number in double precision. -/
def widen (x : Binary32) : Binary64 :=
  match BinaryFormat.single.decode x.bits.toNat with
  | .finite negative significand exponent =>
    let (num, den) := scaleByTwo significand 1 exponent
    .nearest negative num den
  | .infinite negative => .ofMagnitude negative BinaryFormat.double.infinity
  | .nan => .ofMagnitude false BinaryFormat.double.quietNaN

end Binary32

end BoundSql.Numeral
