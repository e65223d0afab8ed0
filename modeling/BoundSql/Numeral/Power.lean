/-!
# Powers of two and ten

The two bases in which the library counts places.
-/

namespace BoundSql.Numeral

/-- Two to the power `n`. -/
abbrev pow2 (n : Nat) : Nat := Nat.pow 2 n

/-- Ten to the power `n`. -/
abbrev pow10 (n : Nat) : Nat := Nat.pow 10 n

end BoundSql.Numeral
