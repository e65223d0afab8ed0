/-!
# Sets of code points

A set of code points is written as a list of closed ranges. Membership asks whether some range
holds the code point, so no order of the ranges is needed for correctness.
-/

namespace BoundSql.Unicode

/-- Whether `code` lies in one of the closed ranges. -/
def inRanges (ranges : List (Nat × Nat)) (code : Nat) : Bool :=
  ranges.any fun range => range.1 ≤ code && code ≤ range.2

end BoundSql.Unicode
