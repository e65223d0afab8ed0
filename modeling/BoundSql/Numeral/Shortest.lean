import BoundSql.Numeral.Binary
import BoundSql.Numeral.Power

/-!
# Shortest decimals

Among the decimals that read back as a given binary magnitude, the one with the fewest digits, and
of those the nearest to the magnitude. The reals that read back form an interval around the
magnitude; on each decimal grid, from coarse to fine, only the magnitude's two neighbours have to be
tried, because an interval that holds a point of the grid holds one of them.
-/

namespace BoundSql.Numeral

/-- Where a tie between two equally near decimals goes. -/
inductive TieRule where
  /-- To the greater decimal. -/
  | up
  /-- To the decimal whose last digit is even. -/
  | toEven
  deriving DecidableEq, Repr

/-- The magnitude `middle` and the ends of the interval of reals that round to it, all counted in
units of `num / den`. -/
structure RoundingInterval where
  /-- Lower end. -/
  low : Nat
  /-- The magnitude itself. -/
  middle : Nat
  /-- Upper end. -/
  high : Nat
  /-- Whether the ends belong to the interval. -/
  closed : Bool
  /-- Numerator of the unit. -/
  num : Nat
  /-- Denominator of the unit. -/
  den : Nat

namespace RoundingInterval

/-- The interval of `significand * 2 ^ exponent` in the format `f`, in quarters of the unit in the
last place. The gap below a power of two is half the gap above it. -/
def around (f : BinaryFormat) (significand : Nat) (exponent : Int) : RoundingInterval :=
  let narrow := significand = pow2 f.fractionBits ∧ f.leastExponent < exponent
  let (num, den) := scaleByTwo 1 1 (exponent - 2)
  { low := if narrow then 4 * significand - 1 else 4 * significand - 2
    middle := 4 * significand
    high := 4 * significand + 2
    closed := significand % 2 = 0
    num := num
    den := den }

/-- Whether `point * 10 ^ place` lies in the interval. -/
def holds (r : RoundingInterval) (point : Nat) (place : Int) : Bool :=
  let left := point * pow10 place.toNat * r.den
  let unit := r.num * pow10 (-place).toNat
  if r.closed then r.low * unit ≤ left && left ≤ r.high * unit
  else r.low * unit < left && left < r.high * unit

/-- The point of the grid of multiples of `10 ^ place` that stands for the interval, if the interval
holds one. -/
def pointOn? (r : RoundingInterval) (tie : TieRule) (place : Int) : Option Nat :=
  let value := r.middle * r.num * pow10 (-place).toNat
  let grid := r.den * pow10 place.toNat
  let below := value / grid
  let twice := 2 * (value % grid)
  let preferBelow : Bool :=
    if twice = grid then tie = .toEven && below % 2 = 0 else twice < grid
  match r.holds below place, r.holds (below + 1) place with
  | true, true => some (if preferBelow then below else below + 1)
  | true, false => some below
  | false, true => some (below + 1)
  | false, false => none

/-- Try grids from `10 ^ place` on, each ten times as fine as the one before. -/
def search (r : RoundingInterval) (tie : TieRule) : Nat → Int → Nat × Int
  | 0, place => (r.middle * r.num / r.den, place)
  | fuel + 1, place =>
    match r.pointOn? tie place with
    | some point => (point, place)
    | none => r.search tie fuel (place - 1)

end RoundingInterval

/-- The shortest decimal `(d, p)`, meaning `d * 10 ^ p`, of a positive magnitude. The search starts
on a grid coarser than the magnitude and has found a point seventeen digits later. -/
def shortestDecimal (f : BinaryFormat) (tie : TieRule) (significand : Nat) (exponent : Int) :
    Nat × Int :=
  let interval := RoundingInterval.around f significand exponent
  let bits : Int := significand.log2 + 1 + exponent
  -- `0.30103` is a little more than the decimal logarithm of two.
  interval.search tie 24 (Int.fdiv (bits * 30103) 100000 + 1)

/-- A decimal written out without an exponent: an integer if `place` is not negative. -/
def positional (digits : Nat) (place : Int) : List Char :=
  let text := Nat.toDigits 10 digits
  if 0 ≤ place then text ++ List.replicate place.toNat '0'
  else
    let fraction := (-place).toNat
    let padded := List.replicate (fraction + 1 - text.length) '0' ++ text
    padded.take (padded.length - fraction) ++ '.' :: padded.drop (padded.length - fraction)

end BoundSql.Numeral
