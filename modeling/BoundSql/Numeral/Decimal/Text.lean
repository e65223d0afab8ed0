import BoundSql.Numeral.Decimal.Basic
import BoundSql.Numeral.Integer
import BoundSql.Numeral.Power

/-!
# Reading decimals

A decimal is written as an optional sign, digits with at most one point, and underscores behind
digits. Digits are taken while the coefficient has room and the scale is below 28; the first digit
behind the point that finds no room rounds the coefficient, half up, and the digits after it count
no more. A digit before the point that finds no room is an error. Underscores are passed over, but
one that follows the last place of a short coefficient ends the reading like a digit that rounds
down.

A text that is no such decimal may still be one followed by an exponent between -28 and 28. An
exponent that brings the scale above 28 rounds half up to that scale; one that uses up the scale
leaves an integer.
-/

namespace BoundSql.Numeral.Decimal

/-- Coefficients from here on are not short. -/
def shortCapacity : Nat := 1844674407370954906

/-- What has been read so far. -/
structure Reading where
  /-- The digits as an integer. -/
  coefficient : Nat := 0
  /-- How many digits stood behind the point. -/
  scale : Nat := 0
  /-- Whether the point has been seen. -/
  afterPoint : Bool := false
  /-- Whether any digit has been seen. -/
  hasDigit : Bool := false

namespace Reading

/-- Round at a digit for which there is no room. A coefficient that rounding makes too great loses
its last digit, if that stands behind the point. -/
def roundAt? (r : Reading) (digit : Nat) : Option (Nat × Nat) :=
  if digit < 5 then some (r.coefficient, r.scale)
  else if r.coefficient + 1 < capacity then some (r.coefficient + 1, r.scale)
  else if r.scale = 0 then none
  else some ((r.coefficient + 5) / 10, r.scale - 1)

/-- Whether there is room for one more digit. -/
def hasRoom (r : Reading) (digit : Nat) : Bool :=
  !(r.afterPoint && maxScale ≤ r.scale) && r.coefficient * 10 + digit < capacity

/-- Whether an underscore ends the reading: the scale is full, and the coefficient was short enough
for 64 bits and one more digit before its last one came. -/
def endsAtUnderscore (r : Reading) : Bool :=
  r.afterPoint && maxScale ≤ r.scale && r.coefficient / 10 < shortCapacity

/-- Take one digit, which has room. -/
def push (r : Reading) (digit : Nat) : Reading :=
  { r with
    coefficient := r.coefficient * 10 + digit
    scale := if r.afterPoint then r.scale + 1 else 0
    hasDigit := true }

/-- Whether a character can follow the digit that rounds. -/
def isIdle (c : Char) : Bool := c.isDigit || c = '_'

/-- Read the rest of an unsigned decimal: the coefficient and the scale. -/
def run? (r : Reading) : List Char → Option (Nat × Nat)
  | [] => if r.hasDigit then some (r.coefficient, r.scale) else none
  | c :: rest =>
    if c.isDigit then
      let digit := c.toNat - '0'.toNat
      if r.hasRoom digit then (r.push digit).run? rest
      else if r.afterPoint && rest.all isIdle then r.roundAt? digit
      else none
    else if c = '.' && !r.afterPoint then run? { r with afterPoint := true } rest
    else if c = '_' && r.hasDigit then
      if !r.endsAtUnderscore then r.run? rest
      else if rest.all isIdle then some (r.coefficient, r.scale)
      else none
    else none

end Reading

/-- Read a decimal without exponent. -/
def ofPlainText? (s : List Char) : Option Decimal :=
  let (negative, digits) := match s with
    | '-' :: rest => (true, rest)
    | '+' :: rest => (false, rest)
    | s => (false, s)
  match Reading.run? {} digits with
  | some (coefficient, scale) => ofParts? negative coefficient scale
  | none => none

/-- Divide by a power of ten. The digits beyond the greatest scale go; the sign stays even if they
all do. -/
def shiftDown? (d : Decimal) (power : Nat) : Option Decimal :=
  let scale := d.scale + power
  let coefficient := divNearestUp d.coefficient (pow10 (scale - maxScale))
  ofSignedParts? d.negative coefficient (min scale maxScale)

/-- Multiply by a power of ten. -/
def shiftUp? (d : Decimal) (power : Nat) : Option Decimal :=
  ofParts? d.negative (d.coefficient * pow10 (power - d.scale)) (d.scale - power)

/-- Apply a decimal exponent. -/
def shift? (d : Decimal) (exponentNegative : Bool) (power : Nat) : Option Decimal :=
  if maxScale < power then none
  else if exponentNegative then d.shiftDown? power
  else d.shiftUp? power

/-- Read a decimal with an exponent. -/
def ofScientificText? (s : List Char) : Option Decimal :=
  let isMark (c : Char) : Bool := c = 'e' || c = 'E'
  match s.dropWhile (fun c => !isMark c) with
  | [] => none
  | _ :: exponent =>
    -- The digits of the exponent may have a plus sign, also behind a minus sign.
    let (exponentNegative, digits) := match exponent with
      | '-' :: rest => (true, rest)
      | rest => (false, rest)
    match ofPlainText? (s.takeWhile fun c => !isMark c), readUnsigned? digits with
    | some base, some power => base.shift? exponentNegative power
    | _, _ => none

/-- Read a decimal. -/
def ofText? (s : List Char) : Option Decimal := ofPlainText? s <|> ofScientificText? s

end BoundSql.Numeral.Decimal
