import BoundSql.Numeral.Binary
import BoundSql.Numeral.Integer

/-!
# The text of a floating-point number

The grammar is an optional sign followed by one of the words `inf`, `infinity` and `nan` in any
case, or by digits with an optional point (at least one digit in all) and an optional exponent.
Nothing may precede or follow. A reading keeps the exact decimal; rounding to a format is a second
step.
-/

namespace BoundSql.Numeral

/-- The size of a number as it was written. -/
inductive FloatSize where
  /-- The number `digits * 10 ^ exponent`. -/
  | decimal (digits : Nat) (exponent : Int)
  /-- Infinity. -/
  | infinite
  /-- Not a number. -/
  | nan
  deriving DecidableEq, Repr

/-- A number as it was written. -/
structure FloatReading where
  /-- Whether a minus sign was written. -/
  negative : Bool
  /-- The rest. -/
  size : FloatSize
  deriving DecidableEq, Repr

/-- The pattern of the nearest magnitude of a format. -/
def FloatSize.pattern (f : BinaryFormat) : FloatSize → Nat
  | .decimal digits exponent => f.nearestDecimal digits exponent
  | .infinite => f.infinity
  | .nan => f.quietNaN

namespace FloatReading

/-- Read an optional exponent that ends the text. -/
def readExponent? : List Char → Option Int
  | [] => some 0
  | c :: rest => if c = 'e' || c = 'E' then readInt? rest else none

/-- Read a number without sign that starts with a digit or a point. -/
def readDecimal? (s : List Char) : Option FloatSize :=
  let whole := s.takeWhile Char.isDigit
  let (fraction, rest) := match s.dropWhile Char.isDigit with
    | '.' :: rest => (rest.takeWhile Char.isDigit, rest.dropWhile Char.isDigit)
    | rest => ([], rest)
  if whole = [] ∧ fraction = [] then none
  else
    (readExponent? rest).map fun exponent =>
      .decimal (digitsValue (whole ++ fraction)) (exponent - fraction.length)

/-- Read one of the words. -/
def readWord? (s : List Char) : Option FloatSize :=
  let word := String.ofList (s.map Char.toLower)
  if word = "inf" || word = "infinity" then some .infinite
  else if word = "nan" then some .nan
  else none

/-- Read a number without sign. -/
def readSize? (s : List Char) : Option FloatSize := readDecimal? s <|> readWord? s

/-- Read a number. -/
def ofText? : List Char → Option FloatReading
  | '-' :: rest => (readSize? rest).map (FloatReading.mk true)
  | '+' :: rest => (readSize? rest).map (FloatReading.mk false)
  | s => (readSize? s).map (FloatReading.mk false)

end FloatReading

end BoundSql.Numeral
