import BoundSql.Numeral.FloatText
import BoundSql.Numeral.Shortest

/-!
# Double-precision numbers

A double is its bit pattern, so equality tells the two zeros and the various not-a-numbers apart
and is decidable. Every operation decodes the pattern, works exactly on natural numbers and rounds
once.

`toText` writes the shortest digits that read back, never with an exponent; `toJson` is the form
of numbers in a JSON text.
-/

namespace BoundSql.Numeral

/-- A double-precision number. -/
structure Binary64 where
  /-- The bit pattern: sign, exponent, fraction. -/
  bits : UInt64
  deriving DecidableEq, Inhabited

namespace Binary64

/-- What the number is. -/
def datum (x : Binary64) : BinaryDatum := BinaryFormat.double.decode x.bits.toNat

/-- The number with the given sign and pattern of its magnitude. -/
def ofMagnitude (negative : Bool) (pattern : Nat) : Binary64 :=
  ⟨.ofNat (pattern + if negative then BinaryFormat.double.signBit else 0)⟩

/-- The number nearest to the fraction `num / den`, with the given sign. -/
def nearest (negative : Bool) (num den : Nat) : Binary64 :=
  ofMagnitude negative (BinaryFormat.double.nearest num den)

/-- The number nearest to an integer. -/
def ofInt (i : Int) : Binary64 := nearest (i < 0) i.natAbs 1

/-- The number that a reading of a text denotes. -/
def ofReading (r : FloatReading) : Binary64 :=
  ofMagnitude r.negative (r.size.pattern BinaryFormat.double)

/-- Read the text of a number. -/
def ofText? (s : List Char) : Option Binary64 := (FloatReading.ofText? s).map ofReading

/-- Neither infinite nor a not-a-number. -/
def isFinite (x : Binary64) : Bool :=
  match x.datum with
  | .finite .. => true
  | _ => false

/-- The magnitude as a fraction; zero if the number is not finite. -/
def magnitude (x : Binary64) : Nat × Nat :=
  match x.datum with
  | .finite _ significand exponent => scaleByTwo significand 1 exponent
  | _ => (0, 1)

/-- The text without an exponent. Of two nearest shortest decimals the greater one is written. -/
def toText (x : Binary64) : String :=
  match x.datum with
  | .nan => "NaN"
  | .infinite negative => if negative then "-inf" else "inf"
  | .finite negative significand exponent =>
    let (digits, place) :=
      if significand = 0 then (0, 0)
      else shortestDecimal .double .up significand exponent
    String.ofList ((if negative then ['-'] else []) ++ positional digits place)

/-- The form of a finite number in a JSON text: positional while the decimal exponent is between
-5 and 15, with a fraction even when it is zero, and scientific beyond. Of two nearest shortest
decimals the one with an even last digit is written. -/
def jsonMagnitude (significand : Nat) (exponent : Int) : List Char :=
  if significand = 0 then ['0', '.', '0']
  else
    let (digits, place) := shortestDecimal .double .toEven significand exponent
    let text := Nat.toDigits 10 digits
    let power : Int := text.length - 1 + place
    if -5 ≤ power ∧ power ≤ 15 then
      positional digits place ++ if 0 ≤ place then ['.', '0'] else []
    else
      let fraction := match text.drop 1 with
        | [] => []
        | rest => '.' :: rest
      text.take 1 ++ fraction ++ 'e' :: (if power < 0 then '-' else '+') ::
        Nat.toDigits 10 power.natAbs

/-- The JSON text of a number; JSON has no form for infinities and not-a-numbers and writes
`null`. -/
def toJson (x : Binary64) : String :=
  match x.datum with
  | .finite negative significand exponent =>
    String.ofList ((if negative then ['-'] else []) ++ jsonMagnitude significand exponent)
  | _ => "null"

end Binary64

end BoundSql.Numeral
