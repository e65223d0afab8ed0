import BoundSql.Numeral.Integer
import BoundSql.Numeral.Power
import BoundSql.Text.Scan

/-!
# Scanning dates and times

The parts that the date and time grammars are made of: numbers with a bounded count of digits,
fixed characters with blanks before them, and fractions of a second.
-/

namespace BoundSql.Calendar

/-- Read a number of at least `least` digits, at most `most` of them. -/
def number (least most : Nat) (s : List Char) : Option (Nat × List Char) :=
  let digits := (s.takeWhile Char.isDigit).take most
  if digits.length < least then none
  else some (Numeral.digitsValue digits, s.drop digits.length)

/-- Read a character. -/
def mark (c : Char) : List Char → Option (List Char)
  | [] => none
  | first :: rest => if first = c then some rest else none

/-- Read a character after any blanks. -/
def spacedMark (c : Char) (s : List Char) : Option (List Char) := mark c (Text.trimStart s)

/-- Read a number of one or two digits after any blanks. -/
def twoDigits (s : List Char) : Option (Nat × List Char) := number 1 2 (Text.trimStart s)

/-- Read a year after any blanks: four digits at most without a sign, any number with one. -/
def year (s : List Char) : Option (Int × List Char) :=
  match Text.trimStart s with
  | '-' :: rest => (number 1 rest.length rest).map fun (n, rest) => (-(n : Int), rest)
  | '+' :: rest => (number 1 rest.length rest).map fun (n, rest) => ((n : Int), rest)
  | s => (number 1 4 s).map fun (n, rest) => ((n : Int), rest)

/-- Read an optional fraction of a second, in nanoseconds. Digits after the ninth are passed
over. -/
def fraction : List Char → Option (Nat × List Char)
  | '.' :: s =>
    let digits := (s.takeWhile Char.isDigit).take 9
    if digits = [] then none
    else
      some (Numeral.digitsValue digits * Numeral.pow10 (9 - digits.length),
        s.dropWhile Char.isDigit)
  | s => some (0, s)

/-- A number below a hundred in two digits. -/
def twoDigitText (n : Nat) : List Char := [Nat.digitChar (n / 10 % 10), Nat.digitChar (n % 10)]

/-- A number in at least `width` digits. -/
def paddedText (width n : Nat) : List Char :=
  let digits := Nat.toDigits 10 n
  List.replicate (width - digits.length) '0' ++ digits

end BoundSql.Calendar
