import BoundSql.Text.Listing
import BoundSql.Value.Basic

/-!
# Values in messages

The form in which a value is shown in a message: the name of its variant and its content in
parentheses.
-/

namespace BoundSql

namespace Numeral.Binary64

/-- A number with a point or an exponent: positional from a ten-thousandth up to below ten to the
sixteenth, with an exponent outside. -/
def toListing (x : Binary64) : String :=
  match x.datum with
  | .nan => "NaN"
  | .infinite negative => if negative then "-inf" else "inf"
  | .finite negative significand exponent =>
    let magnitude :=
      if significand = 0 then ['0', '.', '0']
      else
        let (digits, place) := shortestDecimal .double .up significand exponent
        let text := Nat.toDigits 10 digits
        let power : Int := text.length - 1 + place
        if -4 ≤ power ∧ power < 16 then
          positional digits place ++ if 0 ≤ place then ['.', '0'] else []
        else
          let fraction := match text.drop 1 with
            | [] => []
            | rest => '.' :: rest
          text.take 1 ++ fraction ++ 'e' :: (toString power).toList
    String.ofList ((if negative then ['-'] else []) ++ magnitude)

end Numeral.Binary64

/-- A value as it is shown in a message. -/
def Value.listing : Value → String
  | null => "Null"
  | int i => "Int(" ++ toString i.toInt ++ ")"
  | float x => "Float(" ++ x.toListing ++ ")"
  | decimal d => "Decimal(" ++ d.toText ++ ")"
  | bool b => "Bool(" ++ (if b then "true" else "false") ++ ")"
  | str s => "Str(" ++ Text.listed s ++ ")"
  | blob bytes => "Blob([" ++ ", ".intercalate (bytes.map fun b => toString b.toNat) ++ "])"

end BoundSql
