import BoundSql.Json.Printer
import BoundSql.Numeral.Decimal.Basic
import BoundSql.Text.Scan

/-!
# Values

The values that a statement can carry, and the form in which they are bound. A bound value has a
kind, by which the driver sends it: numbers with a fraction and truth values are bound as text, so
that the database converts them to the type of the column.
-/

namespace BoundSql

/-- A value of a column or a parameter. -/
inductive Value where
  /-- No value. -/
  | null
  /-- An integer. -/
  | int (i : Int64)
  /-- A floating-point number. -/
  | float (x : Numeral.Binary64)
  /-- A decimal number. -/
  | decimal (d : Numeral.Decimal)
  /-- A truth value. -/
  | bool (b : Bool)
  /-- A text. -/
  | str (s : String)
  /-- A string of bytes. -/
  | blob (bytes : List UInt8)
  deriving DecidableEq

/-- How a bound value is sent. -/
inductive ParamKind where
  /-- As no value. -/
  | null
  /-- As an integer. -/
  | int
  /-- As a truth value. -/
  | bool
  /-- As text. -/
  | str
  /-- As bytes. -/
  | lob
  deriving DecidableEq, Repr

/-- A value together with the way it is sent. -/
structure Bound where
  /-- The way it is sent. -/
  kind : ParamKind
  /-- The value in the form in which it is sent. -/
  value : Value
  deriving DecidableEq

namespace Value

/-- A truth value as a digit. -/
def boolDigit (b : Bool) : String := if b then "1" else "0"

/-- The bound form of a value. -/
def bind : Value → Bound
  | null => ⟨.null, .null⟩
  | int i => ⟨.int, .int i⟩
  | float x => ⟨.str, .str x.toText⟩
  | decimal d => ⟨.str, .decimal d⟩
  | bool b => ⟨.bool, .str (boolDigit b)⟩
  | str s => ⟨.str, .str s⟩
  | blob bytes => ⟨.lob, .blob bytes⟩

/-- Whether there is no value. -/
def isNull : Value → Bool
  | null => true
  | _ => false

/-- The text of a value; there is none for no value and for bytes. -/
def asText? : Value → Option String
  | null | blob _ => none
  | int i => some (toString i.toInt)
  | float x => some x.toText
  | decimal d => some d.toText
  | bool b => some (boolDigit b)
  | str s => some s

/-- Whether the value is a finite number, or a text that is one but for blanks around it. -/
def isNumeric : Value → Bool
  | int _ | decimal _ => true
  | float x => x.isFinite
  | str s =>
    match Numeral.Binary64.ofText? (Text.trim s.toList) with
    | some x => x.isFinite
    | none => false
  | _ => false

/-- The value for a JSON value: scalars become what they are, lists and mappings their text. An
integer beyond 64 bits with sign becomes a decimal. -/
def ofJson : Json → Value
  | .null => null
  | .bool b => bool b
  | .number n =>
    match n.toInt64?, n.toUInt64? with
    | some i, _ => int i
    | none, some u => decimal (.ofUInt64 u)
    | none, none => float n.toBinary64
  | .string s => str s
  | json => str json.compact

/-- The JSON value that shows a value: decimals as text, bytes as a list of numbers. -/
def toJson : Value → Json
  | null => .null
  | int i => .number (if i < 0 then .negative i else .natural (.ofNat i.toInt.toNat))
  | float x => if x.isFinite then .number (.float x) else .null
  | decimal d => .string d.toText
  | bool b => .bool b
  | str s => .string s
  | blob bytes => .array (bytes.map fun b => .number (.natural b.toUInt64))

end Value

end BoundSql
