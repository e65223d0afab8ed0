import BoundSql.Numeral.Decimal.Binary
import BoundSql.Numeral.Decimal.Text
import BoundSql.Numeral.Integer
import BoundSql.Text.Utf8
import BoundSql.Value.Basic

/-!
# Typed views of values

What a value is as an integer, a number, a truth value, a text or bytes, where it is one. Texts are
read as the number or truth value that they spell.
-/

namespace BoundSql

/-- Read a truth value: the words of the database, in any case, with blanks around them. -/
def readBool? (s : String) : Option Bool :=
  let word := String.ofList ((Text.trim s.toList).map Char.toLower)
  if word ∈ ["1", "t", "true", "y", "yes", "on"] then some true
  else if word ∈ ["0", "f", "false", "n", "no", "off"] then some false
  else none

namespace Value

/-- As an integer of 64 bits. -/
def toInt64? : Value → Option Int64
  | int i => some i
  | decimal d => if d.isIntegral then d.toInt64? else none
  | bool b => some (if b then 1 else 0)
  | str s =>
    (Numeral.readInt? (Text.trim s.toList)).bind fun i =>
      ((Numeral.IntRange.signed 64).restrict? i).map Int64.ofInt
  | _ => none

/-- As an integer of 32 bits. -/
def toInt32? (v : Value) : Option Int64 :=
  v.toInt64?.bind fun i =>
    if (Numeral.IntRange.signed 32).contains i.toInt then some i else none

/-- As a floating-point number. -/
def toFloat? : Value → Option Numeral.Binary64
  | float x => some x
  | decimal d => some d.toBinary64
  | int i => some (.ofInt i.toInt)
  | str s => Numeral.Binary64.ofText? (Text.trim s.toList)
  | _ => none

/-- As a decimal number. -/
def toDecimal? : Value → Option Numeral.Decimal
  | decimal d => some d
  | int i => some (.ofInt64 i)
  | float x => Numeral.Decimal.ofBinary64? x
  | str s => Numeral.Decimal.ofText? (Text.trim s.toList)
  | _ => none

/-- As a truth value. -/
def toBool? : Value → Option Bool
  | bool b => some b
  | int i => some (i ≠ 0)
  | str s => readBool? s
  | _ => none

/-- As a text. -/
def toText? : Value → Option String
  | bool b => some (if b then "true" else "false")
  | v => v.asText?

/-- As bytes. -/
def toBytes? : Value → Option (List UInt8)
  | blob bytes => some bytes
  | str s => some (Text.utf8 s)
  | _ => none

end Value

/-- The type as which a column is asked for. -/
inductive Target where
  /-- An integer of 64 bits. -/
  | int64
  /-- An integer of 32 bits. -/
  | int32
  /-- A floating-point number. -/
  | float
  /-- A decimal number. -/
  | decimal
  /-- A truth value. -/
  | bool
  /-- A text. -/
  | text
  /-- Bytes. -/
  | bytes
  /-- The value as it is. -/
  | value
  /-- The same, or no value. -/
  | optional (target : Target)
  deriving DecidableEq

/-- A value as the type that was asked for. -/
inductive Extracted where
  /-- An integer. -/
  | int (i : Int64)
  /-- A floating-point number. -/
  | float (x : Numeral.Binary64)
  /-- A decimal number. -/
  | decimal (d : Numeral.Decimal)
  /-- A truth value. -/
  | bool (b : Bool)
  /-- A text. -/
  | text (s : String)
  /-- Bytes. -/
  | bytes (bytes : List UInt8)
  /-- The value as it is. -/
  | value (v : Value)
  /-- No value, where one was optional. -/
  | absent
  /-- A value, where one was optional. -/
  | present (inner : Extracted)
  deriving DecidableEq

namespace Target

/-- The name of the type in messages. -/
def name : Target → String
  | int64 => "i64"
  | int32 => "i32"
  | float => "f64"
  | decimal => "rust_decimal::decimal::Decimal"
  | bool => "bool"
  | text => "alloc::string::String"
  | bytes => "alloc::vec::Vec<u8>"
  | value => "Value"
  | optional target => "core::option::Option<" ++ target.name ++ ">"

/-- The value as the type, if it is one. -/
def extract? : Target → Value → Option Extracted
  | int64, v => v.toInt64?.map .int
  | int32, v => v.toInt32?.map .int
  | float, v => v.toFloat?.map .float
  | decimal, v => v.toDecimal?.map .decimal
  | bool, v => v.toBool?.map .bool
  | text, v => v.toText?.map .text
  | bytes, v => v.toBytes?.map .bytes
  | value, v => some (.value v)
  | optional _, .null => some .absent
  | optional target, v => (target.extract? v).map .present

end Target

end BoundSql
