import BoundSql.Calendar.Timestamp
import BoundSql.Json.Reader
import BoundSql.Numeral.Binary32
import BoundSql.Uuid
import BoundSql.Value.Conversion
import BoundSql.Wire.ColumnType
import BoundSql.Wire.Numeric

/-!
# Sending bound values

A bound value is sent in the binary form of the type that the database gives to its parameter. Texts
are read as what the type holds, so that a number or a truth value that was bound as text reaches
the column as what it spells. What does not fit is an error, but for the digits of a decimal behind
the point, which are rounded where there is no room for them.
-/

namespace BoundSql

/-- Why a bound value cannot be sent as a type. -/
inductive EncodeError where
  /-- The text is no integer of the type. -/
  | malformedInteger
  /-- The integer lies outside the type. -/
  | integerRange
  /-- The text is no floating-point number. -/
  | malformedFloat
  /-- The text is no decimal number. -/
  | malformedDecimal
  /-- The text is no JSON value. -/
  | malformedJson
  /-- The text is no universally unique identifier. -/
  | malformedUuid
  /-- The text is no date or time of the type. -/
  | malformedTime
  /-- The text is no truth value. -/
  | malformedBool (text : String)
  /-- The type takes no text. -/
  | textAs (type : ColumnType)
  /-- The type takes no bytes. -/
  | bytesAs (type : ColumnType)
  deriving DecidableEq

/-- The message of a failure that has one of its own. -/
def EncodeError.message? : EncodeError → Option String
  | malformedBool text => some ("invalid boolean: " ++ text)
  | textAs type => some ("cannot bind text parameter as " ++ type.qualifiedName)
  | bytesAs type => some ("cannot bind binary data as " ++ type.qualifiedName)
  | _ => none

namespace Wire

/-- Fail with `e` if there is no result. -/
def orFail {α : Type} (e : EncodeError) : Option α → Except EncodeError α
  | some a => .ok a
  | none => .error e

/-- A truth value in its binary form. -/
def boolBytes (b : Bool) : List UInt8 := [if b then 1 else 0]

/-- A signed integer of `width` bytes, if it fits. -/
def fixedInt? (width : Nat) (i : Int) : Option (List UInt8) :=
  ((Numeral.IntRange.signed (8 * width)).restrict? i).map (intBytes width)

/-- A JSON value in its binary form, if the text is one. -/
def jsonBytes? (version : List UInt8) (text : String) : Option (List UInt8) :=
  (Json.ofText? text).map fun json => version ++ Text.utf8 json.compact

/-- The version byte of tree labels and of the binary form of JSON values. -/
def versionByte : UInt8 := 1

/-- The binary form of a text for a type of texts. -/
def stringBytes? (type : ColumnType) (text : String) : Option (List UInt8) :=
  if type.isText then some (Text.utf8 text)
  else if type.isTree then some (versionByte :: Text.utf8 text)
  else none

/-- Send a text as a type. -/
def encodeText (type : ColumnType) (text : String) : Except EncodeError (List UInt8) :=
  let trimmed := Text.trim text.toList
  let integer (width : Nat) : Except EncodeError (List UInt8) :=
    orFail .malformedInteger ((Numeral.readInt? trimmed).bind (fixedInt? width))
  match type with
  | .bool => (orFail (.malformedBool text) (readBool? text)).map boolBytes
  | .int2 => integer 2
  | .int4 => integer 4
  | .int8 => integer 8
  | .float4 =>
    (orFail .malformedFloat (Numeral.Binary32.ofText? trimmed)).map fun x =>
      natBytes 4 x.bits.toNat
  | .float8 =>
    (orFail .malformedFloat (Numeral.Binary64.ofText? trimmed)).map fun x =>
      natBytes 8 x.bits.toNat
  | .numeric => (orFail .malformedDecimal (Numeral.Decimal.ofText? trimmed)).map numericBytes
  | .json => orFail .malformedJson (jsonBytes? [] text)
  | .jsonb => orFail .malformedJson (jsonBytes? [versionByte] text)
  | .uuid => orFail .malformedUuid (Uuid.ofText? trimmed)
  | .date =>
    (orFail .malformedTime (Calendar.Date.ofText? trimmed)).map fun date =>
      intBytes 4 date.toDays
  | .time =>
    (orFail .malformedTime (Calendar.TimeOfDay.ofText? trimmed)).map fun time =>
      intBytes 8 (time.nanos / 1000)
  | .timestamp =>
    (orFail .malformedTime (Calendar.Timestamp.ofText? (Text.replaceFirst ' ' 'T' trimmed))).map
      fun timestamp => intBytes 8 timestamp.toMicros
  | .timestamptz =>
    (orFail .malformedTime (Calendar.Timestamp.ofInstantText? trimmed)).map
      fun instant => intBytes 8 instant.toMicros
  | .bytea => .ok (Text.utf8 text)
  | type => orFail (.textAs type) (stringBytes? type text)

/-- Send an integer as a type. -/
def encodeInt (type : ColumnType) (i : Int) : Except EncodeError (List UInt8) :=
  match type with
  | .int2 => orFail .integerRange (fixedInt? 2 i)
  | .int4 => orFail .integerRange (fixedInt? 4 i)
  | .int8 => orFail .integerRange (fixedInt? 8 i)
  | .oid =>
    orFail .integerRange (((Numeral.IntRange.unsigned 32).restrict? i).map (intBytes 4))
  | .float4 => .ok (natBytes 4 (Numeral.Binary32.ofInt i).bits.toNat)
  | .float8 => .ok (natBytes 8 (Numeral.Binary64.ofInt i).bits.toNat)
  | .bool => .ok (boolBytes (i ≠ 0))
  | type => encodeText type (toString i)

/-- Send a truth value as a type. -/
def encodeBool (type : ColumnType) (b : Bool) : Except EncodeError (List UInt8) :=
  match type with
  | .bool => .ok (boolBytes b)
  | .int2 | .int4 | .int8 => encodeInt type (if b then 1 else 0)
  | type => encodeText type (Value.boolDigit b)

/-- Send bytes as a type. -/
def encodeBytes (type : ColumnType) (bytes : List UInt8) : Except EncodeError (List UInt8) :=
  if type = .bytea then .ok bytes else .error (.bytesAs type)

/-- Send a decimal as a type. -/
def encodeDecimal (type : ColumnType) (d : Numeral.Decimal) : Except EncodeError (List UInt8) :=
  if type = .numeric then .ok (numericBytes d) else encodeText type d.toText

end Wire

/-- The binary form of a bound value for a type; none stands for no value. -/
def Bound.encode (type : ColumnType) (bound : Bound) : Except EncodeError (Option (List UInt8)) :=
  match bound.kind, bound.value with
  | .null, _ | _, .null => .ok none
  | .int, .int i => (Wire.encodeInt type i.toInt).map some
  | .bool, value => (Wire.encodeBool type (value.asText? = some "1")).map some
  | _, .blob bytes => (Wire.encodeBytes type bytes).map some
  | _, .decimal d => (Wire.encodeDecimal type d).map some
  | _, value => (Wire.encodeText type (value.asText?.getD "")).map some

end BoundSql
