import BoundSql.Wire.Encode

/-!
# Receiving values

A value is received in the binary form of the type of its column. Types that the library does not
know keep their bytes.
-/

namespace BoundSql.Wire

/-- All of the bytes, if there are `width` of them. -/
def exactly? (width : Nat) (bytes : List UInt8) : Option (List UInt8) :=
  if bytes.length = width then some bytes else none

/-- Read a signed integer of `width` bytes. -/
def readInt? (width : Nat) (bytes : List UInt8) : Option Int := (exactly? width bytes).map intOf

/-- Read a natural number of `width` bytes. -/
def readNat? (width : Nat) (bytes : List UInt8) : Option Nat := (exactly? width bytes).map natOf

/-- What follows the version byte. -/
def dropVersion? : List UInt8 → Option (List UInt8)
  | b :: rest => if b = versionByte then some rest else none
  | [] => none

/-- Read a JSON value; its compact text is the value. -/
def readJson? (bytes : List UInt8) : Option Value := do
  return .str (← Json.ofText? (← Text.ofUtf8? bytes)).compact

/-- A text that is made of characters. -/
def textValue (chars : List Char) : Value := .str (String.ofList chars)

/-- Read a text of a type of texts. -/
def readString? (type : ColumnType) (bytes : List UInt8) : Option String :=
  if type.isText then Text.ofUtf8? bytes
  else if type.isTree then (dropVersion? bytes).bind Text.ofUtf8?
  else none

/-- Read a value of a type. -/
def decode? (type : ColumnType) (bytes : List UInt8) : Option Value :=
  match type with
  | .bool => (readNat? 1 bytes).map fun n => .bool (n ≠ 0)
  | .int2 => (readInt? 2 bytes).map fun i => .int (.ofInt i)
  | .int4 => (readInt? 4 bytes).map fun i => .int (.ofInt i)
  | .int8 => (readInt? 8 bytes).map fun i => .int (.ofInt i)
  | .oid => (readNat? 4 bytes).map fun n => .int (.ofNat n)
  | .float4 => (readNat? 4 bytes).map fun n => .float (Numeral.Binary32.widen ⟨.ofNat n⟩)
  | .float8 => (readNat? 8 bytes).map fun n => .float ⟨.ofNat n⟩
  | .numeric => (readNumeric? bytes).map .decimal
  | .bytea => some (.blob bytes)
  | .json => readJson? bytes
  | .jsonb => (dropVersion? bytes).bind readJson?
  | .uuid => (exactly? 16 bytes).map fun bytes => textValue (Uuid.toText bytes)
  | .date => do return textValue (← Calendar.Date.ofDays? (← readInt? 4 bytes)).toText
  | .time => (readInt? 8 bytes).map fun micros =>
      textValue (Calendar.TimeOfDay.ofMicros micros).toText
  | .timestamp => do
    return textValue (← Calendar.Timestamp.ofMicros? (← readInt? 8 bytes)).toText
  | .timestamptz => do
      return textValue (← Calendar.Timestamp.ofMicros? (← readInt? 8 bytes)).toInstantText
  | type =>
    if type.isText || type.isTree then (readString? type bytes).map .str
    else if type.isEnumeration then (Text.ofUtf8? bytes).map .str
    else some (.blob bytes)

/-- Read a value of a type; no bytes stand for no value. -/
def receive? (type : ColumnType) : Option (List UInt8) → Option Value
  | none => some .null
  | some bytes => decode? type bytes

end BoundSql.Wire
