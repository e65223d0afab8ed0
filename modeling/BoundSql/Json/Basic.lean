import BoundSql.Keyed
import BoundSql.Numeral.Binary64
import BoundSql.Numeral.Power

/-!
# JSON values

Objects are keyed lists: members stand in the order of their first appearance, and a repeated
member name has its last value. Numbers keep apart integers of 64 bits and doubles, so that a
number is written back as it was meant.
-/

namespace BoundSql

/-- A JSON number. -/
inductive JsonNumber where
  /-- An integer from zero on. -/
  | natural (n : UInt64)
  /-- An integer below zero. -/
  | negative (i : Int64)
  /-- Any other number. -/
  | float (x : Numeral.Binary64)
  deriving DecidableEq

/-- A JSON value. -/
inductive Json where
  /-- The word `null`. -/
  | null
  /-- A truth value. -/
  | bool (value : Bool)
  /-- A number. -/
  | number (value : JsonNumber)
  /-- A string. -/
  | string (value : String)
  /-- A list of values. -/
  | array (items : List Json)
  /-- A mapping from member names to values. -/
  | object (members : List (String × Json))
  deriving Inhabited

namespace JsonNumber

/-- The number as a signed integer of 64 bits, if it is one. -/
def toInt64? : JsonNumber → Option Int64
  | .natural n => if n.toNat < Numeral.pow2 63 then some n.toInt64 else none
  | .negative i => some i
  | .float _ => none

/-- The number as a natural number of 64 bits, if it is one. -/
def toUInt64? : JsonNumber → Option UInt64
  | .natural n => some n
  | _ => none

/-- The double nearest to the number. -/
def toBinary64 : JsonNumber → Numeral.Binary64
  | .natural n => .ofInt n.toNat
  | .negative i => .ofInt i.toInt
  | .float x => x

end JsonNumber

namespace Json

/-- The value of the member `name` of an object. -/
def member? (name : String) : Json → Option Json
  | .object members => Keyed.get? name members
  | _ => none

/-- A string value. -/
def string? : Json → Option String
  | .string s => some s
  | _ => none

end Json

end BoundSql
