import BoundSql.Error
import BoundSql.Json.Printer
import BoundSql.Sql.Operator

/-!
# Members of specifications

A specification can be written as a JSON value. This module holds the readings that its parts
share: asking for a mapping, a string or a list of strings, and comparing two columns under a
number.
-/

namespace BoundSql.Json

/-- The failure for a value that should be a mapping; `what` names it. -/
def notMapping (what : String) (json : Json) : Error :=
  .invalidArgument (what ++ " must be a mapping, got " ++ json.compact)

/-- The members of a mapping; `what` names the value in the failure. -/
def asMapping (what : String) : Json → Except Error (List (String × Json))
  | .object members => .ok members
  | json => .error (json.notMapping what)

/-- The content of a string; `what` names the value in the failure. -/
def asString (what : String) : Json → Except Error String
  | .string s => .ok s
  | json => .error (.invalidArgument (what ++ " must be a string, got " ++ json.compact))

/-- A list of strings, or a string alone; `what` names the value in the failure. -/
def asStrings (what : String) : Json → Except Error (List String)
  | .string s => .ok [s]
  | .array items => items.mapM (asString what)
  | json =>
    .error (.invalidArgument (what ++ " must be a string or list, got " ++ json.compact))

/-- Whether a member name is a number. -/
def isPosition (key : String) : Bool := key != "" && key.toList.all Char.isDigit

/-- The words that have a meaning of their own in a filter and never name a column. -/
def reservedKeys : List String := ["GROUP", "HAVING", "ORDER", "LIMIT", "LIKE", "MATCH"]

/-- Two columns and how they compare: a list of three, with the comparison second, or of five, with
the other column last. -/
def columnComparison? : Json → Option (String × Sql.Comparison × String)
  | .array [.string left, .string op, .string right]
  | .array [.string left, .string op, _, _, .string right] =>
    (Sql.Comparison.ofText? op).map fun op => (left, op, right)
  | _ => none

/-- What stands under a number: two columns and how they compare. -/
def columnComparison (json : Json) : Except Error (String × Sql.Comparison × String) :=
  match columnComparison? json with
  | some comparison => .ok comparison
  | none => .error (.invalidArgument ("invalid column comparison: " ++ json.compact))

end BoundSql.Json
