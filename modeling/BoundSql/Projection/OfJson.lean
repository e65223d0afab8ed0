import BoundSql.Filter.Basic
import BoundSql.Fragment.OfJson
import BoundSql.Projection.Basic

/-!
# Projections from JSON

A list holds column names and nested groups; a mapping holds fragments under their aliases and
groups under their keys.
-/

namespace BoundSql

mutual

/-- Read an item of a list of columns. -/
def Column.ofItem : Json → Except Error Column
  | .string s => .ok (.name s)
  | .array items => (Column.ofItems items).map (.group none)
  | .object members => (Column.ofMembers members).map (.group none)
  | json => .error (.invalidArgument ("invalid column: " ++ json.compact))

/-- Read a list of columns. -/
def Column.ofItems : List Json → Except Error (List Column)
  | [] => .ok []
  | item :: rest => do
    let column ← Column.ofItem item
    return column :: (← Column.ofItems rest)

/-- Read a member of a mapping of columns. -/
def Column.ofMember (key : String) : Json → Except Error Column
  | .array items => (Column.ofItems items).map (.group (some key))
  | .object members =>
    match Fragment.ofJson? (.object members) with
    | some (.ok fragment) => .ok (.expression key fragment)
    | some (.error e) => .error e
    | none => (Column.ofMembers members).map (.group (some key))
  | json =>
    .error (.invalidArgument
      ("column group '" ++ key ++ "' must be a list or mapping, got " ++ json.compact))

/-- Read a mapping of columns. -/
def Column.ofMembers : List (String × Json) → Except Error (List Column)
  | [] => .ok []
  | (key, json) :: rest => do
    let column ← Column.ofMember key json
    return column :: (← Column.ofMembers rest)

end

namespace Projection

/-- Read a projection. -/
def ofJson : Json → Except Error Projection
  | .string s => .ok (ofText s)
  | .array items => (Column.ofItems items).map .columns
  | .object members => (Column.ofMembers members).map .columns
  | json =>
    .error (.invalidArgument
      ("columns must be a string, list or mapping, got " ++ json.compact))

/-- Whether a member looks like one of a mapping of columns: its name is none of the reserved words,
no tag and no number, and its value is a list or a mapping. -/
def isColumnMember (member : String × Json) : Bool :=
  !Json.reservedKeys.contains member.1 && (Sql.Connective.ofTag? member.1).isNone &&
    !member.1.toList.all Char.isDigit &&
    match member.2 with
    | .array _ | .object _ => true
    | _ => false

/-- Whether a value is a mapping of columns by its looks. -/
def isColumnMapping : Json → Bool
  | .object members => members.all isColumnMember
  | _ => false

end Projection

end BoundSql
