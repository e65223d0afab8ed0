import BoundSql.Filter.Basic
import BoundSql.Join.Basic
import BoundSql.Json.Member

/-!
# Joins from JSON

A mapping from join keys to relations. A relation is a shared column, a list of shared columns, or
a mapping of conditions: a column under a column, a comparison under a number, or a nested mapping
under a tag.
-/

namespace BoundSql

/-- Read a member of a mapping of join conditions that is not nested. -/
def JoinCondition.ofPlain (key : String) (json : Json) : Except Error JoinCondition :=
  if Json.isPosition key then
    json.columnComparison.map fun (left, op, right) => .columns left op right
  else (json.asString "join column").map (.pair key)

mutual

/-- Read a member of a mapping of join conditions. -/
def JoinCondition.ofMember (key : String) : Json → Except Error JoinCondition
  | .object members =>
    match Sql.Connective.ofTag? key with
    | some (connective, _) => (JoinCondition.ofMembers members).map (.group connective)
    | none => JoinCondition.ofPlain key (.object members)
  | json =>
    if (Sql.Connective.ofTag? key).isSome then .error (json.notMapping key)
    else JoinCondition.ofPlain key json

/-- Read a mapping of join conditions. -/
def JoinCondition.ofMembers : List (String × Json) → Except Error (List JoinCondition)
  | [] => .ok []
  | (key, json) :: rest => do
    let condition ← JoinCondition.ofMember key json
    return condition :: (← JoinCondition.ofMembers rest)

end

/-- Read a relation. -/
def Relation.ofJson : Json → Except Error Relation
  | .string column => .ok (.shared [column])
  | .array items => (items.mapM (Json.asString "USING column")).map .shared
  | .object members => (JoinCondition.ofMembers members).map .on
  | json => .error (.invalidArgument ("invalid join relation: " ++ json.compact))

namespace Joins

/-- Whether a value is a mapping whose first member is a join. -/
def isJson : Json → Bool
  | .object ((key, _) :: _) => JoinTarget.isKey key
  | _ => false

/-- Read joins. -/
def ofJson (json : Json) : Except Error Joins := do
  (← json.asMapping "join").mapM fun (key, relation) => do
    return (key, ← Relation.ofJson relation)

end Joins

end BoundSql
