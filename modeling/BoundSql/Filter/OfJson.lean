import BoundSql.Filter.Basic
import BoundSql.Json.Member

/-!
# Filters from JSON

A mapping of conditions, in which some words have a meaning of their own: `GROUP`, `HAVING`,
`ORDER` and `LIMIT` hold the other parts of the filter, and `LIKE` and `MATCH` are passed over.

A condition is a value under a column, a list of alternatives, a list of a comparison and a value,
a comparison of two columns under a number, or a nested mapping under a tag.
-/

namespace BoundSql

/-- Read a member of a mapping of conditions that is not nested. -/
def Condition.ofPlain (key : String) (json : Json) : Except Error Condition :=
  if Json.isPosition key then
    json.columnComparison.map fun (left, op, right) => .columns left op right
  else
    match json with
    | .array items =>
      match items with
      | [.string op, operand] =>
        match Sql.Comparison.ofText? op with
        | some op => .ok (.compares key op (.ofJson operand))
        | none => .ok (.among key (items.map .ofJson))
      | _ => .ok (.among key (items.map .ofJson))
    | json => .ok (.equals key (.ofJson json))

mutual

/-- Read a member of a mapping of conditions. -/
def Condition.ofMember (key : String) : Json → Except Error Condition
  | .object members =>
    match Sql.Connective.ofTag? key with
    | some (connective, label) => (Condition.ofMembers members).map (.group connective label)
    | none => Condition.ofPlain key (.object members)
  | json => Condition.ofPlain key json

/-- Read a mapping of conditions. -/
def Condition.ofMembers : List (String × Json) → Except Error (List Condition)
  | [] => .ok []
  | (key, json) :: rest => do
    let condition ← Condition.ofMember key json
    return condition :: (← Condition.ofMembers rest)

end

namespace OrderItem

/-- Read a member of an order: a direction under a column, or a column under a number. -/
def ofMember (key : String) (json : Json) : Except Error OrderItem := do
  let text ← json.asString "ORDER direction"
  match Sql.Direction.ofText? text with
  | some direction => return ⟨key, some direction⟩
  | none =>
    if Json.isPosition key then return ⟨text, none⟩
    else throw (.invalidArgument ("unknown ORDER direction: " ++ text))

/-- Read an order. -/
def listOfJson : Json → Except Error (List OrderItem)
  | .object members => members.mapM fun (key, json) => ofMember key json
  | json => (json.asStrings "ORDER").map fun columns => columns.map fun column => ⟨column, none⟩

end OrderItem

/-- Read a limit: a list of two holds the rows to skip and the count, anything else is a count. -/
def Limit.ofJson : Json → Limit
  | .array [skipped, taken] => .range (.ofJson skipped) (.ofJson taken)
  | json => .count (.ofJson json)

namespace Filter

/-- Take one member of a mapping into a filter. -/
def takeMember (f : Filter) (key : String) (json : Json) : Except Error Filter :=
  match key with
  | "GROUP" => (json.asStrings "GROUP").map fun columns => { f with grouping := columns }
  | "HAVING" => do
    let conditions ← Condition.ofMembers (← json.asMapping "HAVING")
    return { f with having := conditions }
  | "ORDER" => (OrderItem.listOfJson json).map fun order => { f with order }
  | "LIMIT" => .ok { f with limit := some (.ofJson json) }
  | "LIKE" | "MATCH" => .ok f
  | key =>
    (Condition.ofMember key json).map fun condition =>
      { f with conditions := f.conditions ++ [condition] }

/-- Read a filter. -/
def ofJson (json : Json) : Except Error Filter := do
  (← json.asMapping "filter").foldlM (fun f (key, json) => f.takeMember key json) {}

end Filter

end BoundSql
