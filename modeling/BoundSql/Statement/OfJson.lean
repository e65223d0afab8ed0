import BoundSql.Filter.OfJson
import BoundSql.Join.OfJson
import BoundSql.Projection.OfJson
import BoundSql.Statement.Basic

/-!
# Statements from JSON

Rows are mappings from columns to values or fragments. A query is given by up to three values:
joins, columns and a filter. The joins are recognised by their first key; without columns, a last
value that cannot be a mapping of columns is the filter.
-/

namespace BoundSql

/-- Read what a column is set to: a fragment, or any other value. -/
def Assignment.ofJson (json : Json) : Except Error Assignment :=
  match Fragment.ofJson? json with
  | some reading => reading.map .fragment
  | none => .ok (.value (.ofJson json))

namespace Assignments

/-- Read a row. -/
def ofJson (json : Json) : Except Error Assignments := do
  (← json.asMapping "data").mapM fun (column, json) => do
    return (column, ← Assignment.ofJson json)

/-- Read a list of rows, or a row alone. -/
def rowsOfJson : Json → Except Error (List Assignments)
  | .array rows => rows.mapM ofJson
  | json => (ofJson json).map fun row => [row]

end Assignments

namespace Query

/-- Read a part that may be missing or null. -/
def readPart {α : Type} (absent : α) (read : Json → Except Error α) : Json → Except Error α
  | .null => .ok absent
  | json => read json

/-- Read the columns and the filter of a query. -/
def withArguments (q : Query) : List Json → Except Error Query
  | [] => .ok q
  | [last] =>
    match last with
    | .object members =>
      if Projection.isColumnMapping (.object members) then
        (Projection.ofJson (.object members)).map fun projection => { q with projection }
      else (Filter.ofJson (.object members)).map fun filter => { q with filter := some filter }
    | json =>
      (readPart .all Projection.ofJson json).map fun projection => { q with projection }
  | columns :: filter :: _ => do
    let projection ← readPart .all Projection.ofJson columns
    let filter ← readPart none (fun json => (Filter.ofJson json).map some) filter
    return { q with projection, filter }

/-- Read a query of a table. -/
def ofArguments (table : String) : List Json → Except Error Query
  | [] => .ok { table }
  | first :: rest =>
    if Joins.isJson first then do
      let joins ← Joins.ofJson first
      withArguments { table, joins := some joins } rest
    else withArguments { table } (first :: rest)

end Query

end BoundSql
