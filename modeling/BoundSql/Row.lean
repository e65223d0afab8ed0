import BoundSql.Error
import BoundSql.Keyed
import BoundSql.Value.Conversion
import BoundSql.Value.Listing

/-!
# Rows

A fetched row has values and the names of its columns. Names can repeat, and the first column of a
name is the one that is found.
-/

namespace BoundSql

/-- A fetched row. -/
structure Row where
  /-- The names of the columns. -/
  columns : List String
  /-- The values. -/
  values : List Value
  deriving DecidableEq

namespace Row

/-- The value of the first column called `column`. -/
def get? (row : Row) (column : String) : Option Value := do
  row.values[← row.columns.idxOf? column]?

/-- The value of a column as a type. -/
def extract (row : Row) (column : String) (target : Target) : Except Error Extracted :=
  match row.get? column with
  | none => .error (.decode column "no such column")
  | some value =>
    match target.extract? value with
    | some extracted => .ok extracted
    | none =>
      .error (.decode column ("cannot convert " ++ value.listing ++ " to " ++ target.name))

/-- The row as a mapping from column names to values. -/
def toJson (row : Row) : Json :=
  .object (Keyed.putAll (row.columns.zip (row.values.map Value.toJson)) [])

end Row

end BoundSql
