import BoundSql.Error
import BoundSql.Fragment.Basic

/-!
# Projections

The columns that a query asks for. A column is written `name`, `name(alias)` or
`name(alias) [Type]`; the type is checked and has no further effect. Columns can be fragments under
an alias, and they can be grouped.
-/

namespace BoundSql

/-- The type that is named behind a column. -/
inductive TypeHint where
  /-- A text. -/
  | string
  /-- A truth value. -/
  | bool
  /-- An integer. -/
  | int
  /-- A number. -/
  | number
  deriving DecidableEq, Repr

namespace TypeHint

/-- The name of a type. -/
def text : TypeHint → String
  | string => "String"
  | bool => "Bool"
  | int => "Int"
  | number => "Number"

/-- Read the name of a type. -/
def ofText? : String → Option TypeHint
  | "String" => some string
  | "Bool" => some bool
  | "Int" => some int
  | "Number" => some number
  | _ => none

end TypeHint

/-- A column of a query. -/
inductive Column where
  /-- A column by name. -/
  | name (name : String)
  /-- A fragment under an alias. -/
  | expression (aliasName : String) (fragment : Fragment)
  /-- Columns grouped, with or without a key. -/
  | group (key : Option String) (columns : List Column)

/-- The columns of a query. -/
inductive Projection where
  /-- All columns. -/
  | all
  /-- The given columns. -/
  | columns (columns : List Column)
  deriving Inhabited

/-- The projection that a single text asks for. -/
def Projection.ofText (s : String) : Projection :=
  if s = "*" then .all else .columns [.name s]

/-- The parts of a written column. -/
structure ColumnName where
  /-- The column, which may be qualified or a wildcard. -/
  column : String
  /-- The alias. -/
  aliasName : Option String
  /-- The type. -/
  hint : Option TypeHint
  deriving DecidableEq, Repr

namespace ColumnName

/-- Whether `c` can stand in the column part. -/
def isColumnChar (c : Char) : Bool := Sql.isNameChar c || c = '.' || c = '*'

/-- Read an optional alias in parentheses; fails if it is not closed or no name. -/
def readAlias? (s : List Char) : Option (Option (List Char) × List Char) :=
  match Text.trimStart s with
  | '(' :: rest =>
    match Text.splitAtFirst? ')' rest with
    | some (name, rest) => if Sql.isName name then some (some name, rest) else none
    | none => none
  | _ => some (none, s)

/-- Read a written column. -/
def ofText (text : String) : Except Error ColumnName :=
  let invalid : Except Error ColumnName := .error (.incorrectColumn text)
  let s := Text.trim text.toList
  let column := s.takeWhile isColumnChar
  if column = [] then invalid
  else
    match readAlias? (s.dropWhile isColumnChar) with
    | none => invalid
    | some (aliasName, rest) =>
      let finish (hint : Option TypeHint) (rest : List Char) : Except Error ColumnName :=
        if Text.trim rest = [] then .ok ⟨String.ofList column, aliasName.map String.ofList, hint⟩
        else invalid
      match Text.trimStart rest with
      | '[' :: inner =>
        match Text.splitAtFirst? ']' inner with
        | none => invalid
        | some (name, rest) =>
          match TypeHint.ofText? (String.ofList name) with
          | none =>
            .error (.invalidArgument ("Unknown column type hint: " ++ String.ofList name))
          | some hint => finish (some hint) rest
      | _ => finish none rest

end ColumnName

end BoundSql
