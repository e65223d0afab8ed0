import BoundSql.Sql.Identifier
import BoundSql.Sql.Operator

/-!
# Joins

A joined table is named by a key: a symbol in brackets for the kind of join, the table, and an
alias in parentheses. What relates it to the tables before it is a list of shared columns or a list
of conditions on columns.
-/

namespace BoundSql

/-- A condition that relates two tables. -/
inductive JoinCondition where
  /-- A column of the base table equals one of the joined table; a dot names another table. -/
  | pair (localColumn : String) (foreignColumn : String)
  /-- Two columns compare. -/
  | columns (left : String) (op : Sql.Comparison) (right : String)
  /-- Conditions in parentheses under a connective of their own. -/
  | group (connective : Sql.Connective) (conditions : List JoinCondition)

/-- What relates a joined table to the tables before it. -/
inductive Relation where
  /-- Columns that both sides have. -/
  | shared (columns : List String)
  /-- Conditions that must all hold. -/
  | on (conditions : List JoinCondition)

/-- Joined tables by their keys, in order. -/
abbrev Joins : Type := List (String × Relation)

/-- What a join key names. -/
structure JoinTarget where
  /-- The kind of join. -/
  kind : Sql.JoinKind
  /-- The table. -/
  table : String
  /-- The alias. -/
  aliasName : Option String
  deriving DecidableEq, Repr

namespace JoinTarget

/-- Whether a key is meant to name a join. -/
def isKey (key : String) : Bool := key.toList.head? = some '['

/-- Drop one blank at the start. -/
def dropBlank : List Char → List Char
  | [] => []
  | c :: rest => if Unicode.isBlank c then rest else c :: rest

/-- The alias at the start of a text, if a name stands there in parentheses. -/
def alias? : List Char → Option (List Char)
  | '(' :: rest =>
    match Text.splitAtFirst? ')' rest with
    | some (name, _) => if Sql.isName name then some name else none
    | none => none
  | _ => none

/-- Read a join key. Text behind the table or the alias is passed over. -/
def ofKey? (key : String) : Option JoinTarget := do
  let rest ← Text.dropPrefix? ['['] key.toList
  let (symbol, rest) ← Text.splitAtFirst? ']' rest
  let kind ← Sql.JoinKind.ofSymbol? (String.ofList symbol)
  let (table, rest) ← Sql.scanName? rest
  return ⟨kind, String.ofList table, (alias? (dropBlank rest)).map String.ofList⟩

end JoinTarget

end BoundSql
