import BoundSql.Build
import BoundSql.Projection.Basic

/-!
# Compiling projections

Groups are flattened; only a query whose single column is a group with a key also asks for the key.
In a query with joins no column may be a wildcard.
-/

namespace BoundSql

open Sql (Token Tokens)

/-- A name with an alias, if there is one. -/
def withAlias (column : Tokens) (aliasName : Option String) : Build Tokens :=
  match aliasName with
  | some aliasName => do
    let quoted ← Build.column aliasName
    return column ++ Token.word .asAlias :: quoted
  | none => return column

/-- The tokens of a column by name. -/
def Column.compileName (inJoin : Bool) (name : String) : Build Tokens :=
  if inJoin && '*' ∈ name.toList then
    throw (.invalidArgument "Cannot use table.* to select all columns while joining table")
  else
    let s := Text.trim name.toList
    if s = ['*'] then return [.word .wildcard]
    else
      match Text.dropSuffix? ['.', '*'] s with
      | some table => do
        let table ← Build.table (String.ofList table)
        return table ++ [.word .dot, .word .wildcard]
      | none => do
        let parsed ← Build.ofExcept (ColumnName.ofText (String.ofList s))
        let column ← Build.column parsed.column
        withAlias column parsed.aliasName

mutual

/-- The tokens of a column that is not the only one. -/
def Column.compile (inJoin : Bool) : Column → Build Tokens
  | .name written => Column.compileName inJoin written
  | .expression aliasName fragment => do
    let parsed ← Build.ofExcept (ColumnName.ofText aliasName)
    let expanded ← Build.expand fragment
    withAlias expanded (some parsed.column)
  | .group _ columns => do
    let parts ← Column.compileEach inJoin columns
    return Sql.joinWith .comma (parts.filter fun part => !part.isEmpty)

/-- The tokens of each column. -/
def Column.compileEach (inJoin : Bool) : List Column → Build (List Tokens)
  | [] => return []
  | column :: rest => do
    let first ← column.compile inJoin
    let others ← Column.compileEach inJoin rest
    return first :: others

end

/-- The tokens of a list of columns at the top of a projection. -/
def Column.compileList (inJoin : Bool) (columns : List Column) : Build Tokens := do
  let parts ← match columns with
    -- The key counts as a column of its own only here.
    | [.group (some key) inner] => do
      let key ← Build.column key
      let inner ← Column.compile inJoin (.group none inner)
      pure [key, inner]
    | columns => Column.compileEach inJoin columns
  return Sql.joinWith .comma (parts.filter fun part => !part.isEmpty)

/-- The tokens of a projection. -/
def Projection.compile (inJoin : Bool) : Projection → Build Tokens
  | .all => return [.word .wildcard]
  | .columns items => Column.compileList inJoin items

end BoundSql
