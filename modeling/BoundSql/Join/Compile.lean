import BoundSql.Build
import BoundSql.Join.Basic

/-!
# Compiling joins

A column without a dot is qualified by the table it belongs to, under the name by which the
statement introduces that table. Entries whose key names no join are passed over.
-/

namespace BoundSql

open Sql (Token Tokens)

/-- A column under a table: qualified by its own table if it names one, else by the given one. -/
def JoinCondition.qualified (named : Bool) (table : Tokens) (column : String) : Build Tokens :=
  if named then Build.column column
  else do
    let name ← Build.plainColumn column
    return table ++ Token.word .dot :: name

/-- Whether a column of the base table names a table: a dot stands in it, but not at its start. -/
def JoinCondition.namesTable (column : String) : Bool :=
  match column.toList with
  | [] => false
  | c :: rest => c ≠ '.' && '.' ∈ rest

mutual

/-- The tokens of a condition between the table `base` and the joined table. -/
def JoinCondition.compile (base joined : Tokens) : JoinCondition → Build Tokens
  | .pair localColumn foreignColumn => do
    let left ← JoinCondition.qualified (JoinCondition.namesTable localColumn) base localColumn
    let right ← JoinCondition.qualified ('.' ∈ foreignColumn.toList) joined foreignColumn
    return left ++ Token.word (.compare .equal) :: right
  | .columns left op right => do
    let left ← Build.column left
    let right ← Build.column right
    return left ++ Token.word (.compare op) :: right
  | .group connective conditions => do
    let inner ← JoinCondition.compileAll base joined connective conditions
    return Token.word .openParen :: inner ++ [Token.word .closeParen]

/-- The tokens of sibling conditions under a connective. -/
def JoinCondition.compileAll (base joined : Tokens) (connective : Sql.Connective) :
    List JoinCondition → Build Tokens
  | [] => return []
  | [condition] => condition.compile base joined
  | condition :: rest => do
    let first ← condition.compile base joined
    let others ← JoinCondition.compileAll base joined connective rest
    return first ++ Token.word (.connect connective) :: others

end

/-- The tokens of a relation. -/
def Relation.compile (base joined : Tokens) : Relation → Build Tokens
  | .shared columns => do
    let columns ← columns.mapM Build.plainColumn
    return Token.word .shared :: Sql.joinWith .commaSpace columns ++ [Token.word .closeParen]
  | .on conditions => do
    let conditions ← JoinCondition.compileAll base joined .and conditions
    return Token.word .on :: conditions

/-- The tokens of a joined table. -/
def JoinTarget.compile (base : Tokens) (relation : Relation) (target : JoinTarget) :
    Build Tokens := do
  let joined ← Build.table (target.aliasName.getD target.table)
  let relation ← relation.compile base joined
  let table ← Build.table target.table
  let naming ← match target.aliasName with
    | some aliasName => do
      let quoted ← Build.table aliasName
      pure (Token.word .asAlias :: quoted)
    | none => pure []
  return Token.word (.join target.kind) :: table ++ naming ++ relation

/-- The tokens of each joined table whose key names a join. -/
def Joins.compileEach (base : Tokens) : Joins → Build (List Tokens)
  | [] => return []
  | (key, relation) :: rest =>
    match JoinTarget.ofKey? key with
    | none => Joins.compileEach base rest
    | some target => do
      let first ← target.compile base relation
      let others ← Joins.compileEach base rest
      return first :: others

/-- The tokens of all joined tables, with a blank between each two. -/
def Joins.compile (base : Tokens) (joins : Joins) : Build Tokens := do
  return Sql.joinWith .space (← Joins.compileEach base joins)

end BoundSql
