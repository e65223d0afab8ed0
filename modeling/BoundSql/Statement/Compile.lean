import BoundSql.Filter.Compile
import BoundSql.Join.Compile
import BoundSql.Projection.Compile
import BoundSql.Statement.Basic

/-!
# Compiling statements

Each statement becomes a list of tokens. Names are checked and values are bound in the order in
which they stand in the statement, except that the table of a query comes before its columns.
-/

namespace BoundSql

open Sql (Token Tokens)

/-- The tokens of a filter that may be missing. -/
def Filter.compileOption : Option Filter → Build Tokens
  | some filter => filter.compile
  | none => return []

/-- The tokens of a query. -/
def Query.compile (q : Query) : Build Tokens := do
  let (table, aliasName) ← match Sql.splitAlias? (Text.trim q.table.toList) with
    | some parts => pure parts
    | none => throw (.incorrectTable q.table)
  let table ← Build.table (String.ofList table)
  let (source, base) ← match aliasName with
    | some aliasName => do
      let quoted ← Build.table (String.ofList aliasName)
      pure (table ++ Token.word .asAlias :: quoted, quoted)
    | none => pure (table, table)
  let joins := q.joins.getD []
  let columns ← q.projection.compile (!joins.isEmpty)
  -- Keys that name no join are passed over, so that nothing may be left of the joins.
  let joined ← joins.compile base
  let filter ← Filter.compileOption q.filter
  return Token.word .select :: columns ++ Token.word .source :: source ++
    (if joined.isEmpty then [] else Token.word .space :: joined) ++ filter

/-- The columns of all rows, in the order of their first appearance. -/
def Assignments.allColumns (rows : List Assignments) : List String :=
  (rows.flatMap Keyed.keys).foldl
    (fun columns column => if column ∈ columns then columns else columns ++ [column]) []

/-- The tokens of what an inserted row has in a column: no value if the column is missing. -/
def Assignment.compileItem : Option Assignment → Build Tokens
  | none => return [.word .null]
  | some (.value v) => do
    if v.isNull then return [.word .null]
    return [← Build.pushValue v]
  | some (.fragment f) => Build.expand f

/-- The tokens of an inserted row. -/
def Assignments.compileTuple (columns : List String) (row : Assignments) : Build Tokens := do
  let items ← columns.mapM fun column => Assignment.compileItem (row.get? column)
  return Token.word .openParen :: Sql.joinWith .commaSpace items ++ [Token.word .closeParen]

/-- The tokens of an insertion. -/
def compileInsert (table : String) (rows : List Assignments) : Build Tokens := do
  let columns := Assignments.allColumns rows
  if columns.isEmpty then throw (.invalidArgument "INSERT requires at least one column")
  let table ← Build.table table
  let names ← columns.mapM Build.column
  let tuples ← rows.mapM (Assignments.compileTuple columns)
  return Token.word .insertInto :: table ++ Token.word .space :: Token.word .openParen ::
    Sql.joinWith .commaSpace names ++ Token.word .closeParen :: Token.word .values ::
    Sql.joinWith .commaSpace tuples

/-- The tokens of an assignment of an update. -/
def Assignment.compile (column : String) (assignment : Assignment) : Build Tokens := do
  let column ← Build.column column
  let value ← match assignment with
    | .value v => do pure [← Build.pushValue v]
    | .fragment f => Build.expand f
  return column ++ Token.word (.compare .equal) :: value

/-- The tokens of an update. -/
def compileUpdate (table : String) (assignments : Assignments) (filter : Option Filter) :
    Build Tokens := do
  if assignments.isEmpty then throw (.invalidArgument "UPDATE requires at least one column")
  let table ← Build.table table
  let sets ← assignments.mapM fun (column, assignment) => assignment.compile column
  let filter ← Filter.compileOption filter
  return Token.word .update :: table ++ Token.word .assignments ::
    Sql.joinWith .commaSpace sets ++ filter

/-- The tokens of a deletion. -/
def compileDelete (table : String) (filter : Option Filter) : Build Tokens := do
  let table ← Build.table table
  let filter ← Filter.compileOption filter
  return Token.word .deleteFrom :: table ++ filter

/-- The tokens of a statement. -/
def Statement.compile : Statement → Build Tokens
  | .select query => query.compile
  | .insert table rows => compileInsert table rows
  | .update table assignments filter => compileUpdate table assignments filter
  | .delete table filter => compileDelete table filter
  | .raw fragment => Build.expand fragment

end BoundSql
