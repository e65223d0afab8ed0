import BoundSql.Sql.Literal
import BoundSql.Statement.Compile

/-!
# Ways of writing values

The compilers write a value by making a name for it and binding it. Here the same compilers are
written with the way of writing values left open: whatever else they build, and in which order, does
not depend on it. With the way of the compilers they are the compilers
(`Statement.compileWith_pushValue`).

* `Statement.compileWith`: the tokens of a statement, with a given way of writing values;
* `Build.writeValue`: a value written in its place;
* `Statement.inlined`: the text of a statement in which every value is written in its place.
-/

namespace BoundSql

open Sql (Token Tokens)

/-- Write a value in its place, as it is shown to people. Nothing is bound. -/
def Build.writeValue (value : Value) : Build Token :=
  return .verbatim (Sql.literalValue value.bind)

section Writing

variable (push : Value → Build Token)

mutual

/-- The tokens of a condition. -/
def Condition.compileWith : Condition → Build Tokens
  | .group connective _ conditions => do
    let inner ← Condition.compileAllWith connective conditions
    return Token.word .openParen :: inner ++ [Token.word .closeParen]
  | .columns left op right => do
    let left ← Build.column left
    let right ← Build.column right
    return left ++ Token.word (.compare op) :: right
  | .equals column value => do
    let column ← Build.column column
    if value.isNull then return column ++ [Token.word .isNull]
    let written ← push value
    return column ++ [Token.word (.compare .equal), written]
  | .compares column op value => do
    let column ← Build.column column
    let written ← push value
    return column ++ [Token.word (.compare op), written]
  | .among column values => do
    let column ← Build.column column
    match values with
    | [] => return [Token.word .never]
    | values =>
      let written ← values.mapM push
      return column ++ Token.word .among ::
        Sql.joinWith .commaSpace (written.map fun w => [w]) ++ [Token.word .closeParen]

/-- The tokens of sibling conditions under a connective. -/
def Condition.compileAllWith (connective : Sql.Connective) : List Condition → Build Tokens
  | [] => return []
  | [condition] => condition.compileWith
  | condition :: rest => do
    let first ← condition.compileWith
    let others ← Condition.compileAllWith connective rest
    return first ++ Token.word (.connect connective) :: others

end

/-- The tokens of a filter. -/
def Filter.compileWith (f : Filter) : Build Tokens := do
  let conditions ← clause .conditions f.conditions (Condition.compileAllWith push .and)
  let grouping ← clause .groupBy f.grouping fun columns => do
    return Sql.joinWith .comma (← columns.mapM Build.column)
  let having ← clause .having f.having (Condition.compileAllWith push .and)
  let order ← clause .orderBy f.order fun items => do
    return Sql.joinWith .comma (← items.mapM OrderItem.compile)
  let limit := (f.limit.bind Limit.tokens?).getD []
  return conditions ++ grouping ++ having ++ order ++ limit

/-- The tokens of a filter that may be missing. -/
def Filter.compileOptionWith : Option Filter → Build Tokens
  | some filter => filter.compileWith push
  | none => return []

/-- The tokens of a query. -/
def Query.compileWith (q : Query) : Build Tokens := do
  let (table, aliasName) ← match Sql.splitAlias? (Text.trim q.table.toList) with
    | some parts => pure parts
    | none => throw (.incorrectTable q.table)
  let table ← Build.table (String.ofList table)
  let (source, base) ← match aliasName with
    | some aliasName => do
      let quoted ← Build.table (String.ofList aliasName)
      pure (table ++ Token.word .asAlias :: quoted, quoted)
    | none => pure (table, table)
  let joins := q.joins.getD []
  let columns ← q.projection.compile (!joins.isEmpty)
  let joined ← joins.compile base
  let filter ← Filter.compileOptionWith push q.filter
  return Token.word .select :: columns ++ Token.word .source :: source ++
    (if joined.isEmpty then [] else Token.word .space :: joined) ++ filter

/-- The tokens of what an inserted row has in a column. -/
def Assignment.compileItemWith : Option Assignment → Build Tokens
  | none => return [.word .null]
  | some (.value v) => do
    if v.isNull then return [.word .null]
    return [← push v]
  | some (.fragment f) => Build.expand f

/-- The tokens of an inserted row. -/
def Assignments.compileTupleWith (columns : List String) (row : Assignments) : Build Tokens := do
  let items ← columns.mapM fun column => Assignment.compileItemWith push (row.get? column)
  return Token.word .openParen :: Sql.joinWith .commaSpace items ++ [Token.word .closeParen]

/-- The tokens of an insertion. -/
def compileInsertWith (table : String) (rows : List Assignments) : Build Tokens := do
  let columns := Assignments.allColumns rows
  if columns.isEmpty then throw (.invalidArgument "INSERT requires at least one column")
  let table ← Build.table table
  let names ← columns.mapM Build.column
  let tuples ← rows.mapM (Assignments.compileTupleWith push columns)
  return Token.word .insertInto :: table ++ Token.word .space :: Token.word .openParen ::
    Sql.joinWith .commaSpace names ++ Token.word .closeParen :: Token.word .values ::
    Sql.joinWith .commaSpace tuples

/-- The tokens of an assignment of an update. -/
def Assignment.compileWith (column : String) (assignment : Assignment) : Build Tokens := do
  let column ← Build.column column
  let value ← match assignment with
    | .value v => do pure [← push v]
    | .fragment f => Build.expand f
  return column ++ Token.word (.compare .equal) :: value

/-- The tokens of an update. -/
def compileUpdateWith (table : String) (assignments : Assignments) (filter : Option Filter) :
    Build Tokens := do
  if assignments.isEmpty then throw (.invalidArgument "UPDATE requires at least one column")
  let table ← Build.table table
  let sets ← assignments.mapM fun (column, assignment) => assignment.compileWith push column
  let filter ← Filter.compileOptionWith push filter
  return Token.word .update :: table ++ Token.word .assignments ::
    Sql.joinWith .commaSpace sets ++ filter

/-- The tokens of a deletion. -/
def compileDeleteWith (table : String) (filter : Option Filter) : Build Tokens := do
  let table ← Build.table table
  let filter ← Filter.compileOptionWith push filter
  return Token.word .deleteFrom :: table ++ filter

/-- The tokens of a statement. -/
def Statement.compileWith : Statement → Build Tokens
  | .select query => query.compileWith push
  | .insert table rows => compileInsertWith push table rows
  | .update table assignments filter => compileUpdateWith push table assignments filter
  | .delete table filter => compileDeleteWith push table filter
  | .raw fragment => Build.expand fragment

end Writing

/-- The text of a statement in which every value is written in its place. -/
def Statement.inlined (q : Sql.Quoter) (s : Statement) : Except Error String :=
  ((s.compileWith Build.writeValue).exec q {}).1.map Sql.render

mutual

/-- Conditions are compiled by making a name for each value. -/
theorem Condition.compileWith_pushValue :
    ∀ c : Condition, c.compileWith Build.pushValue = c.compile
  | .group connective label conditions => by
    rw [Condition.compileWith, Condition.compile,
      Condition.compileAllWith_pushValue connective conditions]
  | .columns left op right => by rw [Condition.compileWith, Condition.compile]
  | .equals column value => by rw [Condition.compileWith, Condition.compile]
  | .compares column op value => by rw [Condition.compileWith, Condition.compile]
  | .among column [] => by rw [Condition.compileWith, Condition.compile]
  | .among column (v :: values) => by rw [Condition.compileWith, Condition.compile]

/-- Sibling conditions are compiled by making a name for each value. -/
theorem Condition.compileAllWith_pushValue (connective : Sql.Connective) :
    ∀ cs : List Condition, Condition.compileAllWith Build.pushValue connective cs =
      Condition.compileAll connective cs
  | [] => by rw [Condition.compileAllWith, Condition.compileAll]
  | [c] => by
    rw [Condition.compileAllWith, Condition.compileAll]
    exact c.compileWith_pushValue
  | c :: next :: rest => by
    have hrest := Condition.compileAllWith_pushValue connective (next :: rest)
    simp only [Condition.compileAllWith, Condition.compileAll] at hrest ⊢
    rw [hrest, c.compileWith_pushValue]

end

/-- A filter is compiled by making a name for each value. -/
theorem Filter.compileOptionWith_pushValue (f : Option Filter) :
    Filter.compileOptionWith Build.pushValue f = Filter.compileOption f := by
  have hconditions : Condition.compileAllWith Build.pushValue .and = Condition.compileAll .and :=
    funext (Condition.compileAllWith_pushValue .and)
  cases f with
  | none => rfl
  | some f =>
    rw [compileOptionWith, compileOption, Filter.compileWith, Filter.compile, hconditions]

/-- The compilers are those that make a name for each value. -/
theorem Statement.compileWith_pushValue (s : Statement) :
    s.compileWith Build.pushValue = s.compile := by
  -- Only conditions and assignments write values; what is around them is the same text.
  cases s with
  | select query =>
    rw [compileWith, Query.compileWith, Filter.compileOptionWith_pushValue]
    rfl
  | insert table rows => rfl
  | update table assignments filter =>
    rw [compileWith, compileUpdateWith, Filter.compileOptionWith_pushValue]
    rfl
  | delete table filter =>
    rw [compileWith, compileDeleteWith, Filter.compileOptionWith_pushValue]
    rfl
  | raw fragment => rfl

end BoundSql
