import BoundSql.Statement.Compile

/-!
# Compilers

A compiler numbers the placeholders of all the statements it compiles, so that no two statements
share one. A statement that does not compile uses up no number.
-/

namespace BoundSql

/-- A compiled statement. -/
structure Compiled where
  /-- The text. -/
  sql : String
  /-- The values bound to its parameters. -/
  binds : BindMap
  deriving DecidableEq

/-- Compiles statements one after the other. -/
structure Compiler where
  /-- Quotes the names. -/
  quoter : Sql.Quoter := {}
  /-- The number of the next placeholder. -/
  next : Nat := 0
  deriving DecidableEq

/-- Compile a statement: the result, and the compiler for the next statement. -/
def Compiler.compile (c : Compiler) (statement : Statement) : Except Error Compiled × Compiler :=
  match statement.compile.exec c.quoter { next := c.next } with
  | (.ok tokens, draft) => (.ok ⟨Sql.render tokens, draft.binds⟩, { c with next := draft.next })
  | (.error e, _) => (.error e, c)

end BoundSql
