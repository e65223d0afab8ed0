import BoundSql.Fragment.Basic

/-!
# Building a statement

Every part of a statement is built over one draft, which holds the values bound so far and the
number of the next placeholder. A part that fails leaves in the draft what it had already bound.
-/

namespace BoundSql

/-- What a statement under construction has collected. -/
structure Draft where
  /-- The values bound so far. -/
  binds : BindMap := []
  /-- The number of the next placeholder. -/
  next : Nat := 0
  deriving DecidableEq

/-- Building part of a statement: names are quoted by a fixed quoter, the draft grows, and a failure
keeps the draft. -/
abbrev Build (α : Type) : Type := ReaderT Sql.Quoter (ExceptT Error (StateM Draft)) α

namespace Build

/-- Run the building of a part on a draft. -/
def exec {α : Type} (part : Build α) (quoter : Sql.Quoter) (draft : Draft) :
    Except Error α × Draft :=
  part quoter draft

/-- Fail if the result is a failure. -/
def ofExcept {α : Type} : Except Error α → Build α
  | .ok a => pure a
  | .error e => throw e

/-- Make a new placeholder. -/
def fresh : Build String := do
  let draft ← get
  set { draft with next := draft.next + 1 }
  return Sql.placeholderName draft.next

/-- Bind a value to a new placeholder. -/
def pushValue (value : Value) : Build Sql.Token := do
  let name ← fresh
  modify fun draft => { draft with binds := draft.binds.bind name value }
  return .parameter name

/-- Expand a fragment and take over its parameters. -/
def expand (fragment : Fragment) : Build Sql.Tokens := do
  let tokens ← ofExcept (fragment.expand (← read))
  modify fun draft => { draft with binds := draft.binds.bindAll fragment.params }
  return tokens

/-- Quote a table name. -/
def table (name : String) : Build Sql.Tokens := do ofExcept ((← read).table name)

/-- Quote a column name, which may be qualified. -/
def column (name : String) : Build Sql.Tokens := do ofExcept ((← read).column name)

/-- Quote a column name without qualification. -/
def plainColumn (name : String) : Build Sql.Tokens := do
  ofExcept ((← read).plainColumn name)

end Build

end BoundSql
