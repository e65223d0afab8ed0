import BoundSql.Error
import BoundSql.Sql.Identifier
import BoundSql.Sql.Token

/-!
# Quoting names

Names are checked before they are quoted. A table name gets the configured text put before it; a
column name may be qualified by a table name, which gets it too.
-/

namespace BoundSql.Sql

/-- Checks and quotes names. -/
structure Quoter where
  /-- What is put before every table name. -/
  tablePrefix : String := ""
  deriving DecidableEq, Repr

namespace Quoter

/-- A table name, quoted. -/
def table (q : Quoter) (name : String) : Except Error Tokens :=
  if isName name.toList then .ok [.name (q.tablePrefix ++ name)]
  else .error (.incorrectTable name)

/-- A column name without qualification, quoted. -/
def plainColumn (_ : Quoter) (name : String) : Except Error Tokens :=
  if isName name.toList then .ok [.name name] else .error (.incorrectColumn name)

/-- A column name, quoted; it may be qualified by a table name. -/
def column (q : Quoter) (name : String) : Except Error Tokens :=
  match Text.splitAtFirst? '.' name.toList with
  | none => q.plainColumn name
  | some (qualifier, rest) =>
    if isName qualifier && isName rest then
      .ok [.name (q.tablePrefix ++ String.ofList qualifier), .word .dot, .name (String.ofList rest)]
    else .error (.incorrectColumn name)

end Quoter

end BoundSql.Sql
