import BoundSql.Error
import BoundSql.Numeral.Integer
import BoundSql.Text.Scan
import BoundSql.Wire.ColumnType

/-!
# Servers

What a driver can ask of a server: to start a session, to prepare a statement with numbered
parameters, to execute it with values in their binary form, and to run commands. An execution sends
rows and then how it ended.
-/

namespace BoundSql.Postgres

/-- How a session is introduced. -/
structure Startup where
  /-- The user. -/
  user : String
  /-- The database. -/
  database : Option String
  /-- The name under which the application is known. -/
  applicationName : Option String
  deriving DecidableEq, Repr

/-- A statement that the server has prepared. -/
structure Prepared where
  /-- What the server knows the statement by. -/
  handle : Nat
  /-- The types of its parameters. -/
  params : List ColumnType
  /-- The names and types of its columns. -/
  columns : List (String × ColumnType)
  deriving DecidableEq, Repr

/-- A value in its binary form; there are no bytes for no value. -/
abbrev Cell : Type := Option (List UInt8)

/-- What an execution sends. -/
structure Answer where
  /-- The rows. -/
  rows : List (List Cell) := []
  /-- The tag of a completed execution, or why it was given up. -/
  ending : Except ErrorInfo String := .ok "OK"

/-- A server with states `τ`. -/
structure Server (τ : Type) where
  /-- Start a session. -/
  start : Startup → StateM τ (Except ErrorInfo Unit)
  /-- Prepare a statement. -/
  prepare : String → StateM τ (Except ErrorInfo Prepared)
  /-- Execute a prepared statement. -/
  execute : Prepared → List Cell → StateM τ Answer
  /-- Run a command. -/
  command : String → StateM τ (Except ErrorInfo Unit)

/-- The count of rows that a tag tells: its last word, if that is a number of 64 bits. -/
def tagCount (tag : String) : Nat :=
  match (Text.splitAtEach ' ' tag.toList).getLast?.bind Numeral.readUnsigned? with
  | some n => if n < Numeral.pow2 64 then n else 0
  | none => 0

end BoundSql.Postgres
