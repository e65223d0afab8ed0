import BoundSql.Connection.Basic
import BoundSql.Engine.Config
import BoundSql.Statement.Compiler

/-!
# Engines

An engine compiles statements and runs them on a connection. What the database refuses is no
failure of an operation: the engine keeps the report, and the operation has no result. Only
statements that do not compile and transactions that go wrong are failures.

In place of being run, statements can be shown: always in test mode, once after `debug`, and all of
them between `beginDebug` and `debugLog`.
-/

namespace BoundSql

/-- What happens to the next statement. -/
inductive DebugMode where
  /-- It is run. -/
  | off
  /-- It is shown, and later ones are run. -/
  | once
  /-- It is collected, like all that follow. -/
  | session
  deriving DecidableEq, Repr

/-- An engine over a connection with states `σ` and prepared statements `St`. -/
structure Engine (σ St : Type) where
  /-- The state of the connection. -/
  connection : σ
  /-- How the engine behaves. -/
  config : EngineConfig := {}
  /-- Compiles the statements. -/
  compiler : Compiler := {}
  /-- The last statement, if it was run and nothing was refused. -/
  statement : Option St := none
  /-- The message of the database about the last statement, if it was refused. -/
  error : Option String := none
  /-- What the database reported about the last statement, if it was refused. -/
  failure : Option ErrorInfo := none
  /-- The statements that were run, or the last of them. -/
  history : List Compiled := []
  /-- What happens to the next statement. -/
  mode : DebugMode := .off
  /-- The statements that were collected, as they are shown. -/
  collected : List String := []
  /-- The statement that was last shown in place of being run. -/
  queryString : Option String := none

/-- An operation of an engine. -/
abbrev EngineM (σ St α : Type) : Type := ExceptT Error (StateM (Engine σ St)) α

namespace Engine

variable {σ St : Type}

/-- An engine that has run nothing yet. -/
def new (connection : σ) (config : EngineConfig) : Engine σ St :=
  { connection, config, compiler := { quoter := ⟨config.tablePrefix⟩ } }

/-- A statement as it is shown. -/
def literal (e : Engine σ St) (c : Compiled) : String :=
  Sql.literalSql c.sql c.binds e.config.literalStyle

/-- The last statement that was run, as it is shown. -/
def last (e : Engine σ St) : Option String := e.history.getLast?.map e.literal

/-- The statements that were run and are kept, as they are shown. -/
def log (e : Engine σ St) : List String := e.history.map e.literal

/-- Show the next statement in place of running it. -/
def debug (e : Engine σ St) : Engine σ St := { e with mode := .once }

/-- Collect statements in place of running them. -/
def beginDebug (e : Engine σ St) : Engine σ St := { e with mode := .session }

/-- Stop collecting, and hand out what was collected. -/
def debugLog (e : Engine σ St) : List String × Engine σ St :=
  (e.collected, { e with mode := .off, collected := [] })

/-- Compile a statement; it uses up placeholders of the engine. -/
def compile (statement : Statement) : EngineM σ St Compiled := do
  let engine ← get
  let (result, compiler) := engine.compiler.compile statement
  set { engine with compiler }
  match result with
  | .ok compiled => return compiled
  | .error e => throw e

end Engine

end BoundSql
