import BoundSql.Connection.Basic

/-!
# Scripted connections

A connection that follows a script and keeps a journal of what it was asked to do. The script says
which calls fail and which rows each run of a statement fetches; it is looked at anew by every
call.
-/

namespace BoundSql.Connection

/-- How a scripted connection behaves. -/
structure Script where
  /-- The failure of preparing. -/
  failPrepare : Option ErrorInfo := none
  /-- The failure of binding; the name of the placeholder follows it. -/
  failBind : Option String := none
  /-- The failure of running. -/
  failExecute : Option ErrorInfo := none
  /-- The failure of beginning a transaction. -/
  failStart : Option String := none
  /-- The failure of a commit. -/
  failCommit : Option String := none
  /-- The failure of rolling back. -/
  failRollBack : Option String := none
  /-- The rows that each run fetches. -/
  rows : List Row := []
  /-- The count of rows of each run, if it is not the number of its rows. -/
  affected : Option Nat := none
  /-- The last number of a sequence, or of any. -/
  lastInsertId : Option String → Option String := fun _ => none
  /-- What the connection knows about itself. -/
  serverInfo : Except Error ServerInfo := .error (.connection "no server")

/-- An entry of the journal. -/
inductive Event where
  /-- A statement was prepared. -/
  | prepare (sql : String)
  /-- A statement was run with the values that were bound to it, in the order of binding. -/
  | execute (values : List (String × Bound))
  /-- A transaction was begun. -/
  | start
  /-- A transaction was committed. -/
  | commit
  /-- A transaction was rolled back. -/
  | rollBack

/-- The state of a scripted connection. -/
structure Scripted where
  /-- How it behaves. -/
  script : Script := {}
  /-- What happened, in order. -/
  journal : List Event := []

/-- A statement of a scripted connection. -/
structure ScriptedStatement where
  /-- The values bound so far, in order. -/
  values : List (String × Bound) := []
  /-- The rows that were fetched. -/
  rows : List Row := []
  /-- The count of rows of the last run. -/
  rowCount : Nat := 0

namespace Scripted

/-- Add an entry to the journal. -/
def note (event : Event) (s : Scripted) : Scripted := { s with journal := s.journal ++ [event] }

/-- Note a call; fail if the script says so. -/
def call {ε : Type} (event : Event) (failure : Script → Option ε) :
    ConnectionM Scripted ε Unit := do
  modify (note event)
  match failure (← get).script with
  | some e => throw e
  | none => pure ()

/-- Run a statement. -/
def execute : StatementM Scripted ScriptedStatement ErrorInfo Nat := do
  let statement ← getThe ScriptedStatement
  modifyThe Scripted (note (.execute statement.values))
  let script := (← getThe Scripted).script
  match script.failExecute with
  | some info => throw info
  | none =>
    let count := script.affected.getD script.rows.length
    set { statement with rows := script.rows, rowCount := count }
    return count

/-- Bind a value. -/
def bind (name : String) (bound : Bound) : StatementM Scripted ScriptedStatement Error Unit := do
  match (← getThe Scripted).script.failBind with
  | some message => throw (.other (message ++ " " ++ name))
  | none =>
    modifyThe ScriptedStatement fun statement =>
      { statement with values := statement.values ++ [(name, bound)] }

end Scripted

/-- The connection that follows the script in its state. -/
def scripted : Connection Scripted ScriptedStatement where
  prepare sql := do
    Scripted.call (.prepare sql) (·.failPrepare)
    return {}
  bind := Scripted.bind
  execute := Scripted.execute
  takeRows statement := (statement.rows, { statement with rows := [] })
  rowCount statement := statement.rowCount
  startTransaction := Scripted.call .start fun script => script.failStart.map .connection
  commit := Scripted.call .commit fun script => script.failCommit.map .connection
  rollBack := Scripted.call .rollBack fun script => script.failRollBack.map .connection
  lastInsertId sequence := return (← get).script.lastInsertId sequence
  serverInfo := do liftExcept (← get).script.serverInfo

end BoundSql.Connection
