import BoundSql.Keyed
import BoundSql.Postgres.Server

/-!
# Scripted servers

A server that follows a script and keeps a journal of what it was sent. Statements are described in
the order in which they are prepared, and the executions of a statement in their order.
-/

namespace BoundSql.Postgres

/-- How a scripted server treats a statement. -/
structure StatementScript where
  /-- The types of its parameters. -/
  params : List ColumnType := []
  /-- The names and types of its columns. -/
  columns : List (String × ColumnType) := []
  /-- The failure of preparing it. -/
  prepareError : Option ErrorInfo := none
  /-- What its executions send; the last of them goes on for ever. -/
  runs : List Answer := []

/-- How a scripted server behaves. -/
structure ServerScript where
  /-- The failure of starting a session. -/
  startupError : Option ErrorInfo := none
  /-- The failures of commands. -/
  commandErrors : Keyed String ErrorInfo := []
  /-- The statements, in the order in which they are prepared. -/
  statements : List StatementScript := []

/-- An entry of the journal. -/
inductive ServerEvent where
  /-- A session was started. -/
  | start (startup : Startup)
  /-- A statement was prepared. -/
  | prepare (sql : String)
  /-- A statement was executed with values. -/
  | execute (cells : List Cell)
  /-- A command was run. -/
  | command (sql : String)
  deriving DecidableEq

/-- The state of a scripted server. -/
structure ScriptedServer where
  /-- How it behaves. -/
  script : ServerScript := {}
  /-- How many statements were prepared. -/
  prepared : Nat := 0
  /-- How often each of them was executed. -/
  executed : Keyed Nat Nat := []
  /-- What happened, in order. -/
  journal : List ServerEvent := []

namespace ScriptedServer

/-- Add an entry to the journal. -/
def note (event : ServerEvent) (s : ScriptedServer) : ScriptedServer :=
  { s with journal := s.journal ++ [event] }

/-- The treatment of the statement that was prepared as number `handle`. -/
def statement (s : ScriptedServer) (handle : Nat) : StatementScript :=
  s.script.statements.getD handle {}

/-- Fail with what the script says. -/
def failWith : Option ErrorInfo → Except ErrorInfo Unit
  | some info => .error info
  | none => .ok ()

/-- Prepare the next statement. -/
def prepare (sql : String) (s : ScriptedServer) : Except ErrorInfo Prepared × ScriptedServer :=
  let treatment := s.statement s.prepared
  let result := (failWith treatment.prepareError).map fun _ =>
    ⟨s.prepared, treatment.params, treatment.columns⟩
  (result, { s.note (.prepare sql) with prepared := s.prepared + 1 })

/-- Execute a statement. -/
def execute (p : Prepared) (cells : List Cell) (s : ScriptedServer) : Answer × ScriptedServer :=
  let runs := (s.statement p.handle).runs
  let count := (Keyed.get? p.handle s.executed).getD 0
  (runs.getD (min count (runs.length - 1)) {},
    { s.note (.execute cells) with executed := Keyed.put p.handle (count + 1) s.executed })

end ScriptedServer

/-- The server that follows the script in its state. -/
def scriptedServer : Server ScriptedServer where
  start startup := fun s =>
    (ScriptedServer.failWith s.script.startupError, s.note (.start startup))
  prepare := ScriptedServer.prepare
  execute := ScriptedServer.execute
  command sql := fun s =>
    (ScriptedServer.failWith (Keyed.get? sql s.script.commandErrors), s.note (.command sql))

end BoundSql.Postgres
