import BoundSql.BindMap
import BoundSql.Error
import BoundSql.Row

/-!
# Connections

What an engine needs from a database: preparing statements, controlling a transaction and asking
for what the session knows. A connection is a set of actions on a state; a prepared statement is
a value of its own, which binding and executing change.
-/

namespace BoundSql

/-- What a connection knows about itself and its server. -/
structure ServerInfo where
  /-- The version of the server. -/
  serverVersion : String
  /-- The name of the driver. -/
  driver : String
  /-- The version of the client. -/
  clientVersion : String
  /-- The version of the protocol that both speak. -/
  protocolVersion : String
  /-- The encoding of texts in the database. -/
  serverEncoding : String
  /-- The encoding of texts that are sent. -/
  clientEncoding : String
  /-- Whether the connection is open. -/
  connection : String
  deriving DecidableEq, Repr

/-- An action on the state of a connection. -/
abbrev ConnectionM (σ ε α : Type) : Type := ExceptT ε (StateM σ) α

/-- An action on a prepared statement; what it has changed stays changed if it fails. -/
abbrev StatementM (σ St ε α : Type) : Type := ExceptT ε (StateT St (StateM σ)) α

/-- A connection with states `σ` and prepared statements `St`. -/
structure Connection (σ St : Type) where
  /-- Prepare a statement. -/
  prepare : String → ConnectionM σ ErrorInfo St
  /-- Bind a value to a placeholder, which is named with its colon. -/
  bind : String → Bound → StatementM σ St Error Unit
  /-- Run the statement with its values; the result is the count of rows. Each run replaces the
  fetched rows. -/
  execute : StatementM σ St ErrorInfo Nat
  /-- Take the rows that the last run has fetched. -/
  takeRows : St → List Row × St
  /-- How many rows the last run has changed or fetched. -/
  rowCount : St → Nat
  /-- Begin a transaction. -/
  startTransaction : ConnectionM σ Error Unit
  /-- Make the changes of the transaction last. -/
  commit : ConnectionM σ Error Unit
  /-- Undo the changes of the transaction. -/
  rollBack : ConnectionM σ Error Unit
  /-- The last number that a sequence has given, or that any has given in this session. -/
  lastInsertId : Option String → ConnectionM σ Error (Option String)
  /-- What the connection knows about itself. -/
  serverInfo : ConnectionM σ Error ServerInfo

/-- An action on a connection, among actions on a prepared statement. -/
def ConnectionM.onStatement {σ St ε α : Type} (action : ConnectionM σ ε α) :
    StatementM σ St ε α :=
  ExceptT.mk (StateT.lift action.run)

/-- Succeed or fail as a result says. -/
def liftExcept {σ ε α : Type} : Except ε α → ConnectionM σ ε α
  | .ok a => pure a
  | .error e => throw e

/-- Carry out an action that can fail, and go on with its result either way. -/
def outcome {m : Type → Type} [Monad m] {ε δ α : Type} (action : ExceptT ε m α) :
    ExceptT δ m (Except ε α) :=
  ExceptT.lift action.run

namespace Connection

variable {σ St : Type}

/-- Bind values to placeholders, one after the other. -/
def bindAll (conn : Connection σ St) (binds : BindMap) : StatementM σ St Error Unit :=
  binds.forM fun (name, bound) => conn.bind name bound

/-- Undo the changes of a transaction because of a failure. The result is that failure, or one that
tells of both if undoing fails as well. -/
def rollBackWith (conn : Connection σ St) (failure : Error) : StateM σ Error := do
  match ← conn.rollBack.run with
  | .ok () => return failure
  | .error e => return .rollBackFailed failure.text e

end Connection

end BoundSql
