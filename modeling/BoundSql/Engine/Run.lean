import BoundSql.Engine.Basic

/-!
# Running statements

A statement is prepared, its values are bound, and it is executed. In a transaction of its own, a
callback has the statement before it is executed, and its verdict decides between a commit and
rolling back. An action puts any number of operations into one transaction.
-/

namespace BoundSql

/-- What a callback or an action asks for. -/
inductive Verdict where
  /-- That the changes last. -/
  | commit
  /-- That the changes are undone. -/
  | abort
  deriving DecidableEq, Repr

/-- The failure that the result of a callback or an action makes of its transaction. -/
def Verdict.failure? : Except Error Verdict → Option Error
  | .ok .commit => none
  | .ok .abort => some .transactionAborted
  | .error e => some (.transaction e)

/-- Execute a statement in a transaction of its own, after a callback. The database can refuse the
statement; anything else that goes wrong is a failure. -/
def Connection.transact {σ St : Type} (conn : Connection σ St)
    (callback : StatementM σ St Error Verdict) :
    StatementM σ St Error (Except ErrorInfo Nat) := do
  conn.startTransaction.onStatement
  match Verdict.failure? (← outcome callback) with
  | some failure => throw (← conn.rollBackWith failure)
  | none =>
    match ← outcome conn.execute with
    | .ok count =>
      conn.commit.onStatement
      return .ok count
    | .error info =>
      match ← outcome conn.rollBack.onStatement with
      | .ok () => return .error info
      | .error e => throw (.rollBackFailed info.text e)

namespace Engine

variable {σ St : Type}

/-- An action on the connection of an engine. -/
def onConnection {α : Type} (action : StateM σ α) : EngineM σ St α := do
  let engine ← get
  let (result, connection) := action engine.connection
  set { engine with connection }
  return result

/-- An action on the connection of an engine that can fail. -/
def attempt {α : Type} (action : ConnectionM σ Error α) : EngineM σ St α := do
  match ← onConnection action.run with
  | .ok a => return a
  | .error e => throw e

/-- Keep what the database reported about the last statement. -/
def refuse (info : ErrorInfo) : EngineM σ St Bool := do
  modify fun engine => { engine with error := some info.message, failure := some info }
  return false

/-- Prepare a statement, bind its values and carry it out. The result says whether it was carried
out; then it is kept. -/
def send (conn : Connection σ St) (carryOut : StatementM σ St Error (Except ErrorInfo Nat))
    (c : Compiled) : EngineM σ St Bool := do
  match ← onConnection (conn.prepare c.sql).run with
  | .error info => refuse info
  | .ok statement =>
    match ← onConnection ((conn.bindAll c.binds >>= fun _ => carryOut).run statement) with
    | (.error e, _) => throw e
    | (.ok (.error info), _) => refuse info
    | (.ok (.ok _), statement) =>
      modify fun engine => { engine with statement := some statement }
      return true

/-- Carry out a statement, or show it, as the engine is told to. -/
def run (conn : Connection σ St) (carryOut : StatementM σ St Error (Except ErrorInfo Nat))
    (c : Compiled) : EngineM σ St Bool := do
  modify fun engine => { engine with statement := none, error := none, failure := none }
  let engine ← get
  if engine.config.testMode then
    set { engine with queryString := some (engine.literal c) }
    return false
  match engine.mode with
  | .session =>
    set { engine with collected := engine.collected ++ [engine.literal c] }
    return false
  | .once =>
    set { engine with queryString := some (engine.literal c), mode := .off }
    return false
  | .off =>
    -- What is sent is logged before it is known whether it is refused.
    let kept := if engine.config.logging then engine.history else []
    set { engine with history := kept ++ [c] }
    send conn carryOut c

/-- Run a statement. The result says whether it was run and nothing was refused. -/
def exec (conn : Connection σ St) (c : Compiled) : EngineM σ St Bool :=
  run conn (outcome conn.execute) c

/-- Run a statement in a transaction of its own, after a callback. -/
def execWith (conn : Connection σ St) (callback : StatementM σ St Error Verdict) (c : Compiled) :
    EngineM σ St Bool :=
  run conn (conn.transact callback) c

/-- Carry out operations in one transaction. -/
def action (conn : Connection σ St) (body : EngineM σ St Verdict) : EngineM σ St Unit := do
  attempt conn.startTransaction
  match Verdict.failure? (← outcome body) with
  | none => attempt conn.commit
  | some failure => throw (← onConnection (conn.rollBackWith failure))

/-- Use the statement that is kept, if there is one. -/
def withStatement {α : Type} (use : St → α × St) : EngineM σ St (Option α) := do
  let engine ← get
  match engine.statement with
  | none => return none
  | some statement =>
    let (a, statement) := use statement
    set { engine with statement := some statement }
    return some a

/-- Execute once more the statement that is kept, if there is one. -/
def executeAgain (conn : Connection σ St) : EngineM σ St (Option (Except ErrorInfo Nat)) := do
  let engine ← get
  match engine.statement with
  | none => return none
  | some statement =>
    let (result, statement) ← onConnection (conn.execute.run statement)
    modify fun engine => { engine with statement := some statement }
    return some result

/-- Run a query and fetch its rows. -/
def select (conn : Connection σ St) (q : Query) : EngineM σ St (Option (List Row)) := do
  if ← exec conn (← compile (.select q)) then withStatement conn.takeRows else return none

/-- Run a query and turn each of its rows into what is wanted. -/
def selectAs {α : Type} (conn : Connection σ St) (ofRow : Row → Except Error α) (q : Query) :
    EngineM σ St (Option (List α)) := do
  match ← select conn q with
  | none => return none
  | some rows =>
    match rows.mapM ofRow with
    | .ok items => return some items
    | .error e => throw e

/-- Run a statement that changes rows; the result is their count. -/
def change (conn : Connection σ St) (statement : Statement) : EngineM σ St (Option Nat) := do
  if ← exec conn (← compile statement) then
    withStatement fun st => (conn.rowCount st, st)
  else return none

/-- Add rows to a table. -/
def insert (conn : Connection σ St) (table : String) (rows : List Assignments) :
    EngineM σ St (Option Nat) :=
  change conn (.insert table rows)

/-- Change rows of a table. -/
def update (conn : Connection σ St) (table : String) (assignments : Assignments)
    (filter : Option Filter) : EngineM σ St (Option Nat) :=
  change conn (.update table assignments filter)

/-- Remove rows from a table. -/
def delete (conn : Connection σ St) (table : String) (filter : Option Filter) :
    EngineM σ St (Option Nat) :=
  change conn (.delete table filter)

/-- Run a fragment. -/
def query (conn : Connection σ St) (fragment : Fragment) : EngineM σ St Bool := do
  exec conn (← compile (.raw fragment))

/-- The last number that a sequence has given; there is none in test mode. -/
def lastInsertId (conn : Connection σ St) (sequence : Option String) :
    EngineM σ St (Option String) := do
  if (← get).config.testMode then return none else attempt (conn.lastInsertId sequence)

/-- What the connection knows about itself. -/
def info (conn : Connection σ St) : EngineM σ St ServerInfo := attempt conn.serverInfo

end Engine

end BoundSql
