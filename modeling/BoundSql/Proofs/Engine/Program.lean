import BoundSql.Engine.Run

/-!
# Programs over an engine

What can be put into one transaction are programs: they carry out the operations of an engine one
after the other, and each step may depend on the results of all steps before it and on what the
engine shows. The same for callbacks, which have a statement in place of an engine. Both are data
here, so that something can be said of all of them by induction.

* `Callback.run` and `Program.run`: what they do;
* `Program.Commits`: whether a program itself comes to a commit, that is, whether a transaction that
  is begun inside it is committed inside it.
-/

namespace BoundSql

/-- What a callback does with the statement before it is executed. -/
inductive Callback where
  /-- End with a verdict, or fail. -/
  | done (result : Except Error Verdict)
  /-- Bind a value and go on. -/
  | bind (name : String) (bound : Bound) (next : Except Error Unit → Callback)
  /-- Execute the statement and go on. -/
  | execute (next : Except ErrorInfo Nat → Callback)
  /-- Take the rows that were fetched and go on. -/
  | takeRows (next : List Row → Callback)
  /-- Ask for the count of rows and go on. -/
  | rowCount (next : Nat → Callback)

/-- Carry out a callback. -/
def Callback.run {σ St : Type} (conn : Connection σ St) : Callback → StatementM σ St Error Verdict
  | done (.ok verdict) => pure verdict
  | done (.error e) => throw e
  | bind name bound next => do (next (← outcome (conn.bind name bound))).run conn
  | execute next => do (next (← outcome conn.execute)).run conn
  | takeRows next => do
    let (rows, statement) := conn.takeRows (← getThe St)
    set statement
    (next rows).run conn
  | rowCount next => do (next (conn.rowCount (← getThe St))).run conn

/-- An operation of an engine. -/
inductive Operation where
  /-- Run a query and fetch its rows. -/
  | select (query : Query)
  /-- Add rows to a table. -/
  | insert (table : String) (rows : List Assignments)
  /-- Change rows of a table. -/
  | update (table : String) (assignments : Assignments) (filter : Option Filter)
  /-- Remove rows from a table. -/
  | delete (table : String) (filter : Option Filter)
  /-- Run a fragment. -/
  | query (fragment : Fragment)
  /-- Run a statement that is given. -/
  | exec (statement : Compiled)
  /-- Run a statement that is given in a transaction of its own. -/
  | execWith (statement : Compiled) (callback : Callback)
  /-- Execute the statement that is kept once more. -/
  | executeAgain
  /-- Ask for the last number of a sequence. -/
  | lastInsertId (sequence : Option String)
  /-- Ask what the connection knows about itself. -/
  | info
  /-- Show the next statement. -/
  | debug
  /-- Collect statements. -/
  | beginDebug
  /-- Stop collecting. -/
  | debugLog

/-- What an operation answers. -/
inductive Answer where
  /-- Rows, if the statement was run. -/
  | rows (rows : Option (List Row))
  /-- A count, if the statement was run. -/
  | count (count : Option Nat)
  /-- Whether the statement was run. -/
  | ran (ran : Bool)
  /-- What executing the statement once more gave, if there is one. -/
  | again (result : Option (Except ErrorInfo Nat))
  /-- A number of a sequence. -/
  | number (number : Option String)
  /-- What the connection knows. -/
  | info (info : ServerInfo)
  /-- Statements that were collected. -/
  | collected (statements : List String)
  /-- Nothing. -/
  | nothing

/-- Carry out an operation. -/
def Operation.run {σ St : Type} (conn : Connection σ St) : Operation → EngineM σ St Answer
  | select q => Answer.rows <$> Engine.select conn q
  | insert table rows => Answer.count <$> Engine.insert conn table rows
  | update table assignments filter => Answer.count <$> Engine.update conn table assignments filter
  | delete table filter => Answer.count <$> Engine.delete conn table filter
  | query fragment => Answer.ran <$> Engine.query conn fragment
  | exec statement => Answer.ran <$> Engine.exec conn statement
  | execWith statement callback =>
    Answer.ran <$> Engine.execWith conn (callback.run conn) statement
  | executeAgain => Answer.again <$> Engine.executeAgain conn
  | lastInsertId sequence => Answer.number <$> Engine.lastInsertId conn sequence
  | info => Answer.info <$> Engine.info conn
  | debug => do
    modify Engine.debug
    return .nothing
  | beginDebug => do
    modify Engine.beginDebug
    return .nothing
  | debugLog => do
    let (collected, engine) := (← get).debugLog
    set engine
    return .collected collected

/-- Whether a statement is sent and not only shown. -/
def Engine.Sends {σ St : Type} (e : Engine σ St) : Prop :=
  e.config.testMode = false ∧ e.mode = .off

/-- What a program sees of an engine: all but the connection. -/
def Engine.shown {σ St : Type} (e : Engine σ St) : Engine Unit St := { e with connection := () }

/-- What is put into one transaction. -/
inductive Program (St : Type) where
  /-- End with a verdict, or fail. -/
  | done (result : Except Error Verdict)
  /-- Carry out an operation and go on, whether it fails or not. -/
  | perform (operation : Operation)
      (next : Except Error Answer → Engine Unit St → Program St)
  /-- Carry out another program in a transaction inside and go on, whether it fails or not. -/
  | nested (body : Program St) (next : Except Error Unit → Engine Unit St → Program St)

namespace Program

variable {σ St : Type}

/-- Carry out a program. -/
def run (conn : Connection σ St) : Program St → EngineM σ St Verdict
  | done (.ok verdict) => pure verdict
  | done (.error e) => throw e
  | perform operation next => do
    let result ← outcome (operation.run conn)
    (next result (← get).shown).run conn
  | nested body next => do
    let result ← outcome (Engine.action conn (body.run conn))
    (next result (← get).shown).run conn

/-- After an operation a program goes on from the engine that the operation leaves. -/
theorem run_perform (conn : Connection σ St) (op : Operation)
    (next : Except Error Answer → Engine Unit St → Program St) (e : Engine σ St) :
    (perform op next).run conn e =
      (next (op.run conn e).1 (op.run conn e).2.shown).run conn (op.run conn e).2 := rfl

/-- After a transaction inside a program goes on from the engine that the transaction leaves. -/
theorem run_nested (conn : Connection σ St) (body : Program St)
    (next : Except Error Unit → Engine Unit St → Program St) (e : Engine σ St) :
    (nested body next).run conn e =
      (next (Engine.action conn (body.run conn) e).1
        (Engine.action conn (body.run conn) e).2.shown).run conn
          (Engine.action conn (body.run conn) e).2 := rfl

end Program

namespace Connection

variable {σ St : Type}

/-- Whether a statement is prepared and gets its values, and `P` holds of what is there then. -/
def Reaches (conn : Connection σ St) (c : Compiled) (P : St → σ → Prop) (s : σ) : Prop :=
  match conn.prepare c.sql s with
  | (.ok statement, s) =>
    match conn.bindAll c.binds statement s with
    | ((.ok (), statement), s) => P statement s
    | _ => False
  | _ => False

/-- Whether a transaction is begun, and `P` holds of what is there then. -/
def Begins (conn : Connection σ St) (P : σ → Prop) (s : σ) : Prop :=
  match conn.startTransaction s with
  | (.ok (), s) => P s
  | _ => False

/-- Whether the transaction of a single statement comes to a commit: it is begun, the callback asks
for a commit, and the statement can be executed. -/
def Commits (conn : Connection σ St) (callback : Callback) (statement : St) : σ → Prop :=
  conn.Begins fun s =>
    match callback.run conn statement s with
    | ((.ok .commit, statement), s) => (conn.execute statement s).1.1.isOk
    | _ => False

end Connection

/-- Whether an operation comes to a commit: it runs a statement in a transaction of its own, which
is sent and not only shown. -/
def Operation.Commits {σ St : Type} (conn : Connection σ St) (e : Engine σ St) : Operation → Prop
  | execWith c callback =>
    e.Sends ∧ conn.Reaches c (conn.Commits callback) e.connection
  | _ => False

namespace Program

variable {σ St : Type}

/-- Whether a program comes to a commit in one of its steps: in an operation, or in a transaction
inside, be it before its end or at its end. -/
def Commits (conn : Connection σ St) : Program St → Engine σ St → Prop
  | done _, _ => False
  | perform operation next, e =>
    operation.Commits conn e ∨
      let after := operation.run conn e
      (next after.1 after.2.shown).Commits conn after.2
  | nested body next, e =>
    conn.Begins (fun s =>
      body.Commits conn { e with connection := s } ∨
        (body.run conn { e with connection := s }).1 = .ok .commit) e.connection ∨
      let after := Engine.action conn (body.run conn) e
      (next after.1 after.2.shown).Commits conn after.2

end Program

end BoundSql
