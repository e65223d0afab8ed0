import BoundSql.Connection.Basic
import BoundSql.Postgres.Options
import BoundSql.Postgres.Server
import BoundSql.Sql.Identifier
import BoundSql.Sql.Positional
import BoundSql.Wire.Decode

/-!
# The PostgreSQL driver

The driver runs statements with named placeholders on a server that knows numbered parameters only.
Values are put into their binary form before anything is sent, so a value that does not fit, or
that is missing, never reaches the server.
-/

namespace BoundSql.Postgres

/-- What can go wrong between driver and server. -/
inductive DriverError where
  /-- The server reports a failure. -/
  | server (info : ErrorInfo)
  /-- The settings do not fit together. -/
  | settings
  /-- The statement has another number of parameters than values. -/
  | parameterCount (expected given : Nat)
  /-- A value cannot be put into the binary form of its parameter. -/
  | encoding (index : Nat)
  /-- A value of a row cannot be read. -/
  | decoding (index : Nat)
  /-- A row lacks a column. -/
  | missingColumn (index : Nat)
  /-- There is not exactly one row. -/
  | rowCount
  deriving DecidableEq

namespace DriverError

/-- The text of a failure. What the server reports is not part of it. -/
def text : DriverError → String
  | server _ => "db error"
  | settings => "invalid configuration"
  | parameterCount expected given =>
    "expected " ++ toString expected ++ " parameters but got " ++ toString given
  | encoding index => "error serializing parameter " ++ toString index
  | decoding index => "error deserializing column " ++ toString index
  | missingColumn index => "invalid column \x60" ++ toString index ++ "\x60"
  | rowCount => "query returned an unexpected number of rows"

/-- The failure as a report. One that is not the server's has a general code. -/
def info : DriverError → ErrorInfo
  | server info => info
  | e => { sqlstate := "HY000", message := e.text }

end DriverError

variable {τ : Type}

/-- Fail in the library's own terms. -/
def orQueryError {α : Type} (action : StateM τ (Except DriverError α)) :
    ConnectionM τ Error α := do
  match ← outcome (ExceptT.mk action) with
  | .ok a => return a
  | .error e => throw (.query e.text)

/-- Put values into the binary forms of parameters, counted from `index`. -/
def encodeAll {α : Type} (encode? : ColumnType → α → Option Cell) :
    Nat → List ColumnType → List α → Except DriverError (List Cell)
  | index, type :: types, value :: values =>
    match encode? type value with
    | some cell => (encodeAll encode? (index + 1) types values).map (cell :: ·)
    | none => .error (.encoding index)
  | _, _, _ => .ok []

/-- Execute a prepared statement with values. -/
def Server.send (server : Server τ) {α : Type} (encode? : ColumnType → α → Option Cell)
    (prepared : Prepared) (values : List α) : ConnectionM τ DriverError Answer :=
  if values.length ≠ prepared.params.length then
    throw (.parameterCount prepared.params.length values.length)
  else
    match encodeAll encode? 0 prepared.params values with
    | .ok cells => ExceptT.lift (server.execute prepared cells)
    | .error e => throw e

/-- The binary form of a bound value, if it has one. -/
def boundCell? (type : ColumnType) (bound : Bound) : Option Cell := (bound.encode type).toOption

/-- The binary form of a text, if it has one. -/
def textCell? (type : ColumnType) (text : String) : Option Cell :=
  (Wire.stringBytes? type text).map some

/-- A statement with named placeholders, prepared on a server that numbers them. -/
structure NumberedStatement where
  /-- What the server has prepared. -/
  prepared : Prepared
  /-- The name and the value of each numbered parameter. -/
  slots : List (String × Option Bound)
  /-- The rows of the last execution. -/
  rows : List Row := []
  /-- The count of rows of the last execution. -/
  affected : Nat := 0

namespace NumberedStatement

/-- Bind a value to a name; a name without a parameter is passed over. -/
def bind (name : String) (bound : Bound) (s : NumberedStatement) : NumberedStatement :=
  { s with slots := s.slots.map fun slot => if slot.1 = name then (name, some bound) else slot }

/-- The values of all parameters, or the report for the first one without a value. -/
def values : List (String × Option Bound) → Except ErrorInfo (List Bound)
  | [] => .ok []
  | (_, some bound) :: rest => (values rest).map (bound :: ·)
  | (name, none) :: _ => .error { sqlstate := "07002", message := "no value bound for " ++ name }

end NumberedStatement

/-- The values of a row, in columns counted from `index`. -/
def readCells (index : Nat) :
    List (String × ColumnType) → List Cell → Except ErrorInfo (List Value)
  | (name, type) :: columns, cell :: cells =>
    match Wire.receive? type cell with
    | some value => (readCells (index + 1) columns cells).map (value :: ·)
    | none => .error {
        sqlstate := "22000"
        message := "cannot decode column " ++ name
        detail := some (DriverError.decoding index).text }
  | _, _ => .ok []

/-- The rows of an answer. -/
def readRows (columns : List (String × ColumnType)) (rows : List (List Cell)) :
    Except ErrorInfo (List Row) :=
  rows.mapM fun cells => (readCells 0 columns cells).map (⟨columns.map Prod.fst, ·⟩)

/-- The rows and the count of an answer. The rows are read before its ending is looked at. -/
def readAnswer (columns : List (String × ColumnType)) (answer : Answer) :
    Except ErrorInfo (List Row × Nat) := do
  let rows ← readRows columns answer.rows
  match answer.ending with
  | .ok tag => return (rows, tagCount tag)
  | .error info => throw info

namespace Server

/-- Execute a statement with the values of its slots. -/
def runStatement (server : Server τ) : StatementM τ NumberedStatement ErrorInfo Nat := do
  let statement ← get
  match NumberedStatement.values statement.slots with
  | .error info => throw info
  | .ok values =>
    match ← outcome (server.send boundCell? statement.prepared values).onStatement with
    | .error e => throw e.info
    | .ok answer =>
      match readAnswer statement.prepared.columns answer with
      | .error info => throw info
      | .ok (rows, affected) =>
        set { statement with rows, affected }
        return affected

/-- Prepare a statement with named placeholders. -/
def prepareNamed (server : Server τ) (sql : String) :
    ConnectionM τ ErrorInfo NumberedStatement := do
  let numbered := Sql.positional sql
  let prepared ← ExceptT.mk (server.prepare numbered.sql)
  return { prepared, slots := numbered.names.map fun name => (name, none) }

/-- The only row of a query with values that are texts, and the types of its columns. -/
def queryRow (server : Server τ) (sql : String) (values : List String) :
    ConnectionM τ DriverError (List ColumnType × List Cell) := do
  match ← outcome (ExceptT.mk (server.prepare sql)) with
  | .error info => throw (.server info)
  | .ok prepared =>
    let answer ← server.send textCell? prepared values
    -- A second row is noticed before the ending is.
    match answer.rows, answer.ending with
    | _ :: _ :: _, _ => throw .rowCount
    | _, .error info => throw (.server info)
    | [], .ok _ => throw .rowCount
    | [row], .ok _ => return (prepared.columns.map Prod.snd, row)

/-- The text in a column of a row, if there is a value. -/
def readText (row : List ColumnType × List Cell) (index : Nat) :
    Except DriverError (Option String) :=
  match row.1[index]?, row.2[index]? with
  | some type, some cell =>
    if type.isText || type.isTree then
      match cell with
      | none => .ok none
      | some bytes =>
        match Wire.readString? type bytes with
        | some text => .ok (some text)
        | none => .error (.decoding index)
    else .error (.decoding index)
  | _, _ => .error (.missingColumn index)

/-- The text in a column of a row, which must have a value. -/
def requireText (row : List ColumnType × List Cell) (index : Nat) : Except DriverError String := do
  match ← readText row index with
  | some text => return text
  | none => throw (.decoding index)

/-- The code for asking for a number before a sequence has given any. -/
def notYetDefined : String := "55000"

/-- The last number of a sequence, or of any. -/
def lastNumber (server : Server τ) (sequence : Option String) :
    ConnectionM τ DriverError (Option String) := do
  let row ← outcome (match sequence with
    | some name => server.queryRow "SELECT currval($1::text::regclass)::text" [name]
    | none => server.queryRow "SELECT lastval()::text" [])
  match row with
  | .ok row => liftExcept (readText row 0)
  | .error (.server info) =>
    if info.sqlstate = notYetDefined then return none else throw (.server info)
  | .error e => throw e

/-- What the session knows about itself. -/
def sessionInfo (server : Server τ) : ConnectionM τ DriverError ServerInfo := do
  let row ← server.queryRow
    ("SELECT current_setting('server_version'), current_setting('server_encoding'), " ++
      "current_setting('client_encoding')") []
  return {
    serverVersion := ← liftExcept (requireText row 0)
    driver := "postgres"
    clientVersion := "pgshape/0.1.0"
    protocolVersion := "3.0"
    serverEncoding := ← liftExcept (requireText row 1)
    clientEncoding := ← liftExcept (requireText row 2)
    connection := "open" }

/-- Run a command. -/
def runCommand (server : Server τ) (sql : String) : ConnectionM τ Error Unit := do
  match ← server.command sql with
  | .ok () => return ()
  | .error info => throw (.query (DriverError.server info).text)

end Server

/-- The connection to a server. -/
def connection (server : Server τ) : Connection τ NumberedStatement where
  prepare sql := server.prepareNamed sql
  bind name bound := modify (NumberedStatement.bind name bound)
  execute := server.runStatement
  takeRows statement := (statement.rows, { statement with rows := [] })
  rowCount statement := statement.affected
  startTransaction := server.runCommand "BEGIN"
  commit := server.runCommand "COMMIT"
  rollBack := server.runCommand "ROLLBACK"
  lastInsertId sequence := orQueryError (server.lastNumber sequence).run
  serverInfo := orQueryError server.sessionInfo.run

/-- The commands that are run once connected. -/
def ConnectOptions.setup (o : ConnectOptions) : List String :=
  (o.charset.map fun charset => "SET client_encoding TO " ++ Sql.quoteLiteral charset).toList ++
    o.commands

/-- Connect to a server. Without a user in the settings, the user of the system is taken. -/
def connect (server : Server τ) (systemUser : String) (o : ConnectOptions) :
    ConnectionM τ Error Unit := do
  let settings ← liftExcept o.settings
  if !settings.isConsistent then throw (.connection DriverError.settings.text)
  let startup := ⟨settings.user.getD systemUser, settings.database, settings.applicationName⟩
  match ← server.start startup with
  | .error info => throw (.connection (DriverError.server info).text)
  | .ok () => o.setup.forM server.runCommand

end BoundSql.Postgres
