/-!
# Failures

What can go wrong while a statement is compiled, prepared, executed or committed. A failure the
database reports keeps its five-character code; every failure has one text.
-/

namespace BoundSql

/-- What a database driver reports about a failed statement. -/
structure ErrorInfo where
  /-- The five-character condition code. -/
  sqlstate : String
  /-- The message. -/
  message : String
  /-- A further line of detail. -/
  detail : Option String := none
  deriving DecidableEq, Repr, Inhabited

namespace ErrorInfo

/-- Code and message, and the detail in parentheses. -/
def text (info : ErrorInfo) : String :=
  "[" ++ info.sqlstate ++ "] " ++ info.message ++
    match info.detail with
    | some detail => " (" ++ detail ++ ")"
    | none => ""

end ErrorInfo

/-- A failure of the library. -/
inductive Error where
  /-- A malformed table or column name. -/
  | invalidIdentifier (message : String)
  /-- A specification that makes no statement. -/
  | invalidArgument (message : String)
  /-- A statement that could not be prepared. -/
  | prepare (info : ErrorInfo)
  /-- A statement that could not be executed. -/
  | execute (info : ErrorInfo)
  /-- A callback failed and its transaction was rolled back. -/
  | transaction (cause : Error)
  /-- A callback asked for its transaction to be rolled back. -/
  | transactionAborted
  /-- The connection failed. -/
  | connection (message : String)
  /-- A driver failure outside of preparing and executing. -/
  | query (message : String)
  /-- A column of a row does not hold what was asked for. -/
  | decode (column : String) (message : String)
  /-- Any other failure. -/
  | other (message : String)
  deriving DecidableEq, Inhabited

namespace Error

/-- The text of a failure. -/
def text : Error → String
  | invalidIdentifier message => "Invalid identifier: " ++ message
  | invalidArgument message => "Invalid argument: " ++ message
  | prepare info => "Prepare error: " ++ info.text
  | execute info => "Execute error: " ++ info.text
  | transaction cause => "Transaction rolled back: " ++ cause.text
  | transactionAborted => "Transaction aborted by callback"
  | connection message => "Connection error: " ++ message
  | query message => "Query error: " ++ message
  | decode column message => "Decode error on column '" ++ column ++ "': " ++ message
  | other message => message

/-- Whether the failure is one of compiling a statement. -/
def isCompileError : Error → Bool
  | invalidIdentifier _ | invalidArgument _ => true
  | _ => false

/-- Whether the failure came out of a callback. -/
def isTransactionError : Error → Bool
  | transaction _ | transactionAborted => true
  | _ => false

/-- What the driver reported, if the failure is one of preparing or executing. -/
def info? : Error → Option ErrorInfo
  | prepare info | execute info => some info
  | _ => none

/-- The failure behind this one. -/
def cause? : Error → Option Error
  | transaction cause => some cause
  | _ => none

/-- The failure for a malformed table name. -/
def incorrectTable (name : String) : Error := invalidIdentifier ("Incorrect table name: " ++ name)

/-- The failure for a malformed column name. -/
def incorrectColumn (name : String) : Error := invalidIdentifier ("Incorrect column name: " ++ name)

/-- The failure of undoing changes because of something else, which is given by its text. -/
def rollBackFailed (reason : String) (e : Error) : Error :=
  other (reason ++ " (rollback failed: " ++ e.text ++ ")")

end Error

end BoundSql
