import BoundSql.Connection.Basic

/-!
# No connection

A connection that refuses whatever it is asked to do, for compiling statements without a database.
-/

namespace BoundSql.Connection

/-- The failure of a connection that is none. -/
def offlineInfo : ErrorInfo := { sqlstate := "08003", message := "no database connection" }

/-- A connection that refuses to run anything. -/
def offline : Connection Unit Empty where
  prepare _ := throw offlineInfo
  bind _ _ := pure ()
  execute := do nomatch (← get)
  takeRows := nofun
  rowCount := nofun
  startTransaction := throw (.connection offlineInfo.message)
  commit := throw (.connection offlineInfo.message)
  rollBack := throw (.connection offlineInfo.message)
  lastInsertId _ := pure none
  serverInfo := throw (.connection offlineInfo.message)

end BoundSql.Connection
