import BoundSql.Connection.Basic

/-!
# Connections beside other state

A connection can be used where its state is only part of what there is: it works on its part and
leaves the rest as it is. Callbacks and actions can then keep notes of their own.
-/

namespace BoundSql

/-- An action on a connection, beside a state that it leaves alone. -/
def ConnectionM.beside {σ ε α : Type} (τ : Type) (action : ConnectionM σ ε α) :
    ConnectionM (σ × τ) ε α :=
  fun (s, t) =>
    let (result, s) := action s
    (result, (s, t))

/-- An action on a prepared statement, beside a state that it leaves alone. -/
def StatementM.beside {σ St ε α : Type} (τ : Type) (action : StatementM σ St ε α) :
    StatementM (σ × τ) St ε α :=
  fun st (s, t) =>
    let (result, s) := action st s
    (result, (s, t))

namespace Connection

variable {σ St : Type}

/-- The connection with a state beside its own. -/
def beside (conn : Connection σ St) (τ : Type) : Connection (σ × τ) St where
  prepare sql := (conn.prepare sql).beside τ
  bind name bound := (conn.bind name bound).beside τ
  execute := conn.execute.beside τ
  takeRows := conn.takeRows
  rowCount := conn.rowCount
  startTransaction := conn.startTransaction.beside τ
  commit := conn.commit.beside τ
  rollBack := conn.rollBack.beside τ
  lastInsertId sequence := (conn.lastInsertId sequence).beside τ
  serverInfo := conn.serverInfo.beside τ

end Connection

end BoundSql
