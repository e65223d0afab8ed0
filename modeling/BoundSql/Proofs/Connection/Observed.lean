import BoundSql.Connection.Basic

/-!
# Observed connections

A connection can be observed from outside: whatever it does, `Connection.observed` keeps a list of
the calls that it receives, in order, and otherwise leaves it alone. What is said of these calls is
said of all connections.

`Adds p P before after` is the law of such lists: calls are only added, and one of the kind `p` is
among the new ones exactly if `P`. `Grows P before after` is the same of commits.
-/

namespace BoundSql

/-- What a connection can be asked for. -/
inductive Request where
  /-- To prepare a statement. -/
  | prepare
  /-- To bind a value. -/
  | bind
  /-- To execute a statement. -/
  | execute
  /-- To begin a transaction. -/
  | start
  /-- To make the changes of the transaction last. -/
  | commit
  /-- To undo the changes of the transaction. -/
  | rollBack
  /-- The last number of a sequence. -/
  | lastInsertId
  /-- What it knows about itself. -/
  | serverInfo
  deriving DecidableEq, Repr

/-- A call that a connection has received. -/
structure Call where
  /-- What it was asked for. -/
  request : Request
  /-- Whether it could do it. -/
  succeeded : Bool
  deriving DecidableEq, Repr

namespace Connection

variable {σ St ε α : Type}

/-- Carry out an action and keep the call. -/
def noting (request : Request) (action : ConnectionM σ ε α) : ConnectionM (σ × List Call) ε α :=
  fun s =>
    let done := action s.1
    (done.1, done.2, s.2 ++ [⟨request, done.1.isOk⟩])

/-- Carry out an action on a statement and keep the call. -/
def notingOnStatement (request : Request) (action : StatementM σ St ε α) :
    StatementM (σ × List Call) St ε α :=
  fun statement s =>
    let done := action statement s.1
    (done.1, done.2, s.2 ++ [⟨request, done.1.1.isOk⟩])

/-- A connection whose calls are kept. -/
def observed (conn : Connection σ St) : Connection (σ × List Call) St where
  prepare sql := noting .prepare (conn.prepare sql)
  bind name bound := notingOnStatement .bind (conn.bind name bound)
  execute := notingOnStatement .execute conn.execute
  takeRows := conn.takeRows
  rowCount := conn.rowCount
  startTransaction := noting .start conn.startTransaction
  commit := noting .commit conn.commit
  rollBack := noting .rollBack conn.rollBack
  lastInsertId sequence := noting .lastInsertId (conn.lastInsertId sequence)
  serverInfo := noting .serverInfo conn.serverInfo

end Connection

/-- Calls are only added, and one of the kind `p` is among them exactly if `P`. -/
def Adds (p : Call → Prop) (P : Prop) (before after : List Call) : Prop :=
  ∃ calls, after = before ++ calls ∧ ((∃ call ∈ calls, p call) ↔ P)

namespace Adds

variable {p : Call → Prop} {P Q : Prop} {a b c : List Call}

/-- Without calls there is none of the kind. -/
theorem refl (a : List Call) : Adds p False a a := ⟨[], by simp, by simp⟩

/-- A single call is added. -/
theorem single (call : Call) (a : List Call) : Adds p (p call) a (a ++ [call]) :=
  ⟨[call], rfl, by simp⟩

/-- Calls are added after others. -/
theorem trans (hab : Adds p P a b) (hbc : Adds p Q b c) : Adds p (P ∨ Q) a c := by
  obtain ⟨first, rfl, hfirst⟩ := hab
  obtain ⟨second, rfl, hsecond⟩ := hbc
  refine ⟨first ++ second, List.append_assoc a first second, ?_⟩
  rw [← hfirst, ← hsecond]
  simp only [List.mem_append, or_and_right, exists_or]

/-- The same law in other words. -/
theorem congr (h : Adds p P a b) (hPQ : P ↔ Q) : Adds p Q a b := by
  obtain ⟨calls, hcalls, hP⟩ := h
  exact ⟨calls, hcalls, hP.trans hPQ⟩

/-- Calls of other kinds, and then some. -/
theorem quiet_trans (hab : Adds p False a b) (hbc : Adds p Q b c) : Adds p Q a c :=
  (hab.trans hbc).congr (iff_of_eq (false_or Q))

/-- Calls, and then some of other kinds. -/
theorem trans_quiet (hab : Adds p P a b) (hbc : Adds p False b c) : Adds p P a c :=
  (hab.trans hbc).congr (iff_of_eq (or_false P))

end Adds

/-- Calls are only added, and a commit is among them exactly if `P`. -/
def Grows (P : Prop) (before after : List Call) : Prop :=
  ∃ calls, after = before ++ calls ∧ ((∃ call ∈ calls, call.request = .commit) ↔ P)

namespace Grows

variable {P Q : Prop} {a b c : List Call}

/-- Without calls there is no commit. -/
theorem refl (a : List Call) : Grows False a a := Adds.refl a

/-- A single call that is no commit. -/
theorem single {call : Call} (h : call.request ≠ .commit) (a : List Call) :
    Grows False a (a ++ [call]) :=
  (Adds.single call a).congr (iff_false_intro h)

/-- Calls are added after others. -/
theorem trans (hab : Grows P a b) (hbc : Grows Q b c) : Grows (P ∨ Q) a c := Adds.trans hab hbc

/-- The same law in other words. -/
theorem congr (h : Grows P a b) (hPQ : P ↔ Q) : Grows Q a b := Adds.congr h hPQ

/-- Calls without a commit, and then others. -/
theorem quiet_trans (hab : Grows False a b) (hbc : Grows Q b c) : Grows Q a c :=
  Adds.quiet_trans hab hbc

end Grows

end BoundSql
