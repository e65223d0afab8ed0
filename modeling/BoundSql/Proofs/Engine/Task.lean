import BoundSql.Proofs.Engine.Course
import BoundSql.Proofs.Engine.Session

/-!
# Tasks

What a caller asks of an engine, one thing after the other and whether it fails or not: operations,
and queries whose rows are turned into something else. Turning rows is nothing that the engine does,
so that what becomes of the engine is decided by the operations behind the tasks.

* `Task.run_snd`: what a task makes of an engine is what its operation makes of it;
* `Task.runAll_eq`: the same for tasks one after the other.
-/

namespace BoundSql

variable {σ St α : Type}

/-- What is asked of an engine. The rows of all queries are turned into members of one type. -/
inductive Task (α : Type) where
  /-- An operation. -/
  | operation (op : Operation)
  /-- A query whose rows are turned into something else. -/
  | selectAs (ofRow : Row → Except Error α) (query : Query)

namespace Task

/-- What a task gives: an answer, or what has become of the rows, if there are any. -/
abbrev Outcome (α : Type) : Type := Answer ⊕ Option (List α)

/-- Carry out a task. -/
def run (conn : Connection σ St) : Task α → EngineM σ St (Outcome α)
  | operation op => Sum.inl <$> op.run conn
  | selectAs ofRow query => Sum.inr <$> Engine.selectAs conn ofRow query

/-- The operation behind a task. -/
def base : Task α → Operation
  | operation op => op
  | selectAs _ query => .select query

/-- Carry out tasks one after the other, whether they fail or not. -/
def runAll (conn : Connection σ St) (tasks : List (Task α)) (e : Engine σ St) : Engine σ St :=
  tasks.foldl (fun e task => (task.run conn e).2) e

/-- What a task makes of an engine is what the operation behind it makes of it. -/
theorem run_snd (conn : Connection σ St) (task : Task α) (e : Engine σ St) :
    (task.run conn e).2 = (task.base.run conn e).2 := by
  cases task with
  | operation op => exact EngineM.map_apply_snd _ _ e
  | selectAs ofRow query =>
    rw [run, EngineM.map_apply_snd, Engine.selectAs_apply]
    rfl

/-- A task whose operation fails has failed in the same way. -/
theorem run_fst_of_error {conn : Connection σ St} {task : Task α} {e : Engine σ St} {x : Error}
    (h : (task.base.run conn e).1 = .error x) : (task.run conn e).1 = .error x := by
  cases task with
  | operation op =>
    rw [base] at h
    rw [run, EngineM.map_apply, h]
    rfl
  | selectAs ofRow query =>
    rw [base] at h
    rw [run, EngineM.map_apply, Engine.selectAs_apply, h]
    rfl

/-- What tasks make of an engine is what the operations behind them make of it. -/
theorem runAll_eq (conn : Connection σ St) (tasks : List (Task α)) (e : Engine σ St) :
    runAll conn tasks e = Operation.runAll conn (tasks.map base) e := by
  rw [runAll, Operation.runAll, List.foldl_map]
  congr 1
  funext e task
  exact run_snd conn task e

end Task

end BoundSql
