import BoundSql.Connection.Scripted
import BoundSql.Proofs.Engine.Task
import BoundSql.Proofs.Statement.Inlining
import BoundSql.Proofs.Statement.Lifetime

/-!
# Statements that do not compile

A statement that does not compile leaves no trace: it uses up no number, it does not reach the
connection, and an engine that was told to show the next statement still is. So in a run of any
length all such statements can be left out, and nobody will notice by what the others give.

* `Operation.run_of_uncompilable`: such an operation fails in compiling and leaves the engine alone;
* `Engine.course`: the steps of a run, each with the engine before it and after it, and
  `Engine.kept`: those whose statements can be compiled;
* `Engine.course_without_uncompilable`: what is left of a run without these steps is the run of what
  is left.
-/

namespace BoundSql

variable {σ St α : Type}

namespace Operation

/-- The statement that an operation has to compile. -/
def statement? : Operation → Option Statement
  | select q => some (.select q)
  | insert table rows => some (.insert table rows)
  | update table assignments filter => some (.update table assignments filter)
  | delete table filter => some (.delete table filter)
  | query fragment => some (.raw fragment)
  | _ => none

/-- Whether an operation has a statement that cannot be compiled. -/
def uncompilable (c : Compiler) (op : Operation) : Bool :=
  op.statement?.any fun s => !(c.compile s).1.isOk

end Operation

/-- A statement that cannot be compiled is refused in compiling, and the compiler stays as it is. -/
theorem Compiler.compile_of_not_isOk {c : Compiler} {s : Statement}
    (h : (c.compile s).1.isOk = false) :
    ∃ x, c.compile s = (.error x, c) ∧ x.isCompileError := by
  cases hresult : (c.compile s).1 with
  | ok out =>
    rw [hresult] at h
    cases h
  | error x =>
    have hcall : Compilation.result ⟨c, s⟩ = .error x := hresult
    exact ⟨x, Prod.ext hresult (Compilation.of_error hcall).2, isCompileError_of_compile hresult⟩

/-- Whatever an operation does with its statement stands behind the compiling of it. -/
theorem Operation.exists_run_eq (conn : Connection σ St) {op : Operation} {s : Statement}
    (h : op.statement? = some s) :
    ∃ next : Compiled → EngineM σ St Answer, op.run conn = Engine.compile s >>= next := by
  cases op with
  | select _ | insert _ _ | update _ _ _ | delete _ _ | query _ =>
    -- The answer is made of what comes of the statement, so it is made behind the compiling.
    obtain rfl := Option.some.inj h
    exact ⟨_, map_bind _ _ _⟩
  | _ => cases h

/-- An operation with a statement that cannot be compiled fails in compiling, and the engine is as
it was: with its connection, its mode and its report of an earlier statement. -/
theorem Operation.run_of_uncompilable (conn : Connection σ St) {op : Operation} {e : Engine σ St}
    (h : op.uncompilable e.compiler) :
    ∃ x, op.run conn e = (.error x, e) ∧ x.isCompileError := by
  rw [uncompilable] at h
  cases hs : op.statement? with
  | none =>
    rw [hs] at h
    cases h
  | some s =>
    rw [hs, Option.any_some, Bool.not_eq_true'] at h
    obtain ⟨x, hx, hcompiling⟩ := Compiler.compile_of_not_isOk h
    obtain ⟨next, hrun⟩ := op.exists_run_eq conn hs
    refine ⟨x, ?_, hcompiling⟩
    rw [hrun, EngineM.bind_apply, Engine.compile_apply, hx]

/-- A step of a run. -/
structure Engine.Step (σ St α : Type) where
  /-- The task that is carried out. -/
  task : Task α
  /-- The engine before it. -/
  before : Engine σ St
  /-- What the task gives. -/
  result : Except Error (Task.Outcome α)
  /-- The engine after it. -/
  after : Engine σ St

namespace Engine

/-- Whether the statement of a step cannot be compiled. -/
def Step.uncompilable (step : Step σ St α) : Bool :=
  step.task.base.uncompilable step.before.compiler

/-- The steps in which tasks are carried out one after the other, whether they fail or not. -/
def course (conn : Connection σ St) : List (Task α) → Engine σ St → List (Step σ St α)
  | [], _ => []
  | task :: tasks, e =>
    ⟨task, e, (task.run conn e).1, (task.run conn e).2⟩ :: course conn tasks (task.run conn e).2

/-- The steps that are left of a run without those whose statements cannot be compiled. -/
def kept (conn : Connection σ St) (tasks : List (Task α)) (e : Engine σ St) :
    List (Step σ St α) :=
  (course conn tasks e).filter fun step => !step.uncompilable

variable (conn : Connection σ St)

/-- A task whose statement cannot be compiled fails in compiling and leaves the engine alone. -/
theorem run_task_of_uncompilable {task : Task α} {e : Engine σ St}
    (h : task.base.uncompilable e.compiler) :
    ∃ x, (task.run conn e).1 = .error x ∧ (task.run conn e).2 = e ∧ x.isCompileError := by
  obtain ⟨x, hrun, hcompiling⟩ := Operation.run_of_uncompilable conn h
  have hresult : (task.base.run conn e).1 = .error x := by rw [hrun]
  have hafter : (task.base.run conn e).2 = e := by rw [hrun]
  exact ⟨x, Task.run_fst_of_error hresult, (task.run_snd conn e).trans hafter, hcompiling⟩

/-- A step whose statement cannot be compiled is left out, and the next one begins with the engine
with which it began. -/
theorem kept_cons_of_uncompilable {task : Task α} {e : Engine σ St}
    (h : task.base.uncompilable e.compiler) (tasks : List (Task α)) :
    (task.run conn e).2 = e ∧ kept conn (task :: tasks) e = kept conn tasks e := by
  obtain ⟨x, -, hafter, -⟩ := run_task_of_uncompilable conn h
  refine ⟨hafter, ?_⟩
  rw [kept, course, List.filter_cons_of_neg (by simp [Step.uncompilable, h]), hafter]
  rfl

/-- Any other step stays. -/
theorem kept_cons_of_not_uncompilable {task : Task α} {e : Engine σ St}
    (h : ¬task.base.uncompilable e.compiler) (tasks : List (Task α)) :
    kept conn (task :: tasks) e =
      ⟨task, e, (task.run conn e).1, (task.run conn e).2⟩ ::
        kept conn tasks (task.run conn e).2 := by
  rw [kept, course, List.filter_cons_of_pos (by simp [Step.uncompilable, h])]
  rfl

/-- The tasks of the steps that stay make up a run with these steps. -/
theorem course_kept (tasks : List (Task α)) (e : Engine σ St) :
    course conn ((kept conn tasks e).map Step.task) e = kept conn tasks e := by
  induction tasks generalizing e with
  | nil => rfl
  | cons task tasks ih =>
    by_cases h : task.base.uncompilable e.compiler
    · rw [(kept_cons_of_uncompilable conn h tasks).2]
      exact ih e
    · -- The step is the same in both runs, since it begins with the same engine.
      rw [kept_cons_of_not_uncompilable conn h, List.map_cons, course]
      congr 1
      exact ih _

/-- The tasks of the steps that stay lead to the same engine as all tasks. -/
theorem runAll_kept (tasks : List (Task α)) (e : Engine σ St) :
    Task.runAll conn ((kept conn tasks e).map Step.task) e = Task.runAll conn tasks e := by
  induction tasks generalizing e with
  | nil => rfl
  | cons task tasks ih =>
    show _ = Task.runAll conn tasks (task.run conn e).2
    by_cases h : task.base.uncompilable e.compiler
    · obtain ⟨hafter, hkept⟩ := kept_cons_of_uncompilable conn h tasks
      rw [hkept, hafter]
      exact ih e
    · rw [kept_cons_of_not_uncompilable conn h, List.map_cons]
      exact ih _

/-- In a step whose statement cannot be compiled the task fails in compiling. -/
theorem result_of_mem_course {tasks : List (Task α)} {e : Engine σ St} {step : Step σ St α}
    (hstep : step ∈ course conn tasks e) (h : step.uncompilable) :
    ∃ x, step.result = .error x ∧ x.isCompileError := by
  induction tasks generalizing e with
  | nil => cases hstep
  | cons task tasks ih =>
    rcases List.mem_cons.1 hstep with rfl | hstep
    · obtain ⟨x, hresult, -, hcompiling⟩ := run_task_of_uncompilable conn h
      exact ⟨x, hresult, hcompiling⟩
    · exact ih hstep

/-- Statements that do not compile leave no trace. If the steps with such statements are left out of
a run, the other steps begin and end with the same engines as before and give the same, and so does
the run as a whole; an engine has its connection in it, which may be one that keeps a list of all it
was asked for. What is left out has failed, in compiling. -/
theorem course_without_uncompilable (conn : Connection σ St) (tasks : List (Task α))
    (e : Engine σ St) :
    course conn ((kept conn tasks e).map Step.task) e = kept conn tasks e ∧
      Task.runAll conn ((kept conn tasks e).map Step.task) e = Task.runAll conn tasks e ∧
      ∀ step ∈ course conn tasks e, step.uncompilable →
        ∃ x, step.result = .error x ∧ x.isCompileError :=
  ⟨course_kept conn tasks e, runAll_kept conn tasks e,
    fun _ hstep => result_of_mem_course conn hstep⟩

/-- The engine was told to show the next statement, and it shows the one behind that which does not
compile. -/
example :
    let e : Engine Connection.Scripted Connection.ScriptedStatement := (Engine.new {} {}).debug
    let tasks : List (Task Row) := [.operation (.delete "b c" none), .operation (.delete "a" none)]
    (Task.runAll Connection.scripted tasks e).queryString = some "DELETE FROM \"a\"" := by
  decide +kernel

end Engine

end BoundSql
