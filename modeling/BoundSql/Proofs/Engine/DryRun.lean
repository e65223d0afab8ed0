import BoundSql.Connection.Offline
import BoundSql.Connection.Scripted
import BoundSql.Proofs.Engine.Task

/-!
# Dry runs

Statements that are collected in a session are those that would be sent. An engine that collects and
one that sends part at the first statement: one has a text more, and the other has been to its
connection, where anything may have happened. What they go on to compile depends on neither, so
that the texts that the one has collected stay the texts that the other has logged.

* `Engine.Rehearses`: how the two engines stay related;
* `Engine.Rehearses.run`: one task keeps them so, whatever the connections do;
* `Engine.collected_eq_log`: what is collected in a dry run is the log of a live one.
-/

namespace BoundSql

variable {σ σ' St St' α : Type}

/-- Whether an operation runs a statement. -/
def Operation.isStatement : Operation → Bool
  | select _ | insert _ _ | update _ _ _ | delete _ _ | query _ | exec _ | execWith _ _ => true
  | _ => false

/-- Whether a task runs a statement. -/
def Task.isStatement (task : Task α) : Bool := task.base.isStatement

/-- Running a statement is one of the things that are done in a session. -/
theorem Operation.inSession_of_isStatement {op : Operation} (h : op.isStatement) :
    op.inSession ∧ op.isDebug = false := by
  cases op with
  | debug => cases h
  | _ => exact ⟨h, rfl⟩

namespace Engine

/-- One engine collects what another one sends and logs. -/
structure Rehearses (dry : Engine σ St) (live : Engine σ' St') : Prop where
  /-- Outside of test mode, statements are collected. -/
  collects : dry.config.testMode = false ∧ dry.mode = .session
  /-- Statements are sent. -/
  sends : live.Sends
  /-- All that is sent is logged. -/
  logs : live.config.logging = true
  /-- The same is compiled from here on. -/
  compiler : dry.compiler = live.compiler
  /-- Statements are shown in the same quotes. -/
  style : dry.config.literalStyle = live.config.literalStyle
  /-- What was collected is what was logged. -/
  texts : dry.collected = live.log

namespace Rehearses

variable {conn : Connection σ St} {conn' : Connection σ' St'} {dry : Engine σ St}
  {live : Engine σ' St'}

/-- An operation that runs a statement keeps one engine collecting what the other one sends. -/
theorem run_operation (h : dry.Rehearses live) {op : Operation} (hop : op.isStatement) :
    (op.run conn dry).2.Rehearses (op.run conn' live).2 := by
  obtain ⟨hsession, hdebug⟩ := Operation.inSession_of_isStatement hop
  have hdry := op.takes conn hsession hdebug dry
  have hlive := op.takes conn' hsession hdebug live
  -- Both engines get the same statement, or both get none, since their compilers are the same.
  rw [h.compiler] at hdry
  obtain ⟨-, hmode, hcollected⟩ := hdry.of_session h.collects.1 h.collects.2
  obtain ⟨hoff, hhistory⟩ := hlive.of_sends h.sends h.logs
  have hconfig := hdry.config_eq
  have hconfig' := hlive.config_eq
  refine ⟨⟨?_, hmode⟩, ⟨?_, hoff⟩, ?_, ?_, ?_, ?_⟩
  · rw [hconfig, h.collects.1]
  · rw [hconfig', h.sends.1]
  · rw [hconfig', h.logs]
  · rw [hdry.compiler_eq, hlive.compiler_eq]
  · rw [hconfig, hconfig', h.style]
  · have hshown : dry.literal = live.literal := literal_congr h.style
    have hlogged : (op.run conn' live).2.literal = live.literal :=
      literal_congr (congrArg EngineConfig.literalStyle hconfig')
    calc (op.run conn dry).2.collected
        = dry.collected ++ (op.compiled live.compiler).1.toList.map dry.literal := hcollected
      _ = live.log ++ (op.compiled live.compiler).1.toList.map live.literal := by
          rw [h.texts, hshown]
      _ = (op.run conn' live).2.log := by rw [log, log, hhistory, hlogged, List.map_append]

/-- A task that runs a statement keeps one engine collecting what the other one sends. -/
theorem run (h : dry.Rehearses live) {task : Task α} (htask : task.isStatement) :
    (task.run conn dry).2.Rehearses (task.run conn' live).2 := by
  rw [task.run_snd, task.run_snd]
  exact h.run_operation htask

/-- Tasks that run statements keep one engine collecting what the other one sends. -/
theorem runAll (h : dry.Rehearses live) {tasks : List (Task α)}
    (htasks : ∀ task ∈ tasks, task.isStatement) :
    (Task.runAll conn tasks dry).Rehearses (Task.runAll conn' tasks live) := by
  induction tasks generalizing dry live with
  | nil => exact h
  | cons task tasks ih =>
    obtain ⟨htask, hothers⟩ := List.forall_mem_cons.1 htasks
    exact ih (h.run htask) hothers

/-- A new engine in a session and a new engine that logs all it sends. -/
theorem new (s : σ) (s' : σ') {config : EngineConfig} (htest : config.testMode = false) :
    Rehearses ((Engine.new s config).beginDebug : Engine σ St)
      (Engine.new s' { config with logging := true } : Engine σ' St') :=
  ⟨⟨htest, rfl⟩, ⟨htest, rfl⟩, rfl, rfl, rfl, rfl⟩

end Rehearses

/-- A dry run shows what a live run would send. The texts that a new engine collects in a session
are those that another one with the same configuration has in its log after the same tasks, whatever
becomes of each statement on its connection, which may be another one; and the compilers of both
have come to the same number. -/
theorem collected_eq_log (conn : Connection σ St) (conn' : Connection σ' St') (s : σ) (s' : σ')
    {config : EngineConfig} (htest : config.testMode = false) {tasks : List (Task α)}
    (htasks : ∀ task ∈ tasks, task.isStatement) :
    let dry := Task.runAll conn tasks (Engine.new s config).beginDebug
    let live := Task.runAll conn' tasks (Engine.new s' { config with logging := true })
    dry.debugLog.1 = live.log ∧ dry.compiler = live.compiler := by
  intro dry live
  have h : dry.Rehearses live := (Rehearses.new s s' htest).runAll htasks
  exact ⟨h.texts, h.compiler⟩

/-- A dry run without a database, and a live run in which one statement cannot be compiled, another
one is aborted by its callback and the others are refused when they are executed. -/
theorem collected_eq_log_of_refused :
    let tasks : List (Task Row) :=
      [.operation (.insert "t" [[("a", .value (.int 1)), ("b", .value .null)]]),
       .operation (.delete "b c" none),
       .operation (.execWith ⟨"SELECT :x", [(":x", ⟨.int, .int 7⟩)]⟩ (.done (.ok .abort))),
       .selectAs (fun row => .ok row)
         { table := "t", filter := some { conditions := [.equals "a" (.str "it's")] } }]
    let config : EngineConfig := { tablePrefix := "p_", literalStyle := .bracket }
    let refusing : Connection.Scripted :=
      { script := { failExecute := some { sqlstate := "42P01", message := "no such table" } } }
    let dry := Task.runAll Connection.offline tasks (Engine.new () config).beginDebug
    let live := Task.runAll Connection.scripted tasks
      (Engine.new refusing { config with logging := true })
    config.testMode = false ∧ (∀ task ∈ tasks, task.isStatement) ∧
      dry.debugLog.1 = live.log ∧ dry.compiler = live.compiler ∧
      live.log = ["INSERT INTO [p_t] ([a], [b]) VALUES (1, NULL)", "SELECT 7",
        "SELECT * FROM [p_t] WHERE [a] = 'it''s'"] := by
  intro tasks config refusing dry live
  have htasks : ∀ task ∈ tasks, task.isStatement := by
    simp [tasks, Task.isStatement, Task.base, Operation.isStatement]
  have h : dry.debugLog.1 = live.log ∧ dry.compiler = live.compiler :=
    collected_eq_log Connection.offline Connection.scripted () refusing rfl htasks
  exact ⟨rfl, htasks, h.1, h.2, h.1.symm.trans (by decide +kernel)⟩

end Engine

end BoundSql
