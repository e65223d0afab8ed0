import BoundSql.Connection.Offline
import BoundSql.Connection.Scripted
import BoundSql.Proofs.Connection.Observed
import BoundSql.Proofs.Engine.Course
import BoundSql.Proofs.Engine.Session
import BoundSql.Proofs.Statement.Inlining

/-!
# Test mode

In test mode statements are shown and not run, so that an engine can be used without a database. An
action asks the connection for its transaction in any case, though, and without a database it cannot
have one.

* `Operation.run_of_test`: in test mode an operation leaves the connection alone and fails only in
  compiling;
* `Engine.testMode_iff`: what a program in test mode asks of the connection, and that it asks for
  nothing exactly if it comes to no action.
-/

namespace BoundSql

variable {σ St α β : Type}

/-- Whether an operation looks at the test mode before it turns to the connection. -/
def Operation.heedsTestMode : Operation → Bool
  | executeAgain | info => false
  | _ => true

/-- Whether a request begins or ends a transaction. -/
def Request.isControl : Request → Bool
  | start | commit | rollBack => true
  | _ => false

/-- Whether a program comes to an action inside. -/
def Program.Acts (conn : Connection σ St) : Program St → Engine σ St → Prop
  | done _, _ => False
  | perform operation next, e =>
    let after := operation.run conn e
    (next after.1 after.2.shown).Acts conn after.2
  | nested _ _, _ => True

/-- Whether a failure is one of the connection. -/
def Error.isConnectionError : Error → Bool
  | connection _ => true
  | _ => false

/-- A failure of compiling is none of the connection. -/
theorem Error.not_isConnectionError {x : Error} (h : x.isCompileError) :
    x.isConnectionError = false := by
  cases x with
  | connection message => cases h
  | _ => rfl

/-- An operation that fails only in compiling while the engine is in test mode. -/
def EngineM.Tested (m : EngineM σ St α) : Prop :=
  ∀ e x, e.config.testMode = true → (m e).1 = .error x → x.isCompileError

namespace EngineM.Tested

/-- An operation that does not fail. -/
theorem of_ok {m : EngineM σ St α} (h : ∀ e, e.config.testMode = true → ∃ a, (m e).1 = .ok a) :
    m.Tested := by
  intro e x htest hx
  obtain ⟨a, ha⟩ := h e htest
  cases ha.symm.trans hx

/-- A result that is turned into another one. -/
theorem map {m : EngineM σ St α} (h : m.Tested) (f : α → β) : Tested (f <$> m) := by
  intro e x htest hx
  rw [map_eq_pure_bind, EngineM.bind_apply] at hx
  rcases hm : m e with ⟨y | a, e'⟩
  · rw [hm] at hx
    obtain rfl := Except.error.inj hx
    exact h e y htest (congrArg Prod.fst hm)
  · rw [hm] at hx
    cases hx

/-- A statement that is compiled and then used by an operation that does not fail. -/
theorem compile {next : Compiled → EngineM σ St α} (s : Statement)
    (h : ∀ c e, e.config.testMode = true → ∃ a, (next c e).1 = .ok a) :
    Tested (Engine.compile s >>= next) := by
  intro e x htest hx
  rw [EngineM.bind_apply, Engine.compile_apply] at hx
  rcases hcompile : e.compiler.compile s with ⟨y | c, compiler⟩
  · rw [hcompile] at hx
    obtain rfl := Except.error.inj hx
    exact Compiler.isCompileError_of_compile (congrArg Prod.fst hcompile)
  · rw [hcompile] at hx
    obtain ⟨a, ha⟩ := h c { e with compiler } htest
    cases ha.symm.trans hx

end EngineM.Tested

namespace Engine

variable (conn : Connection σ St) {e : Engine σ St}

/-- In test mode a statement is not run. -/
theorem run_of_test (carryOut : StatementM σ St Error (Except ErrorInfo Nat)) (c : Compiled)
    (htest : e.config.testMode = true) : (run conn carryOut c e).1 = .ok false := by
  rw [run_apply, htest]
  rfl

/-- In test mode nothing comes of a statement that is run in order to be used. -/
theorem exec_use_of_test (use : St → α × St) (c : Compiled) (htest : e.config.testMode = true) :
    ((do if ← exec conn c then withStatement use else return none :
      EngineM σ St (Option α)) e).1 = .ok none := by
  have hrun := run_of_test conn (outcome conn.execute) c htest
  rw [EngineM.bind_apply, exec]
  rcases hexec : run conn (outcome conn.execute) c e with ⟨r, e'⟩
  rw [hexec] at hrun
  obtain rfl : r = .ok false := hrun
  rfl

/-- In test mode a statement that is compiled in order to be run and used is refused only in
compiling. -/
theorem tested_use (use : St → α × St) (s : Statement) : EngineM.Tested (do
    if ← exec conn (← compile s) then withStatement use else return none :
      EngineM σ St (Option α)) :=
  .compile s fun c _ htest => ⟨none, exec_use_of_test conn use c htest⟩

/-- In test mode a query whose rows are turned into something else is refused only in compiling:
there are no rows that could be turned into anything. -/
theorem tested_selectAs (ofRow : Row → Except Error α) (q : Query) :
    (selectAs conn ofRow q).Tested := by
  intro e x htest hx
  rw [selectAs, EngineM.bind_apply] at hx
  rcases hselect : select conn q e with ⟨y | rows, e'⟩
  · rw [hselect] at hx
    obtain rfl := Except.error.inj hx
    exact tested_use conn conn.takeRows (.select q) e y htest (congrArg Prod.fst hselect)
  · have hnone : rows = none := by
      have hrows := congrArg Prod.fst hselect
      rw [select, EngineM.bind_apply, compile_apply] at hrows
      rcases hcompile : e.compiler.compile (.select q) with ⟨_ | c, compiler⟩
      · rw [hcompile] at hrows
        cases hrows
      · rw [hcompile] at hrows
        have hnothing := exec_use_of_test conn conn.takeRows c (e := { e with compiler }) htest
        exact (Except.ok.inj (hnothing.symm.trans hrows)).symm
    rw [hselect, hnone] at hx
    cases hx

/-- In test mode no number of a sequence is asked for. -/
theorem lastInsertId_of_test (sequence : Option String) (htest : e.config.testMode = true) :
    lastInsertId conn sequence e = (.ok none, e) := by
  rw [lastInsertId_apply, htest]
  rfl

end Engine

namespace Operation

variable (conn : Connection σ St) {op : Operation}

/-- In test mode an operation fails only in compiling. -/
theorem tested (hop : op.heedsTestMode) : (op.run conn).Tested := by
  cases op with
  | select q => exact (Engine.tested_use conn _ _).map _
  | insert table rows => exact (Engine.tested_use conn _ _).map _
  | update table assignments filter => exact (Engine.tested_use conn _ _).map _
  | delete table filter => exact (Engine.tested_use conn _ _).map _
  | query fragment =>
    exact (EngineM.Tested.compile _ fun c e htest =>
      ⟨false, Engine.run_of_test conn _ c htest⟩).map _
  | exec c =>
    exact (EngineM.Tested.of_ok fun e htest => ⟨false, Engine.run_of_test conn _ c htest⟩).map _
  | execWith c callback =>
    exact (EngineM.Tested.of_ok fun e htest => ⟨false, Engine.run_of_test conn _ c htest⟩).map _
  | lastInsertId sequence =>
    exact (EngineM.Tested.of_ok fun e htest =>
      ⟨none, congrArg Prod.fst (Engine.lastInsertId_of_test conn sequence htest)⟩).map _
  | executeAgain => cases hop
  | info => cases hop
  | _ => exact EngineM.Tested.of_ok fun e _ => ⟨_, rfl⟩

/-- In test mode an operation leaves the connection alone, and the engine stays in test mode. -/
theorem run_of_test (hop : op.heedsTestMode) {e : Engine σ St} (htest : e.config.testMode = true) :
    (op.run conn e).2.connection = e.connection ∧ (op.run conn e).2.config = e.config := by
  -- A statement is taken by the engine; the other operations run none.
  have hstatement : op.inSession → op.isDebug = false →
      (op.run conn e).2.connection = e.connection ∧ (op.run conn e).2.config = e.config := by
    intro hsession hdebug
    have htakes := op.takes conn hsession hdebug e
    exact ⟨(htakes.of_test htest).1, htakes.config_eq⟩
  cases op with
  | lastInsertId sequence =>
    rw [run, EngineM.map_apply_snd, Engine.lastInsertId_of_test conn sequence htest]
    exact ⟨rfl, rfl⟩
  | executeAgain => cases hop
  | info => cases hop
  | debug => exact ⟨rfl, rfl⟩
  | beginDebug => exact ⟨rfl, rfl⟩
  | debugLog => exact ⟨rfl, rfl⟩
  | _ => exact hstatement rfl rfl

end Operation

/-- From one engine to another nothing but transactions was begun and ended on the connection, and
this was done exactly if `P`. -/
structure Engine.Steers (P : Prop) (before after : Engine (σ × List Call) St) : Prop where
  /-- The engine behaves as before. -/
  config : after.config = before.config
  /-- The calls are those that begin and end transactions. -/
  calls : ∃ calls, after.connection.2 = before.connection.2 ++ calls ∧
    (∀ call ∈ calls, call.request.isControl) ∧ (calls = [] ↔ ¬P)

namespace Engine.Steers

variable {P Q : Prop} {a b c : Engine (σ × List Call) St}

/-- The connection was left alone. -/
theorem of_same (hconnection : b.connection = a.connection) (hconfig : b.config = a.config) :
    Steers False a b :=
  ⟨hconfig, [], by rw [hconnection, List.append_nil], by simp, by simp⟩

/-- Calls were added after others. -/
theorem trans (hab : Steers P a b) (hbc : Steers Q b c) : Steers (P ∨ Q) a c := by
  obtain ⟨hconfig, first, hfirst, hcontrol, hP⟩ := hab
  obtain ⟨hconfig', second, hsecond, hcontrol', hQ⟩ := hbc
  refine ⟨hconfig'.trans hconfig, first ++ second, ?_, ?_, ?_⟩
  · rw [hsecond, hfirst, List.append_assoc]
  · exact fun call hcall => (List.mem_append.1 hcall).elim (hcontrol call) (hcontrol' call)
  · rw [List.append_eq_nil_iff, hP, hQ, not_or]

/-- The same in other words. -/
theorem congr (h : Steers P a b) (hPQ : P ↔ Q) : Steers Q a b :=
  propext hPQ ▸ h

/-- One call was made that begins or ends a transaction. -/
theorem single {call : Call} {s : σ} (hcall : call.request.isControl)
    (a : Engine (σ × List Call) St) :
    Steers True a { a with connection := (s, a.connection.2 ++ [call]) } :=
  ⟨rfl, [call], rfl, by simpa using hcall, by simp⟩

end Engine.Steers

/-- An action asks for a transaction in any case. -/
theorem Engine.steers_action (conn : Connection σ St) {body : EngineM (σ × List Call) St Verdict}
    {P : Engine (σ × List Call) St → Prop} {e : Engine (σ × List Call) St}
    (hbody : ∀ s, Steers (P { e with connection := s }) { e with connection := s }
      (body { e with connection := s }).2) :
    Steers True e (action conn.observed body e).2 := by
  rw [action_apply]
  have hstart : Steers True e { e with connection := (conn.observed.startTransaction
      e.connection).2 } := .single rfl e
  rcases hs : conn.observed.startTransaction e.connection with ⟨x | _, s⟩
  · rw [hs] at hstart
    exact hstart
  rw [hs] at hstart
  have hinside := hstart.trans (hbody s)
  have hrollBack : ∀ (failure : Error) (e' : Engine (σ × List Call) St), Steers True e'
      { e' with connection := (conn.observed.rollBackWith failure e'.connection).2 } := by
    intro failure e'
    rw [Connection.rollBackWith_apply_snd]
    exact .single rfl e'
  dsimp only
  -- Whatever the body ends in, one more call ends the transaction.
  rcases hrun : body { e with connection := s } with ⟨x | _ | _, e'⟩
  · rw [hrun] at hinside
    exact (hinside.trans (hrollBack _ e')).congr (by simp)
  · rw [hrun] at hinside
    exact (hinside.trans (.single rfl e')).congr (by simp)
  · rw [hrun] at hinside
    exact (hinside.trans (hrollBack _ e')).congr (by simp)

namespace Program

variable (conn : Connection σ St) {program : Program St}

/-- A program in test mode asks the connection for the transactions of its actions and for nothing
else. -/
theorem steers (h : program.Only fun op => op.heedsTestMode) {e : Engine (σ × List Call) St}
    (htest : e.config.testMode = true) :
    Engine.Steers (program.Acts conn.observed e) e (program.run conn.observed e).2 := by
  -- Each step starts from the engine that the step before leaves, which is still in test mode.
  induction h generalizing e with
  | done result => cases result <;> exact .of_same rfl rfl
  | perform first _ ih =>
    obtain ⟨hconnection, hconfig⟩ := Operation.run_of_test conn.observed first htest
    rw [Acts, run_perform]
    exact ((Engine.Steers.of_same hconnection hconfig).trans
      (ih _ _ (hconfig ▸ htest))).congr (by simp)
  | nested _ _ ihBody ih =>
    have haction := Engine.steers_action conn fun s =>
      ihBody (e := { e with connection := s }) htest
    rw [Acts, run_nested]
    exact (haction.trans (ih _ _ (haction.config ▸ htest))).congr (by simp)

/-- Whether a step of a program fails because of the connection. -/
def LosesConnection (conn : Connection σ St) (program : Program St) (e : Engine σ St) : Prop :=
  program.Meets conn (fun failure _ => failure.any Error.isConnectionError) e

/-- In test mode only an action can fail because of the connection. -/
theorem acts_of_losesConnection {conn : Connection σ St}
    (h : program.Only fun op => op.heedsTestMode) {e : Engine σ St}
    (htest : e.config.testMode = true) (hfails : program.LosesConnection conn e) :
    program.Acts conn e := by
  induction h generalizing e with
  | done result => exact hfails
  | @perform op next first _ ih =>
    rcases hfails with hfails | hfails
    · -- The operation itself fails only in compiling.
      cases hrun : (op.run conn e).1 with
      | ok a =>
        rw [hrun] at hfails
        cases hfails
      | error x =>
        rw [hrun] at hfails
        have hx := Error.not_isConnectionError (Operation.tested conn first e x htest hrun)
        cases hx.symm.trans hfails
    · have hconfig := (Operation.run_of_test conn first htest).2
      exact ih _ _ (hconfig ▸ htest) hfails
  | nested _ _ _ _ => trivial

/-- Without a connection to begin a transaction on, an action fails because of it. -/
theorem losesConnection_of_acts {conn : Connection σ St}
    (hstart : ∀ s, ∃ x, (conn.startTransaction s).1 = .error x ∧ x.isConnectionError)
    {e : Engine σ St} (hacts : program.Acts conn e) : program.LosesConnection conn e := by
  induction program generalizing e with
  | done result => exact hacts
  | perform op next ih => exact .inr (ih _ _ hacts)
  | nested body next _ _ =>
    refine .inr (.inl ?_)
    obtain ⟨x, hx, hconnection⟩ := hstart e.connection
    have haction : (Engine.action conn (body.run conn) e).1 = .error x := by
      rw [Engine.action_apply]
      rcases hs : conn.startTransaction e.connection with ⟨y | _, s⟩
      · rw [hs] at hx
        exact hx
      · rw [hs] at hx
        cases hx
    rw [haction]
    exact hconnection

end Program

/-- A program in test mode asks the connection to begin and to end transactions, and for nothing
else. It asks for nothing at all exactly if it comes to no action, and no step fails because of the
connection unless it does. Without a connection to begin a transaction on, some step does fail
because of it as soon as the program comes to an action. -/
theorem Engine.testMode_iff (conn : Connection σ St) {program : Program St}
    (hprogram : program.Only fun op => op.heedsTestMode) {e : Engine (σ × List Call) St}
    (htest : e.config.testMode = true) :
    (∃ calls, (program.run conn.observed e).2.connection.2 = e.connection.2 ++ calls ∧
        (∀ call ∈ calls, call.request.isControl) ∧
        (calls = [] ↔ ¬program.Acts conn.observed e)) ∧
      (program.LosesConnection conn.observed e → program.Acts conn.observed e) ∧
      ((∀ s, ∃ x, (conn.startTransaction s).1 = .error x ∧ x.isConnectionError) →
        program.Acts conn.observed e → program.LosesConnection conn.observed e) := by
  refine ⟨(Program.steers conn hprogram htest).calls, ?_, fun hstart => ?_⟩
  · exact Program.acts_of_losesConnection hprogram htest
  · exact Program.losesConnection_of_acts fun s => hstart s.1

/-- A program of a query whose rows are read, a deletion in a transaction of its own and a
question for a number: in test mode the connection is asked for nothing. -/
theorem Engine.testMode_without_action :
    let conn := Connection.scripted
    let program : Program Connection.ScriptedStatement :=
      .selectAs (fun row => .ok row) { table := "t" } fun _ _ =>
        .perform (.execWith ⟨"DELETE FROM t", []⟩ (.done (.ok .commit))) fun _ _ =>
          .perform (.lastInsertId none) fun _ _ => .done (.ok .commit)
    let e : Engine (Connection.Scripted × List Call) Connection.ScriptedStatement :=
      .new ({}, []) { testMode := true }
    (program.run conn.observed e).2.connection.2 = [] ∧
      ¬program.LosesConnection conn.observed e := by
  intro conn program e
  have honly : program.Only fun op => op.heedsTestMode :=
    .perform rfl fun _ _ => .perform rfl fun _ _ => .perform rfl fun _ _ => .done _
  have hacts : ¬program.Acts conn.observed e := id
  obtain ⟨⟨calls, hcalls, -, hnil⟩, hloses, -⟩ :=
    Engine.testMode_iff conn honly (e := e) rfl
  rw [hnil.2 hacts, List.append_nil] at hcalls
  exact ⟨hcalls, fun h => hacts (hloses h)⟩

/-- An action with nothing in it begins and commits a transaction in test mode, and without a
connection it fails. -/
theorem Engine.testMode_action :
    let body : Program Connection.ScriptedStatement := .done (.ok .commit)
    let e : Engine (Connection.Scripted × List Call) Connection.ScriptedStatement :=
      .new ({}, []) { testMode := true }
    let offline : Engine Unit Empty := .new () { testMode := true }
    (action Connection.scripted.observed (body.run Connection.scripted.observed)
        e).2.connection.2 = [⟨.start, true⟩, ⟨.commit, true⟩] ∧
      (action Connection.offline ((Program.done (.ok .commit)).run Connection.offline)
        offline).1 = .error (.connection "no database connection") :=
  ⟨rfl, rfl⟩

end BoundSql
