import BoundSql.Connection.Scripted
import BoundSql.Proofs.Connection.Observed
import BoundSql.Proofs.Engine.Steps

/-!
# Debug sessions

Between `beginDebug` and `debugLog` statements are collected and not sent. That a session runs
nothing and loses nothing depends on what happens inside it, though: `debug` ends collecting, after
it one statement is shown, and those behind it are sent. In test mode nothing is collected at all.

* `Operation.compiledAll`: the statements that a sequence of operations compiles;
* `Engine.Takes`: what an engine can do with a statement, and `Operation.takes`: that this is all;
* `Engine.session_iff`: what a session hands out, and when it runs nothing and loses nothing.
-/

namespace BoundSql

variable {σ St α : Type}

namespace Operation

/-- Whether an operation runs a statement or shows the next one. -/
def inSession : Operation → Bool
  | select _ | insert _ _ | update _ _ _ | delete _ _ | query _ | exec _ | execWith _ _ => true
  | debug => true
  | _ => false

/-- Whether an operation shows the next statement. -/
def isDebug : Operation → Bool
  | debug => true
  | _ => false

/-- The statement that an operation compiles, if it can be compiled, and the compiler afterwards.
Some operations are given a statement that is compiled already. -/
def compiled (c : Compiler) : Operation → Option Compiled × Compiler
  | select q => (c.compile (.select q)).map Except.toOption id
  | insert table rows => (c.compile (.insert table rows)).map Except.toOption id
  | update table assignments filter =>
    (c.compile (.update table assignments filter)).map Except.toOption id
  | delete table filter => (c.compile (.delete table filter)).map Except.toOption id
  | query fragment => (c.compile (.raw fragment)).map Except.toOption id
  | exec statement => (some statement, c)
  | execWith statement _ => (some statement, c)
  | _ => (none, c)

/-- The statements that operations compile, one operation after the other. -/
def compiledAll (c : Compiler) : List Operation → List Compiled
  | [] => []
  | op :: ops => (op.compiled c).1.toList ++ compiledAll (op.compiled c).2 ops

/-- Carry out operations one after the other, whether they fail or not. -/
def runAll (conn : Connection σ St) (ops : List Operation) (e : Engine σ St) : Engine σ St :=
  ops.foldl (fun e op => (op.run conn e).2) e

end Operation

/-- What an engine can become when it is given a statement: it shows the statement, collects it or
sends it, as it is told to. Only what is sent reaches the connection. -/
inductive Engine.Takes (e : Engine σ St) (c : Compiled) : Engine σ St → Prop where
  /-- In test mode the statement is shown. -/
  | tested (h : e.config.testMode = true) :
    Takes e c { e with
      statement := none, error := none, failure := none, queryString := some (e.literal c) }
  /-- In a session the statement is collected. -/
  | collected (h : e.config.testMode = false) (hmode : e.mode = .session) :
    Takes e c { e with
      statement := none, error := none, failure := none,
      collected := e.collected ++ [e.literal c] }
  /-- Once the statement is shown. -/
  | shown (h : e.config.testMode = false) (hmode : e.mode = .once) :
    Takes e c { e with
      statement := none, error := none, failure := none, queryString := some (e.literal c),
      mode := .off }
  /-- Otherwise it is logged and sent, with some result. -/
  | sent (h : e.Sends) (connection : σ) (statement : Option St) (error : Option String)
      (failure : Option ErrorInfo) :
    Takes e c { e with
      connection, statement, error, failure,
      history := (if e.config.logging then e.history else []) ++ [c] }

namespace Engine

/-- How a statement is shown depends on the quotes alone. -/
theorem literal_congr {σ' St' : Type} {e : Engine σ St} {e' : Engine σ' St'}
    (h : e.config.literalStyle = e'.config.literalStyle) : e.literal = e'.literal := by
  ext c
  rw [literal, literal, h]

variable {conn : Connection σ St} {carryOut : StatementM σ St Error (Except ErrorInfo Nat)}
  {c : Compiled} {e e' : Engine σ St}

/-- A statement that is run is taken; only one that is sent can be carried out. -/
theorem takes_run (conn : Connection σ St)
    (carryOut : StatementM σ St Error (Except ErrorInfo Nat)) (c : Compiled) (e : Engine σ St) :
    e.Takes c (run conn carryOut c e).2 ∧ ((run conn carryOut c e).1 = .ok true → e.Sends) := by
  obtain ⟨connection, config, compiler, statement, error, failure, history, mode, collected,
    shown⟩ := e
  rw [run_apply]
  dsimp only
  -- The engine asks for the test mode before it looks at the session.
  cases htest : config.testMode with
  | true => exact ⟨.tested htest, fun h => by cases h⟩
  | false =>
    cases mode with
    | session => exact ⟨.collected htest rfl, fun h => by cases h⟩
    | once => exact ⟨.shown htest rfl, fun h => by cases h⟩
    | off =>
      refine ⟨?_, fun _ => ⟨htest, rfl⟩⟩
      have hsend := send_frame conn carryOut c
        ⟨connection, config, compiler, none, none, none,
          (if config.logging then history else []) ++ [c], .off, collected, shown⟩
      obtain ⟨connection', statement', error', failure', hsend⟩ := hsend
      have htakes := Takes.sent (c := c) (e := ⟨connection, config, compiler, statement, error,
        failure, history, .off, collected, shown⟩) ⟨htest, rfl⟩ connection' statement' error'
        failure'
      exact hsend ▸ htakes

/-- What is kept of a statement that was sent can change without the engine taking it otherwise. -/
theorem Takes.keep (h : e.Takes c e') (hsends : e.Sends) (statement : Option St) :
    e.Takes c { e' with statement } := by
  cases h with
  | tested htest => exact absurd (htest.symm.trans hsends.1) (by decide)
  | collected _ hmode => exact absurd (hmode.symm.trans hsends.2) (by decide)
  | shown _ hmode => exact absurd (hmode.symm.trans hsends.2) (by decide)
  | sent _ connection _ error failure =>
    exact .sent hsends connection statement error failure

/-- Using the statement that is kept changes nothing but the statement. -/
theorem withStatement_frame (use : St → α × St) (e : Engine σ St) :
    ∃ statement, (withStatement use e).2 = { e with statement } := by
  rw [withStatement_apply]
  cases e.statement with
  | none => exact ⟨e.statement, rfl⟩
  | some statement => exact ⟨some (use statement).2, rfl⟩

/-- A statement that is run is taken, also if it is used after it was carried out. -/
theorem takes_exec_use (conn : Connection σ St) (use : St → α × St) (c : Compiled)
    (e : Engine σ St) :
    e.Takes c ((do if ← exec conn c then withStatement use else return none :
      EngineM σ St (Option α)) e).2 := by
  obtain ⟨htakes, hsends⟩ := takes_run conn (outcome conn.execute) c e
  rw [EngineM.bind_apply, exec]
  -- Only a statement that was carried out is used, and this one was sent.
  rcases hrun : run conn (outcome conn.execute) c e with ⟨x | _ | _, e'⟩
  · rwa [hrun] at htakes
  · rw [hrun] at htakes
    exact htakes
  · rw [hrun] at htakes hsends
    obtain ⟨statement, hstatement⟩ := withStatement_frame use e'
    dsimp only
    rw [if_pos rfl, hstatement]
    exact htakes.keep (hsends rfl) statement

/-- What an engine becomes when a statement may have been compiled for it: it takes the statement,
or nothing but the compiler changes. -/
def TakesOption (e : Engine σ St) (result : Option Compiled × Compiler) (e' : Engine σ St) : Prop :=
  match result with
  | (none, compiler) => e' = { e with compiler }
  | (some c, compiler) => Takes { e with compiler } c e'

/-- A statement that is compiled and then taken. -/
theorem takesOption_compile {next : Compiled → EngineM σ St α}
    (hnext : ∀ (c : Compiled) (e : Engine σ St), e.Takes c (next c e).2) (s : Statement)
    (e : Engine σ St) :
    e.TakesOption ((e.compiler.compile s).map Except.toOption id) ((compile s >>= next) e).2 := by
  rw [EngineM.bind_apply, compile_apply]
  rcases e.compiler.compile s with ⟨x | c, compiler⟩
  · rfl
  · exact hnext c { e with compiler }

/-- A statement that changes rows is compiled and taken. -/
theorem takesOption_change (conn : Connection σ St) (s : Statement) (e : Engine σ St) :
    e.TakesOption ((e.compiler.compile s).map Except.toOption id) (change conn s e).2 :=
  takesOption_compile (fun c e => takes_exec_use conn _ c e) s e

end Engine

/-- All that an operation in a session does is that its statement, if it can be compiled, is taken
by the engine. -/
theorem Operation.takes (conn : Connection σ St) {op : Operation} (hop : op.inSession)
    (hdebug : op.isDebug = false) (e : Engine σ St) :
    e.TakesOption (op.compiled e.compiler) (op.run conn e).2 := by
  cases op with
  | select q =>
    rw [run, EngineM.map_apply_snd]
    exact Engine.takesOption_compile (fun c e => Engine.takes_exec_use conn _ c e) _ e
  | insert table rows =>
    rw [run, EngineM.map_apply_snd]
    exact Engine.takesOption_change conn _ e
  | update table assignments filter =>
    rw [run, EngineM.map_apply_snd]
    exact Engine.takesOption_change conn _ e
  | delete table filter =>
    rw [run, EngineM.map_apply_snd]
    exact Engine.takesOption_change conn _ e
  | query fragment =>
    rw [run, EngineM.map_apply_snd]
    exact Engine.takesOption_compile (fun c e => (Engine.takes_run conn _ c e).1) _ e
  | exec c =>
    rw [run, EngineM.map_apply_snd]
    exact (Engine.takes_run conn _ c e).1
  | execWith c callback =>
    rw [run, EngineM.map_apply_snd]
    exact (Engine.takes_run conn _ c e).1
  | debug => cases hdebug
  | _ => cases hop

namespace Engine.TakesOption

variable {e e' : Engine σ St} {result : Option Compiled × Compiler}

/-- Whatever an engine does with a statement, it stays configured as it is. -/
theorem config_eq (h : e.TakesOption result e') : e'.config = e.config := by
  obtain ⟨_ | c, compiler⟩ := result
  · rw [show e' = _ from h]
  · cases (show Takes _ c e' from h) <;> rfl

/-- Whatever an engine does with a statement, it goes on with the compiler of the statement. -/
theorem compiler_eq (h : e.TakesOption result e') : e'.compiler = result.2 := by
  obtain ⟨_ | c, compiler⟩ := result
  · rw [show e' = _ from h]
  · cases (show Takes _ c e' from h) <;> rfl

/-- In test mode a statement reaches neither the connection nor what is collected. -/
theorem of_test (h : e.TakesOption result e') (htest : e.config.testMode = true) :
    e'.connection = e.connection ∧ e'.collected = e.collected := by
  obtain ⟨_ | c, compiler⟩ := result
  · rw [show e' = _ from h]
    exact ⟨rfl, rfl⟩
  · cases (show Takes _ c e' from h) with
    | tested _ => exact ⟨rfl, rfl⟩
    | collected hoff _ => exact absurd (htest.symm.trans hoff) (by decide)
    | shown hoff _ => exact absurd (htest.symm.trans hoff) (by decide)
    | sent hsends _ _ _ _ => exact absurd (htest.symm.trans hsends.1) (by decide)

/-- In a session a statement is collected and does not reach the connection, and the session goes
on. -/
theorem of_session (h : e.TakesOption result e') (htest : e.config.testMode = false)
    (hmode : e.mode = .session) :
    e'.connection = e.connection ∧ e'.mode = .session ∧
      e'.collected = e.collected ++ result.1.toList.map e.literal := by
  obtain ⟨_ | c, compiler⟩ := result
  · rw [show e' = _ from h]
    exact ⟨rfl, hmode, (List.append_nil _).symm⟩
  · cases (show Takes _ c e' from h) with
    | tested hon => exact absurd (htest.symm.trans hon) (by decide)
    | collected _ _ => exact ⟨rfl, hmode, rfl⟩
    | shown _ honce => exact absurd (hmode.symm.trans honce) (by decide)
    | sent hsends _ _ _ _ => exact absurd (hmode.symm.trans hsends.2) (by decide)

/-- Outside of a session a statement is not collected, and no session begins. -/
theorem of_ne_session (h : e.TakesOption result e') (hmode : e.mode ≠ .session) :
    e'.mode ≠ .session ∧ e'.collected = e.collected := by
  obtain ⟨_ | c, compiler⟩ := result
  · rw [show e' = _ from h]
    exact ⟨hmode, rfl⟩
  · cases (show Takes _ c e' from h) with
    | tested _ => exact ⟨hmode, rfl⟩
    | collected _ hsession => exact absurd hsession hmode
    | shown _ _ => exact ⟨DebugMode.noConfusion, rfl⟩
    | sent _ _ _ _ _ => exact ⟨hmode, rfl⟩

/-- A statement that is sent and logged comes behind those that were. -/
theorem of_sends (h : e.TakesOption result e') (hsends : e.Sends)
    (hlogging : e.config.logging = true) :
    e'.mode = .off ∧ e'.history = e.history ++ result.1.toList := by
  obtain ⟨_ | c, compiler⟩ := result
  · rw [show e' = _ from h]
    exact ⟨hsends.2, (List.append_nil _).symm⟩
  · cases (show Takes _ c e' from h) with
    | tested hon => exact absurd (hsends.1.symm.trans hon) (by decide)
    | collected _ hsession => exact absurd (hsends.2.symm.trans hsession) (by decide)
    | shown _ honce => exact absurd (hsends.2.symm.trans honce) (by decide)
    | sent _ _ _ _ _ =>
      refine ⟨hsends.2, ?_⟩
      show (if e.config.logging then e.history else []) ++ [c] = e.history ++ [c]
      rw [hlogging]
      rfl

/-- Without a statement nothing but the compiler changes. -/
theorem eq_of_none (h : e.TakesOption result e') (hnone : result.1 = none) :
    e' = { e with compiler := result.2 } := by
  obtain ⟨first, compiler⟩ := result
  obtain rfl : first = none := hnone
  exact h

/-- Without a statement the connection is left alone. -/
theorem of_none (h : e.TakesOption result e') (hnone : result.1 = none) :
    e'.connection = e.connection := by
  rw [h.eq_of_none hnone]

end Engine.TakesOption

namespace Operation

variable (conn : Connection σ St) {op : Operation} {ops : List Operation} {e : Engine σ St}

/-- A first operation is carried out before the others. -/
theorem runAll_cons (op : Operation) (ops : List Operation) (e : Engine σ St) :
    runAll conn (op :: ops) e = runAll conn ops (op.run conn e).2 := rfl

/-- Showing the next statement only sets the mode. -/
theorem run_debug (e : Engine σ St) : (debug.run conn e).2 = e.debug := rfl

/-- Only one operation shows the next statement. -/
theorem eq_debug_of_isDebug (h : op.isDebug = true) : op = debug := by
  cases op with
  | debug => rfl
  | _ => cases h

/-- An operation in a session leaves the engine configured as it is, with the compiler of its
statement. -/
theorem config_and_compiler_run (hop : op.inSession) (e : Engine σ St) :
    (op.run conn e).2.config = e.config ∧
      (op.run conn e).2.compiler = (op.compiled e.compiler).2 := by
  cases hdebug : op.isDebug with
  | true =>
    obtain rfl := eq_debug_of_isDebug hdebug
    exact ⟨rfl, rfl⟩
  | false => exact ⟨(takes conn hop hdebug e).config_eq, (takes conn hop hdebug e).compiler_eq⟩

/-- Where no statement can be compiled the connection is left alone. -/
theorem connection_runAll_of_nil (hops : ∀ op ∈ ops, op.inSession)
    (hnil : compiledAll e.compiler ops = []) :
    (runAll conn ops e).connection = e.connection := by
  induction ops generalizing e with
  | nil => rfl
  | cons op ops ih =>
    obtain ⟨hop, hops⟩ := List.forall_mem_cons.1 hops
    obtain ⟨hfirst, hrest⟩ := List.append_eq_nil_iff.1 hnil
    -- The rest is compiled by the compiler that the operation leaves.
    rw [← (config_and_compiler_run conn hop e).2] at hrest
    rw [runAll_cons, ih hops hrest]
    cases hdebug : op.isDebug with
    | true =>
      obtain rfl := eq_debug_of_isDebug hdebug
      rfl
    | false => exact (takes conn hop hdebug e).of_none (Option.toList_eq_nil_iff.1 hfirst)

/-- In test mode operations reach neither the connection nor what is collected. -/
theorem runAll_of_test (hops : ∀ op ∈ ops, op.inSession) (htest : e.config.testMode = true) :
    (runAll conn ops e).connection = e.connection ∧
      (runAll conn ops e).collected = e.collected := by
  induction ops generalizing e with
  | nil => exact ⟨rfl, rfl⟩
  | cons op ops ih =>
    obtain ⟨hop, hops⟩ := List.forall_mem_cons.1 hops
    have hconfig := (config_and_compiler_run conn hop e).1
    obtain ⟨hconnection, hcollected⟩ := ih (e := (op.run conn e).2) hops (by rw [hconfig, htest])
    rw [runAll_cons, hconnection, hcollected]
    cases hdebug : op.isDebug with
    | true =>
      obtain rfl := eq_debug_of_isDebug hdebug
      exact ⟨rfl, rfl⟩
    | false => exact (takes conn hop hdebug e).of_test htest

/-- Outside of a session nothing is collected. -/
theorem collected_runAll_of_ne_session (hops : ∀ op ∈ ops, op.inSession)
    (hmode : e.mode ≠ .session) : (runAll conn ops e).collected = e.collected := by
  induction ops generalizing e with
  | nil => rfl
  | cons op ops ih =>
    obtain ⟨hop, hothers⟩ := List.forall_mem_cons.1 hops
    rw [runAll_cons]
    cases hdebug : op.isDebug with
    | true =>
      -- Showing the next statement begins no session.
      obtain rfl := eq_debug_of_isDebug hdebug
      exact ih (e := e.debug) hothers DebugMode.noConfusion
    | false =>
      obtain ⟨hmode', hcollected⟩ := (takes conn hop hdebug e).of_ne_session hmode
      rw [ih hothers hmode', hcollected]

/-- The operations before the first one that shows the next statement. -/
def beforeDebug (ops : List Operation) : List Operation := ops.takeWhile fun op => !op.isDebug

/-- What a session collects are the statements that are compiled before the first statement is
shown. -/
theorem collected_runAll (hops : ∀ op ∈ ops, op.inSession) (htest : e.config.testMode = false)
    (hmode : e.mode = .session) :
    (runAll conn ops e).collected =
      e.collected ++ (compiledAll e.compiler (beforeDebug ops)).map e.literal := by
  induction ops generalizing e with
  | nil => exact (List.append_nil _).symm
  | cons op ops ih =>
    obtain ⟨hop, hothers⟩ := List.forall_mem_cons.1 hops
    rw [runAll_cons, beforeDebug, List.takeWhile_cons]
    cases hdebug : op.isDebug with
    | true =>
      -- The session ends here, and nothing is collected any more.
      obtain rfl := eq_debug_of_isDebug hdebug
      rw [run_debug, collected_runAll_of_ne_session conn (e := e.debug) hothers
        DebugMode.noConfusion]
      exact (List.append_nil _).symm
    | false =>
      obtain ⟨-, hmode', hcollected⟩ := (takes conn hop hdebug e).of_session htest hmode
      obtain ⟨hconfig, hcompiler⟩ := config_and_compiler_run conn hop e
      have hliteral : (op.run conn e).2.literal = e.literal :=
        Engine.literal_congr (congrArg EngineConfig.literalStyle hconfig)
      rw [ih hothers (by rw [hconfig, htest]) hmode', hcollected, hcompiler, hliteral]
      simp [compiledAll, beforeDebug]

/-- A session leaves the connection alone if no statement is compiled after the first one is to be
shown. -/
theorem connection_runAll (hops : ∀ op ∈ ops, op.inSession) (htest : e.config.testMode = false)
    (hmode : e.mode = .session)
    (hall : compiledAll e.compiler (beforeDebug ops) = compiledAll e.compiler ops) :
    (runAll conn ops e).connection = e.connection := by
  induction ops generalizing e with
  | nil => rfl
  | cons op ops ih =>
    obtain ⟨hop, hothers⟩ := List.forall_mem_cons.1 hops
    rw [beforeDebug, List.takeWhile_cons] at hall
    cases hdebug : op.isDebug with
    | true =>
      -- No statement is left that could be sent.
      rw [hdebug] at hall
      exact connection_runAll_of_nil conn hops hall.symm
    | false =>
      obtain ⟨hconnection, hmode', -⟩ := (takes conn hop hdebug e).of_session htest hmode
      obtain ⟨hconfig, hcompiler⟩ := config_and_compiler_run conn hop e
      simp only [hdebug, Bool.not_false, if_true, compiledAll, List.append_cancel_left_eq,
        ← hcompiler] at hall
      rw [runAll_cons, ih hothers (by rw [hconfig, htest]) hmode' hall, hconnection]

/-- Before the first statement is shown no other statements are compiled than in all. -/
theorem compiledAll_beforeDebug_prefix (c : Compiler) (ops : List Operation) :
    compiledAll c (beforeDebug ops) <+: compiledAll c ops := by
  induction ops generalizing c with
  | nil => exact List.prefix_rfl
  | cons op ops ih =>
    rw [beforeDebug, List.takeWhile_cons]
    split
    · exact List.prefix_append_right_inj _ |>.2 (ih _)
    · exact List.nil_prefix

end Operation

/-- What a debug session hands out are the statements that were compiled before the first statement
was to be shown, and in test mode none, behind what was collected and not handed out before. So a
session runs nothing and loses nothing exactly if these are all statements that were compiled. -/
theorem Engine.session_iff (conn : Connection σ St) {ops : List Operation}
    (hops : ∀ op ∈ ops, op.inSession) (e : Engine (σ × List Call) St) :
    let asked := Operation.compiledAll e.compiler ops
    let kept := if e.config.testMode then [] else
      Operation.compiledAll e.compiler (Operation.beforeDebug ops)
    let after := Operation.runAll conn.observed ops e.beginDebug
    after.debugLog.1 = e.collected ++ kept.map e.literal ∧
      ((after.connection.2 = e.connection.2 ∧
        after.debugLog.1 = e.collected ++ asked.map e.literal) ↔ kept = asked) := by
  intro asked kept after
  have hcollected : after.debugLog.1 = e.collected ++ kept.map e.literal := by
    change after.collected = _
    cases htest : e.config.testMode with
    | true =>
      rw [(Operation.runAll_of_test conn.observed hops (e := e.beginDebug) htest).2]
      simp [kept, htest, beginDebug]
    | false =>
      rw [Operation.collected_runAll conn.observed hops (e := e.beginDebug) htest rfl]
      simp only [kept, htest]
      rfl
  have hprefix : kept <+: asked := by
    simp only [kept]
    split
    · exact List.nil_prefix
    · exact Operation.compiledAll_beforeDebug_prefix _ _
  refine ⟨hcollected, ?_, fun hkept => ⟨?_, by rw [hcollected, hkept]⟩⟩
  · rintro ⟨-, hlog⟩
    -- Nothing is handed out in another order, so that the number of statements decides.
    have hmap := List.append_cancel_left (hcollected.symm.trans hlog)
    exact hprefix.eq_of_length (by simpa using congrArg List.length hmap)
  · cases htest : e.config.testMode with
    | true =>
      rw [(Operation.runAll_of_test conn.observed hops (e := e.beginDebug) htest).1]
      rfl
    | false =>
      have hall : Operation.compiledAll e.compiler (Operation.beforeDebug ops) = asked := by
        rw [← hkept]
        simp [kept, htest]
      rw [Operation.connection_runAll conn.observed hops (e := e.beginDebug) htest rfl hall]
      rfl

/-- A session in which one of three statements cannot be compiled: the connection receives nothing,
and the other two are handed out. -/
theorem Engine.session_of_deletions :
    let conn := Connection.scripted
    let e : Engine (Connection.Scripted × List Call) Connection.ScriptedStatement :=
      .new ({}, []) { tablePrefix := "p_" }
    let ops : List Operation :=
      [.delete "a" none, .delete "b c" none, .execWith ⟨"SELECT 1", []⟩ (.done (.ok .commit))]
    let after := Operation.runAll conn.observed ops e.beginDebug
    after.connection.2 = [] ∧ after.debugLog.1 = ["DELETE FROM \"p_a\"", "SELECT 1"] := by
  intro conn e ops after
  have hops : ∀ op ∈ ops, op.inSession := by simp [ops, Operation.inSession]
  have hlog : (Operation.compiledAll e.compiler ops).map e.literal =
      ["DELETE FROM \"p_a\"", "SELECT 1"] := by decide +kernel
  have hiff := (session_iff conn hops e).2.2 rfl
  exact ⟨hiff.1, hiff.2.trans hlog⟩

/-- A session in which a statement is to be shown: the next statement is shown and not collected,
and the one behind it reaches the connection. -/
theorem Engine.session_ended_by_debug :
    let conn := Connection.scripted
    let e : Engine (Connection.Scripted × List Call) Connection.ScriptedStatement :=
      .new ({}, []) {}
    let ops : List Operation := [.debug, .delete "a" none, .delete "b" none]
    let after := Operation.runAll conn.observed ops e.beginDebug
    after.connection.2 = [⟨.prepare, true⟩, ⟨.execute, true⟩] ∧
      after.queryString = some "DELETE FROM \"a\"" ∧ after.debugLog.1 = [] ∧
      (Operation.compiledAll e.compiler ops).map e.literal =
        ["DELETE FROM \"a\"", "DELETE FROM \"b\""] := by
  decide +kernel

end BoundSql
