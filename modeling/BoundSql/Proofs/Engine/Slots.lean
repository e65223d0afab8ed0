import BoundSql.Connection.Scripted
import BoundSql.Proofs.Engine.Task

/-!
# What an engine keeps of the last statement

An engine keeps the last statement if it was run, and what the database reported about it if it was
refused. The report is kept twice, as a whole and as its message. The two never tell different
things, and a statement is never kept beside a report: every statement that is run clears all three
places before anything can go wrong, and at most one of the ways in which it ends fills them again.

* `Engine.Tells`: what the places hold after a statement has ended in one of these ways;
* `Engine.Reachable`: the states of an engine, also those inside actions;
* `Engine.slots_of_reachable`: what the places hold in all these states, and after each statement
  that is sent in one of them.
-/

namespace BoundSql

variable {σ St α : Type}

namespace Engine

/-- Nothing is kept of a statement. -/
def Cleared (e : Engine σ St) : Prop := e.statement = none ∧ e.error = none ∧ e.failure = none

/-- What is kept of a statement that was sent, if it ended in a result. -/
inductive Tells (e : Engine σ St) : Except Error Bool → Prop where
  /-- The statement was run and is kept. -/
  | kept (hstatement : e.statement.isSome) (herror : e.error = none) (hfailure : e.failure = none) :
    Tells e (.ok true)
  /-- It was refused, and the report is kept. -/
  | refused (info : ErrorInfo) (hstatement : e.statement = none)
    (herror : e.error = some info.message) (hfailure : e.failure = some info) : Tells e (.ok false)
  /-- Something went wrong, and nothing is kept. -/
  | failed (x : Error) (h : e.Cleared) : Tells e (.error x)

/-- What is kept of a statement, which is nothing unless it was sent. -/
def Settles (before : Engine σ St) (result : Except Error Bool) (after : Engine σ St) : Prop :=
  (before.Sends → after.Tells result) ∧ (¬before.Sends → after.Cleared)

/-- The places in which something is kept of a statement agree with each other. -/
structure Consistent (e : Engine σ St) : Prop where
  /-- A message is kept exactly if a report with this message is. -/
  error_iff : ∀ m, e.error = some m ↔ ∃ info, e.failure = some info ∧ info.message = m
  /-- A statement is not kept beside the message of a report. -/
  exclusive : ¬(e.statement.isSome ∧ e.error.isSome)

variable {conn : Connection σ St} {carryOut : StatementM σ St Error (Except ErrorInfo Nat)}
  {c : Compiled} {e e' : Engine σ St} {result : Except Error Bool}

/-- What leaves the places alone keeps them in agreement. Of the statement only that it is there
counts. -/
theorem Consistent.keep (h : e.Consistent) (hstatement : e'.statement.isSome = e.statement.isSome)
    (herror : e'.error = e.error) (hfailure : e'.failure = e.failure) : e'.Consistent := by
  constructor
  · rw [herror, hfailure]
    exact h.error_iff
  · rw [hstatement, herror]
    exact h.exclusive

/-- Empty places agree. -/
theorem Cleared.consistent (h : e.Cleared) : e.Consistent := by
  obtain ⟨hstatement, herror, hfailure⟩ := h
  refine ⟨fun m => ?_, by simp [hstatement]⟩
  simp [herror, hfailure]

/-- The places agree in whatever way a statement has ended. -/
theorem Tells.consistent (h : e.Tells result) : e.Consistent := by
  cases h with
  | kept _ herror hfailure =>
    refine ⟨fun m => ?_, by simp [herror]⟩
    simp [herror, hfailure]
  | refused info hstatement herror hfailure =>
    refine ⟨fun m => ?_, by simp [hstatement]⟩
    simp [herror, hfailure]
  | failed x h => exact h.consistent

/-- The places agree after a statement, whether it was sent or not. -/
theorem Settles.consistent (h : e.Settles result e') : e'.Consistent := by
  by_cases hsends : e.Sends
  · exact (h.1 hsends).consistent
  · exact (h.2 hsends).consistent

/-- Sending a statement fills the places as its result says, if they were empty. -/
theorem tells_send (h : e.Cleared) :
    (send conn carryOut c e).2.Tells (send conn carryOut c e).1 := by
  obtain ⟨hstatement, herror, hfailure⟩ := h
  rw [send_apply]
  -- The cases are the ends of the routine, in the order in which it can come to them.
  rcases conn.prepare c.sql e.connection with ⟨info | st, s⟩
  · exact .refused info hstatement rfl rfl
  · dsimp only
    rcases conn.bindAll c.binds st s with ⟨⟨x | _, st'⟩, s'⟩
    · exact .failed x ⟨hstatement, herror, hfailure⟩
    · dsimp only
      rcases carryOut st' s' with ⟨⟨x | info | count, st''⟩, s''⟩
      · exact .failed x ⟨hstatement, herror, hfailure⟩
      · exact .refused info hstatement rfl rfl
      · exact .kept rfl herror hfailure

/-- A statement that is run clears the places, and only if it is sent they are filled again. -/
theorem settles_run (conn : Connection σ St)
    (carryOut : StatementM σ St Error (Except ErrorInfo Nat)) (c : Compiled) (e : Engine σ St) :
    e.Settles (run conn carryOut c e).1 (run conn carryOut c e).2 := by
  rw [run_apply, Settles, Sends]
  -- The places are cleared before the engine asks whether the statement is to be sent.
  cases e.config.testMode with
  | true => exact ⟨fun h => Bool.noConfusion h.1, fun _ => ⟨rfl, rfl, rfl⟩⟩
  | false =>
    cases e.mode with
    | session => exact ⟨fun h => DebugMode.noConfusion h.2, fun _ => ⟨rfl, rfl, rfl⟩⟩
    | once => exact ⟨fun h => DebugMode.noConfusion h.2, fun _ => ⟨rfl, rfl, rfl⟩⟩
    | off => exact ⟨fun _ => tells_send ⟨rfl, rfl, rfl⟩, fun h => absurd ⟨rfl, rfl⟩ h⟩

/-- A statement that is used after it was run is still kept. -/
theorem settles_exec_use (conn : Connection σ St) (use : St → α × St) (c : Compiled)
    (e : Engine σ St) :
    let m : EngineM σ St (Option α) := do
      if ← exec conn c then withStatement use else return none
    e.Settles ((m e).1.map Option.isSome) (m e).2 := by
  intro m
  have hrun := settles_run conn (outcome conn.execute) c e
  have hsends := (takes_run conn (outcome conn.execute) c e).2
  have hm : m e = _ := EngineM.bind_apply (exec conn c) _ e
  rw [hm, exec]
  rcases hexec : run conn (outcome conn.execute) c e with ⟨x | _ | _, e'⟩
  · rwa [hexec] at hrun
  · rwa [hexec] at hrun
  · rw [hexec] at hrun hsends
    -- The statement was run, so it was sent and is there to be used.
    obtain ⟨hstatement, herror, hfailure⟩ := hrun.1 (hsends rfl)
    obtain ⟨statement, hstatement⟩ := Option.isSome_iff_exists.1 hstatement
    dsimp only
    rw [if_pos rfl, withStatement_apply, hstatement]
    exact ⟨fun _ => .kept rfl herror hfailure, fun h => absurd (hsends rfl) h⟩

/-- A statement that is compiled and then run fills the places as its result says. -/
theorem settles_compile {f : α → Bool} {next : Compiled → EngineM σ St α}
    (hnext : ∀ c (e : Engine σ St), e.Settles ((next c e).1.map f) (next c e).2) {s : Statement}
    (h : ((e.compiler.compile s).map Except.toOption id).1 = some c) :
    e.Settles (((compile s >>= next) e).1.map f) ((compile s >>= next) e).2 := by
  rw [EngineM.bind_apply, compile_apply]
  rcases hcompile : e.compiler.compile s with ⟨x | out, compiler⟩
  · rw [hcompile] at h
    cases h
  · exact hnext out { e with compiler }

/-- A result that is read after it was turned into another one. -/
theorem settles_map {β : Type} {m : EngineM σ St α} {g : α → β} {f : β → Bool}
    (h : e.Settles ((m e).1.map fun a => f (g a)) (m e).2) :
    e.Settles (((g <$> m) e).1.map f) ((g <$> m) e).2 := by
  rw [EngineM.map_apply]
  have hread : ((m e).1.map g).map f = (m e).1.map fun a => f (g a) := by
    cases (m e).1 <;> rfl
  show e.Settles (((m e).1.map g).map f) (m e).2
  rwa [hread]

/-- Executing again the statement that is kept leaves it where it is. -/
theorem consistent_executeAgain (conn : Connection σ St) (h : e.Consistent) :
    (executeAgain conn e).2.Consistent := by
  rw [executeAgain_apply]
  cases hstatement : e.statement with
  | none => exact h
  | some statement =>
    -- The statement is another one afterwards, but there was one before as well.
    refine h.keep ?_ rfl rfl
    rw [hstatement]
    rfl

/-- Asking for a number of a sequence leaves the places alone. -/
theorem consistent_lastInsertId (conn : Connection σ St) (sequence : Option String)
    (h : e.Consistent) : (lastInsertId conn sequence e).2.Consistent := by
  rw [lastInsertId_apply]
  split
  · exact h
  · rw [attempt_apply]
    exact h.keep rfl rfl rfl

end Engine

/-- Whether an operation answers with what its statement gave, or that it was run. -/
def Answer.isPresent : Answer → Bool
  | rows found => found.isSome
  | count found => found.isSome
  | ran carriedOut => carriedOut
  | _ => false

namespace Operation

open Engine (Settles)

variable {conn : Connection σ St} {c : Compiled} {e : Engine σ St}

/-- An operation whose statement is compiled fills the places as its result says. -/
theorem settles (conn : Connection σ St) {op : Operation}
    (h : (op.compiled e.compiler).1 = some c) :
    e.Settles ((op.run conn e).1.map Answer.isPresent) (op.run conn e).2 := by
  have hran : ∀ carryOut c (e : Engine σ St),
      e.Settles ((Engine.run conn carryOut c e).1.map id) (Engine.run conn carryOut c e).2 := by
    intro carryOut c e
    rw [Except.map_id]
    exact Engine.settles_run conn carryOut c e
  have hchange : ∀ s, ((e.compiler.compile s).map Except.toOption id).1 = some c →
      e.Settles ((Engine.change conn s e).1.map Option.isSome) (Engine.change conn s e).2 :=
    fun s hs => Engine.settles_compile (Engine.settles_exec_use conn _) hs
  cases op with
  | select q =>
    apply Engine.settles_map
    exact Engine.settles_compile (Engine.settles_exec_use conn conn.takeRows) h
  | insert table rows => exact Engine.settles_map (hchange _ h)
  | update table assignments filter => exact Engine.settles_map (hchange _ h)
  | delete table filter => exact Engine.settles_map (hchange _ h)
  | query fragment => exact Engine.settles_map (Engine.settles_compile (hran _) h)
  | exec statement => exact Engine.settles_map (hran _ _ e)
  | execWith statement callback => exact Engine.settles_map (hran _ _ e)
  | _ => cases h

/-- The places agree after an operation if they did before it. -/
theorem consistent_run (conn : Connection σ St) (op : Operation) (h : e.Consistent) :
    (op.run conn e).2.Consistent := by
  cases hcompiled : (op.compiled e.compiler).1 with
  | some c => exact (settles conn hcompiled).consistent
  | none =>
    -- Without a statement to run, what an operation changes are not the places, or it is the
    -- statement that is kept, which stays where it is.
    have hstatement : op.inSession → op.isDebug = false → (op.run conn e).2.Consistent := by
      intro hsession hdebug
      rw [(op.takes conn hsession hdebug e).eq_of_none hcompiled]
      exact h.keep rfl rfl rfl
    cases op with
    | executeAgain =>
      rw [run, EngineM.map_apply_snd]
      exact Engine.consistent_executeAgain conn h
    | lastInsertId sequence =>
      rw [run, EngineM.map_apply_snd]
      exact Engine.consistent_lastInsertId conn sequence h
    | info =>
      rw [run, EngineM.map_apply_snd, Engine.info, Engine.attempt_apply]
      exact h.keep rfl rfl rfl
    | debug => exact h.keep rfl rfl rfl
    | beginDebug => exact h.keep rfl rfl rfl
    | debugLog => exact h.keep rfl rfl rfl
    | _ => exact hstatement rfl rfl

end Operation

variable {conn : Connection σ St} {e : Engine σ St}

/-- Beginning and ending a transaction leaves the places alone, so that they agree after an action
if what is done inside keeps them so. -/
theorem Engine.consistent_action (conn : Connection σ St) {body : EngineM σ St Verdict}
    (hbody : ∀ e : Engine σ St, e.Consistent → (body e).2.Consistent) (h : e.Consistent) :
    (action conn body e).2.Consistent := by
  rw [action_apply]
  rcases conn.startTransaction e.connection with ⟨x | _, s⟩
  · exact h.keep rfl rfl rfl
  · have hinside := hbody { e with connection := s } (h.keep rfl rfl rfl)
    dsimp only
    -- However the body ends, what follows it changes nothing but the connection.
    rcases hrun : body { e with connection := s } with ⟨x | _ | _, e'⟩ <;> rw [hrun] at hinside
    · exact hinside.keep rfl rfl rfl
    · exact hinside.keep rfl rfl rfl
    · exact hinside.keep rfl rfl rfl

/-- The places agree after a program if they did before it. -/
theorem Program.consistent_run (conn : Connection σ St) (program : Program St)
    (h : e.Consistent) : (program.run conn e).2.Consistent := by
  induction program generalizing e with
  | done result => cases result <;> exact h
  | perform op next ih =>
    rw [run_perform]
    exact ih _ _ (op.consistent_run conn h)
  | nested body next ihBody ih =>
    rw [run_nested]
    exact ih _ _ (Engine.consistent_action conn (fun e he => ihBody he) h)

namespace Engine

/-- The states that an engine can come to: one thing is done after the other, and of an action also
what is done inside it. -/
inductive Reachable (conn : Connection σ St) : Engine σ St → Prop where
  /-- An engine that has run nothing yet. -/
  | new (s : σ) (config : EngineConfig) : Reachable conn (Engine.new s config)
  /-- A task was carried out. -/
  | task {e : Engine σ St} {α : Type} (task : Task α) (h : Reachable conn e) :
    Reachable conn (task.run conn e).2
  /-- An action was carried out, with whatever it is made of. -/
  | action {e : Engine σ St} (body : Program St) (h : Reachable conn e) :
    Reachable conn (Engine.action conn (body.run conn) e).2
  /-- An action has begun, and what it is made of is still to be done. -/
  | inside {e : Engine σ St} {s : σ} (hbegun : conn.startTransaction e.connection = (.ok (), s))
    (h : Reachable conn e) : Reachable conn { e with connection := s }

/-- The places agree in all states that an engine can come to. -/
theorem Reachable.consistent (h : e.Reachable conn) : e.Consistent := by
  induction h with
  | new s config => exact Cleared.consistent ⟨rfl, rfl, rfl⟩
  | task task _ ih =>
    rw [Task.run_snd]
    exact task.base.consistent_run conn ih
  | action body _ ih => exact consistent_action conn (fun e he => body.consistent_run conn he) ih
  | inside _ _ ih => exact ih.keep rfl rfl rfl

/-- What is kept of statements is consistent. In whatever state an engine is, a message is kept
exactly if a report with this message is, and not beside a statement; and after an operation whose
statement was compiled and sent, a statement is kept if the operation has a result, a report if it
has none, and neither if it has failed. -/
theorem slots_of_reachable (h : e.Reachable conn) :
    e.Consistent ∧ ∀ (op : Operation) (c : Compiled), e.Sends →
      (op.compiled e.compiler).1 = some c →
        (op.run conn e).2.Tells ((op.run conn e).1.map Answer.isPresent) :=
  ⟨h.consistent, fun _ _ hsends hcompiled => (Operation.settles conn hcompiled).1 hsends⟩

/-- A deletion that is refused inside an action leaves a report; the next one clears it, and leaves
a report of its own. -/
theorem slots_of_refused :
    let conn := Connection.scripted
    let refusing : Connection.Scripted :=
      { script := { failExecute := some { sqlstate := "42P01", message := "no such table" } } }
    let body : Program Connection.ScriptedStatement :=
      .perform (.delete "a" none) fun _ _ => .done (.ok .commit)
    let e : Engine Connection.Scripted Connection.ScriptedStatement :=
      (action conn (body.run conn) (.new refusing {})).2
    let op : Operation := .delete "b" (some { conditions := [.equals "c" (.int 5)] })
    e.Reachable conn ∧ e.error = some "no such table" ∧ e.Consistent ∧
      ((op.run conn e).1.map Answer.isPresent).toOption = some false ∧
      ∃ c, e.Sends ∧ (op.compiled e.compiler).1 = some c ∧
        (op.run conn e).2.Tells ((op.run conn e).1.map Answer.isPresent) := by
  intro conn refusing body e op
  have hreachable : e.Reachable conn := .action body (.new refusing {})
  have h := slots_of_reachable hreachable
  have hcompiled : (op.compiled e.compiler).1 =
      some ⟨"DELETE FROM \"b\" WHERE \"c\" = :ph0_b", [(":ph0_b", ⟨.int, .int 5⟩)]⟩ := by
    decide +kernel
  have hsends : e.Sends := ⟨by decide +kernel, by decide +kernel⟩
  exact ⟨hreachable, by decide +kernel, h.1, by decide +kernel, _, hsends, hcompiled,
    h.2 op _ hsends hcompiled⟩

end Engine

end BoundSql
