import BoundSql.Connection.Scripted
import BoundSql.Proofs.Connection.Transcript
import BoundSql.Proofs.Engine.Course
import BoundSql.Proofs.Engine.Session

/-!
# The log and the connection

The log of an engine mirrors what the connection was asked to prepare. A statement comes into the log
when it is sent, before it is known what becomes of it: whether it can be prepared, whether it is
refused, and whether its transaction is undone. Statements that are only shown, and those that
cannot be compiled, are in neither. Without logging only the last statement is kept.

* `Program.sent`: the statements that a program sends;
* `Engine.Logs`: how an engine changes when statements are sent;
* `Engine.history_transcript`: the log of an engine and the texts that its connection was asked
  to prepare.
-/

namespace BoundSql

variable {σ St α : Type}

instance (e : Engine σ St) : Decidable e.Sends := inferInstanceAs (Decidable (_ ∧ _))

/-- The statements that an operation sends: at most one, which it compiles. -/
def Operation.sent (e : Engine σ St) (op : Operation) : List Compiled :=
  if e.Sends then (op.compiled e.compiler).1.toList else []

/-- The statements that are sent inside of a transaction: none if it cannot be begun. -/
def Connection.sentInside (conn : Connection σ St) (sent : σ → List Compiled) (s : σ) :
    List Compiled :=
  match conn.startTransaction s with
  | (.ok (), s) => sent s
  | (.error _, _) => []

/-- The statements that a program sends, one step after the other. Those inside of a transaction are
sent if it can be begun, whatever becomes of it. -/
def Program.sent (conn : Connection σ St) : Program St → Engine σ St → List Compiled
  | done _, _ => []
  | perform operation next, e =>
    let after := operation.run conn e
    operation.sent e ++ (next after.1 after.2.shown).sent conn after.2
  | nested body next, e =>
    let after := Engine.action conn (body.run conn) e
    conn.sentInside (fun s => body.sent conn { e with connection := s }) e.connection ++
      (next after.1 after.2.shown).sent conn after.2

/-- What is kept of statements that were sent: all of them behind those that were kept before, or
only the last one. -/
def EngineConfig.record (config : EngineConfig) (history sent : List Compiled) : List Compiled :=
  sent.foldl (fun history c => (if config.logging then history else []) ++ [c]) history

namespace EngineConfig

variable {config : EngineConfig} {history first second : List Compiled}

theorem record_append :
    config.record history (first ++ second) = config.record (config.record history first) second :=
  List.foldl_append

/-- With logging all statements are kept. -/
theorem record_of_logging (h : config.logging = true) :
    config.record history first = history ++ first := by
  induction first generalizing history with
  | nil => exact (List.append_nil _).symm
  | cons c rest ih =>
    rw [record, List.foldl_cons, if_pos h]
    exact (ih).trans (List.append_assoc _ _ _)

/-- Without logging only the last statement is kept. -/
theorem record_of_not_logging (h : config.logging = false) :
    config.record [] first = first.getLast?.toList := by
  rcases List.eq_nil_or_concat first with rfl | ⟨earlier, c, rfl⟩
  · rfl
  · rw [List.concat_eq_append, record_append, record, List.foldl_cons, h, List.getLast?_concat]
    rfl

end EngineConfig

/-- From one engine to another statements were sent: the connection was asked to prepare them, and
they were recorded. -/
structure Engine.Logs (sent : List Compiled) (before after : Engine (σ × List String) St) :
    Prop where
  /-- The engine behaves as before. -/
  config : after.config = before.config
  /-- The texts were to be prepared. -/
  transcript : after.connection.2 = before.connection.2 ++ sent.map Compiled.sql
  /-- The statements were recorded. -/
  history : after.history = before.config.record before.history sent

namespace Engine.Logs

variable {first second : List Compiled} {a b c : Engine (σ × List String) St}

/-- Nothing was sent. -/
theorem of_same (hconfig : b.config = a.config) (htranscript : b.connection.2 = a.connection.2)
    (hhistory : b.history = a.history) : Logs [] a b :=
  ⟨hconfig, by rw [htranscript, List.map_nil, List.append_nil], hhistory⟩

/-- Statements were sent after others. -/
theorem trans (hab : Logs first a b) (hbc : Logs second b c) : Logs (first ++ second) a c where
  config := hbc.config.trans hab.config
  transcript := by rw [hbc.transcript, hab.transcript, List.map_append, List.append_assoc]
  history := by rw [hbc.history, hab.history, hab.config, EngineConfig.record_append]

/-- Nothing more was sent. -/
theorem trans_same (hab : Logs first a b) (hbc : Logs [] b c) : Logs first a c :=
  List.append_nil first ▸ hab.trans hbc

end Engine.Logs

namespace Engine

variable (conn : Connection σ St)

/-- A statement that is run is sent, or else it is in neither. -/
theorem logs_run {carryOut : StatementM (σ × List String) St Error (Except ErrorInfo Nat)}
    (hcarry : carryOut.Silent) (c : Compiled) (e : Engine (σ × List String) St) :
    Logs (if e.Sends then [c] else []) e (run conn.transcribed carryOut c e).2 := by
  obtain ⟨htakes, -⟩ := takes_run conn.transcribed carryOut c e
  have hconnection := @connection_run _ _ conn.transcribed carryOut c e
  generalize (run conn.transcribed carryOut c e).2 = e' at *
  rcases hconnection with ⟨hsends, hsent⟩ | ⟨hstays, hsame⟩
  · rw [if_pos hsends]
    refine ⟨?_, ?_, ?_⟩
    · cases htakes <;> rfl
    · rw [hsent, ← transcript_sent conn c hcarry, List.map_singleton]
    · cases htakes with
      | tested htest => exact absurd (htest.symm.trans hsends.1) (by decide)
      | collected _ hmode => exact absurd (hmode.symm.trans hsends.2) (by decide)
      | shown _ hmode => exact absurd (hmode.symm.trans hsends.2) (by decide)
      | sent => rfl
  · rw [if_neg hstays]
    cases htakes with
    | sent hsends => exact absurd hsends hstays
    | _ => exact .of_same rfl rfl rfl

/-- Using the statement that is kept sends nothing. -/
theorem logs_withStatement (use : St → α × St) (e : Engine (σ × List String) St) :
    Logs [] e (withStatement use e).2 := by
  obtain ⟨statement, hstatement⟩ := withStatement_frame use e
  rw [hstatement]
  exact .of_same rfl rfl rfl

/-- A statement that is run and used is sent once. -/
theorem logs_exec_use (use : St → α × St) (c : Compiled) (e : Engine (σ × List String) St) :
    Logs (if e.Sends then [c] else []) e
      ((do if ← exec conn.transcribed c then withStatement use else return none :
        EngineM (σ × List String) St (Option α)) e).2 := by
  have hrun := logs_run conn (conn.silent_execute.outcome) c e
  rw [EngineM.bind_apply, exec]
  rcases hexec : run conn.transcribed (outcome conn.transcribed.execute) c e with ⟨x | _ | _, e'⟩
  · rwa [hexec] at hrun
  · rwa [hexec] at hrun
  · rw [hexec] at hrun
    exact hrun.trans_same (logs_withStatement use e')

/-- A statement that is compiled and then run is sent if it could be compiled. -/
theorem logs_compile {next : Compiled → EngineM (σ × List String) St α}
    (hnext : ∀ c e, Logs (if e.Sends then [c] else []) e (next c e).2) (s : Statement)
    (e : Engine (σ × List String) St) :
    Logs (if e.Sends then (e.compiler.compile s).1.toOption.toList else []) e
      ((compile s >>= next) e).2 := by
  rw [EngineM.bind_apply, compile_apply]
  rcases e.compiler.compile s with ⟨x | c, compiler⟩
  · rw [show Except.toOption (.error x : Except Error Compiled) = none from rfl, Option.toList_none,
      ite_self]
    exact .of_same rfl rfl rfl
  · have hlogs := hnext c { e with compiler }
    exact ⟨hlogs.config, hlogs.transcript, hlogs.history⟩

/-- A statement that changes rows is sent if it could be compiled. -/
theorem logs_change (s : Statement) (e : Engine (σ × List String) St) :
    Logs (if e.Sends then (e.compiler.compile s).1.toOption.toList else []) e
      (change conn.transcribed s e).2 :=
  logs_compile (logs_exec_use conn _) s e

/-- An action on the connection that prepares nothing sends nothing. -/
theorem logs_attempt {action : ConnectionM (σ × List String) Error α}
    (h : ∀ s, (action s).2.2 = s.2) (e : Engine (σ × List String) St) :
    Logs [] e (attempt action e).2 := by
  rw [attempt_apply]
  exact .of_same rfl (h e.connection) rfl

/-- Beginning and ending a transaction sends nothing, so that in an action the statements of its body
are sent if the transaction can be begun. -/
theorem logs_action {body : EngineM (σ × List String) St Verdict}
    {sent : Engine (σ × List String) St → List Compiled}
    (hbody : ∀ e, Logs (sent e) e (body e).2) (e : Engine (σ × List String) St) :
    Logs (conn.transcribed.sentInside (fun s => sent { e with connection := s }) e.connection) e
      (action conn.transcribed body e).2 := by
  have hstart : (conn.transcribed.startTransaction e.connection).2.2 = e.connection.2 := rfl
  rw [action_apply, Connection.sentInside]
  rcases hs : conn.transcribed.startTransaction e.connection with ⟨x | _, s⟩ <;> rw [hs] at hstart
  · exact .of_same rfl hstart rfl
  dsimp only
  have hbegun : Logs [] e { e with connection := s } := .of_same rfl hstart rfl
  have hinside := hbegun.trans (hbody { e with connection := s })
  -- Whatever the body ends in, what ends the transaction prepares nothing.
  have hrollBack : ∀ (failure : Error) (e' : Engine (σ × List String) St), Logs [] e'
      { e' with connection := (conn.transcribed.rollBackWith failure e'.connection).2 } := by
    intro failure e'
    rw [Connection.rollBackWith_apply_snd]
    exact .of_same rfl rfl rfl
  rcases hrun : body { e with connection := s } with ⟨x | _ | _, e'⟩ <;> rw [hrun] at hinside
  · exact hinside.trans_same (hrollBack _ e')
  · exact hinside.trans_same (.of_same rfl rfl rfl)
  · exact hinside.trans_same (hrollBack _ e')

end Engine

variable (conn : Connection σ St)

/-- An operation sends its statement. -/
theorem Operation.logs (op : Operation) (e : Engine (σ × List String) St) :
    Engine.Logs (op.sent e) e (op.run conn.transcribed e).2 := by
  -- An operation without a statement sends nothing, whether statements are sent or not.
  have hnone : (op.compiled e.compiler).1 = none → op.sent e = [] := by
    intro h
    rw [sent, h, Option.toList_none, ite_self]
  cases op with
  | select q =>
    rw [run, EngineM.map_apply_snd]
    exact Engine.logs_compile (Engine.logs_exec_use conn _) _ e
  | insert table rows | update table assignments filter | delete table filter =>
    rw [run, EngineM.map_apply_snd]
    exact Engine.logs_change conn _ e
  | query fragment =>
    rw [run, EngineM.map_apply_snd]
    exact Engine.logs_compile (Engine.logs_run conn conn.silent_execute.outcome) _ e
  | exec c =>
    rw [run, EngineM.map_apply_snd]
    exact Engine.logs_run conn conn.silent_execute.outcome c e
  | execWith c callback =>
    rw [run, EngineM.map_apply_snd]
    exact Engine.logs_run conn (conn.silent_transact (conn.silent_callback callback)) c e
  | executeAgain =>
    rw [hnone rfl, run, EngineM.map_apply_snd, Engine.executeAgain_apply]
    cases e.statement with
    | none => exact .of_same rfl rfl rfl
    | some statement => exact .of_same rfl (conn.silent_execute statement e.connection).symm rfl
  | lastInsertId sequence =>
    rw [hnone rfl, run, EngineM.map_apply_snd, Engine.lastInsertId_apply]
    split
    · exact .of_same rfl rfl rfl
    · exact Engine.logs_attempt (fun _ => rfl) e
  | info =>
    rw [hnone rfl, run, EngineM.map_apply_snd, Engine.info]
    exact Engine.logs_attempt (fun _ => rfl) e
  | debug | beginDebug | debugLog =>
    rw [hnone rfl]
    exact .of_same rfl rfl rfl

/-- A program sends the statements of its steps. -/
theorem Program.logs (program : Program St) (e : Engine (σ × List String) St) :
    Engine.Logs (program.sent conn.transcribed e) e (program.run conn.transcribed e).2 := by
  -- Each step starts from the engine that the step before leaves.
  induction program generalizing e with
  | done result => cases result <;> exact .of_same rfl rfl rfl
  | perform op next ih =>
    rw [sent, run_perform]
    exact (op.logs conn e).trans (ih _ _ _)
  | nested body next ihBody ih =>
    rw [sent, run_nested]
    exact (Engine.logs_action conn ihBody e).trans (ih _ _ _)

/-- The log mirrors what the connection was asked to prepare. After a new engine has carried out any
program on any connection, the texts that the connection was asked to prepare are those of the
statements that were sent, in the same order; with logging the log holds exactly these statements,
each with its bound values, and without it the last of them. In either case the last statement that
was sent is shown, whatever has become of it. -/
theorem Engine.history_transcript (s : σ) (config : EngineConfig) (program : Program St) :
    let start := Engine.new (s, []) config
    let after := (program.run conn.transcribed start).2
    let sent := program.sent conn.transcribed start
    after.connection.2 = sent.map Compiled.sql ∧
      after.history = (if config.logging then sent else sent.getLast?.toList) ∧
      after.last = sent.getLast?.map start.literal ∧
      after.log = (if config.logging then sent else sent.getLast?.toList).map start.literal := by
  intro start after sent
  obtain ⟨hconfig, htranscript, hhistory⟩ := program.logs conn start
  have hkept : after.history = if config.logging then sent else sent.getLast?.toList := by
    refine hhistory.trans ?_
    cases hlogging : config.logging with
    | true => exact EngineConfig.record_of_logging hlogging
    | false => exact EngineConfig.record_of_not_logging hlogging
  have hliteral : after.literal = start.literal :=
    literal_congr (congrArg EngineConfig.literalStyle hconfig)
  refine ⟨htranscript, hkept, ?_, ?_⟩
  · rw [last, hliteral, hkept]
    split
    · rfl
    · cases sent.getLast? <;> rfl
  · rw [log, hliteral, hkept]

-- The first statement is refused when it is prepared, the second cannot be compiled, the third is
-- only shown, and the last one is undone with its transaction.
example :
    let refusing : Connection.Scripted :=
      { script := { failPrepare := some { sqlstate := "42601", message := "syntax error" } } }
    let undone : Program Connection.ScriptedStatement :=
      .perform (.delete "e" none) fun _ _ => .done (.ok .abort)
    let program : Program Connection.ScriptedStatement :=
      .perform (.delete "a" none) fun _ _ => .perform (.delete "b c" none) fun _ _ =>
        .perform .debug fun _ _ => .perform (.delete "d" none) fun _ _ =>
          .nested undone fun _ _ => .done (.ok .commit)
    let start : Engine Connection.Scripted Connection.ScriptedStatement :=
      .new refusing { logging := true }
    (program.run Connection.scripted start).2.log =
      ["DELETE FROM \"a\"", "DELETE FROM \"e\""] := by
  decide +kernel

end BoundSql
