import BoundSql.Connection.Scripted
import BoundSql.Proofs.Connection.Observed
import BoundSql.Proofs.Engine.Program
import BoundSql.Proofs.Engine.Steps

/-!
# Atomicity of actions

An action puts a program into one transaction. The connection has no notion of transactions inside
others, though: a transaction that is begun inside is committed on its own, and what it commits is
not undone when the action is rolled back. This file says of any connection which calls it receives
during an action, and when a commit is among them.

* `Program.grows`: the calls of a program, with a commit among them exactly if the program commits;
* `Engine.action_atomic_iff`: the calls of an action, and that it is atomic exactly if its body does
  not commit;
* `Program.not_commits_of_isFlat`: a body without transactions of its own does not commit.
-/

namespace BoundSql

variable {σ St α β : Type}

/-- An action on a statement that commits nothing. -/
def StatementM.Quiet {ε : Type} (m : StatementM (σ × List Call) St ε α) : Prop :=
  ∀ st s, Grows False s.2 (m st s).2.2

/-- An operation that commits nothing. -/
def EngineM.Quiet (m : EngineM (σ × List Call) St α) : Prop :=
  ∀ e, Grows False e.connection.2 (m e).2.connection.2

namespace StatementM.Quiet

variable {ε δ : Type}

/-- Going on with an outcome adds nothing. -/
theorem outcome {m : StatementM (σ × List Call) St ε α} (h : m.Quiet) :
    StatementM.Quiet (BoundSql.outcome m : StatementM (σ × List Call) St δ (Except ε α)) := h

end StatementM.Quiet

namespace Connection

variable (conn : Connection σ St)

/-- Binding a value is no commit. -/
theorem quiet_bind (name : String) (bound : Bound) : (conn.observed.bind name bound).Quiet :=
  fun _ s => .single (by simp) s.2

/-- Executing a statement is no commit. -/
theorem quiet_execute : conn.observed.execute.Quiet := fun _ s => .single (by simp) s.2

/-- Binding values commits nothing. -/
theorem quiet_bindAll (binds : BindMap) : (conn.observed.bindAll binds).Quiet :=
  along_bindAll Grows.refl Grows.quiet_trans conn.quiet_bind binds

/-- A callback commits nothing. -/
theorem quiet_callback (callback : Callback) : (callback.run conn.observed).Quiet :=
  callback.along_run Grows.refl Grows.quiet_trans conn.quiet_bind conn.quiet_execute

/-- Beginning a transaction is no commit. -/
theorem quiet_startTransaction (s : σ × List Call) :
    Grows False s.2 (conn.observed.startTransaction s).2.2 := .single (by simp) s.2

/-- Rolling back is no commit. -/
theorem quiet_rollBack (s : σ × List Call) : Grows False s.2 (conn.observed.rollBack s).2.2 :=
  .single (by simp) s.2

/-- A commit is one. -/
theorem grows_commit (s : σ × List Call) : Grows True s.2 (conn.observed.commit s).2.2 :=
  ⟨[⟨.commit, _⟩], rfl, by simp⟩

/-- The transaction of a single statement has a commit among its calls exactly if it comes to it. -/
theorem grows_transact (callback : Callback) (st : St) (s : σ × List Call) :
    Grows (conn.observed.Commits callback st s) s.2
      (conn.observed.transact (callback.run conn.observed) st s).2.2 := by
  rw [transact_apply_snd, Connection.Commits, Begins]
  have hcalls := conn.quiet_startTransaction s
  -- Where no transaction is begun there is nothing to commit.
  rcases hstart : conn.observed.startTransaction s with ⟨x | _, s₁⟩
  · rwa [hstart] at hcalls
  rw [hstart] at hcalls
  replace hcalls := hcalls.quiet_trans (conn.quiet_callback callback st s₁)
  dsimp only
  -- The verdict of the callback decides whether the statement is executed at all.
  rcases hcallback : callback.run conn.observed st s₁ with ⟨⟨x | _ | _, st₂⟩, s₂⟩
  · rw [hcallback] at hcalls
    exact hcalls.quiet_trans (conn.quiet_rollBack s₂)
  · rw [hcallback] at hcalls
    replace hcalls := hcalls.quiet_trans (conn.quiet_execute st₂ s₂)
    dsimp only
    -- What is executed is committed, and what the database refuses is rolled back.
    rcases hexecute : conn.observed.execute st₂ s₂ with ⟨⟨info | count, st₃⟩, s₃⟩
    · rw [hexecute] at hcalls
      exact (hcalls.quiet_trans (conn.quiet_rollBack s₃)).congr
        (by simp [Except.isOk, Except.toBool])
    · rw [hexecute] at hcalls
      exact (hcalls.quiet_trans (conn.grows_commit s₃)).congr (by simp [Except.isOk, Except.toBool])
  · rw [hcallback] at hcalls
    exact hcalls.quiet_trans (conn.quiet_rollBack s₂)

end Connection

namespace EngineM.Quiet

/-- An operation that leaves the connection alone commits nothing. -/
theorem of_same {m : EngineM (σ × List Call) St α} (h : ∀ e, (m e).2.connection = e.connection) :
    m.Quiet := fun e => by
  rw [h e]
  exact .refl e.connection.2

/-- An operation and another one that depends on its result. -/
theorem bind {m : EngineM (σ × List Call) St α} {f : α → EngineM (σ × List Call) St β}
    (hm : m.Quiet) (hf : ∀ a, (f a).Quiet) : (m >>= f).Quiet := by
  intro e
  have hfirst := hm e
  rw [EngineM.bind_apply]
  rcases hrun : m e with ⟨_ | a, e'⟩
  · rwa [hrun] at hfirst
  · rw [hrun] at hfirst
    exact hfirst.quiet_trans (hf a e')

/-- A result that is turned into another one. -/
theorem map {m : EngineM (σ × List Call) St α} (h : m.Quiet) (f : α → β) :
    EngineM.Quiet (f <$> m) := fun e => by
  rw [EngineM.map_apply_snd]
  exact h e

end EngineM.Quiet

namespace Engine

variable (conn : Connection σ St)

/-- A statement that is sent has a commit among its calls exactly if what carries it out has one. -/
theorem grows_sent {carryOut : StatementM (σ × List Call) St Error (Except ErrorInfo Nat)}
    {P : St → σ × List Call → Prop} (hcarry : ∀ st s, Grows (P st s) s.2 (carryOut st s).2.2)
    (c : Compiled) (s : σ × List Call) :
    Grows (conn.observed.Reaches c P s) s.2 (sent conn.observed carryOut c s).2 := by
  have hcalls : Grows False s.2 (conn.observed.prepare c.sql s).2.2 := .single (by simp) s.2
  rw [sent, Connection.Reaches]
  -- The statement is carried out only if it is prepared and all values are bound.
  rcases hprepare : conn.observed.prepare c.sql s with ⟨info | st, s₁⟩
  · rwa [hprepare] at hcalls
  rw [hprepare] at hcalls
  replace hcalls := hcalls.quiet_trans (conn.quiet_bindAll c.binds st s₁)
  dsimp only
  rcases hbind : conn.observed.bindAll c.binds st s₁ with ⟨⟨x | _, st₂⟩, s₂⟩
  · rwa [hbind] at hcalls
  · rw [hbind] at hcalls
    exact hcalls.quiet_trans (hcarry st₂ s₂)

/-- A statement that is run has a commit among its calls exactly if it is sent and what carries it
out has one. -/
theorem grows_run {carryOut : StatementM (σ × List Call) St Error (Except ErrorInfo Nat)}
    {P : St → σ × List Call → Prop} (hcarry : ∀ st s, Grows (P st s) s.2 (carryOut st s).2.2)
    (c : Compiled) (e : Engine (σ × List Call) St) :
    Grows (e.Sends ∧ conn.observed.Reaches c P e.connection) e.connection.2
      (run conn.observed carryOut c e).2.connection.2 := by
  -- A statement that is only shown does not reach the connection.
  rcases connection_run (c := c) e with ⟨hsends, hrun⟩ | ⟨hsends, hrun⟩
  · rw [hrun]
    exact (grows_sent conn hcarry c e.connection).congr (by simp [hsends])
  · rw [hrun]
    exact (Grows.refl e.connection.2).congr (by simp [hsends])

/-- Running a statement commits nothing. -/
theorem quiet_exec (c : Compiled) : (exec conn.observed c).Quiet := by
  intro e
  refine (grows_run conn (fun st s => conn.quiet_execute.outcome st s) c e).congr ?_
  rw [Connection.Reaches]
  rcases conn.observed.prepare c.sql e.connection with ⟨_ | st, s⟩
  · simp
  · dsimp only
    rcases conn.observed.bindAll c.binds st s with ⟨⟨_ | _, _⟩, _⟩ <;> simp

/-- Compiling commits nothing. -/
theorem quiet_compile (s : Statement) : (compile s : EngineM (σ × List Call) St Compiled).Quiet :=
  .of_same fun e => by rw [compile_apply]

/-- Using the statement that is kept commits nothing. -/
theorem quiet_withStatement (use : St → α × St) :
    (withStatement use : EngineM (σ × List Call) St (Option α)).Quiet :=
  .of_same (connection_withStatement use)

/-- Having no result commits nothing. -/
theorem quiet_pure (a : α) : (pure a : EngineM (σ × List Call) St α).Quiet := .of_same fun _ => rfl

/-- Running a query commits nothing. -/
theorem quiet_select (query : Query) : (select conn.observed query).Quiet := by
  refine (quiet_compile _).bind fun c => (quiet_exec conn c).bind fun ran => ?_
  cases ran
  · exact quiet_pure none
  · exact quiet_withStatement conn.takeRows

/-- Changing rows commits nothing. -/
theorem quiet_change (s : Statement) : (change conn.observed s).Quiet := by
  refine (quiet_compile _).bind fun c => (quiet_exec conn c).bind fun ran => ?_
  cases ran
  · exact quiet_pure none
  · exact quiet_withStatement fun st => (conn.rowCount st, st)

/-- Executing a statement once more commits nothing. -/
theorem quiet_executeAgain : (executeAgain conn.observed).Quiet := by
  intro e
  rw [connection_executeAgain]
  cases e.statement with
  | none => exact .refl e.connection.2
  | some statement => exact conn.quiet_execute statement e.connection

/-- Asking for the last number of a sequence commits nothing. -/
theorem quiet_lastInsertId (sequence : Option String) :
    (lastInsertId conn.observed sequence).Quiet := by
  intro e
  change Grows False e.connection.2 ((if e.config.testMode then pure none
    else attempt (conn.observed.lastInsertId sequence) :
      EngineM (σ × List Call) St (Option String)) e).2.connection.2
  split
  · exact .refl e.connection.2
  · rw [attempt_apply]
    exact .single (by simp) e.connection.2

/-- Asking what the connection knows commits nothing. -/
theorem quiet_info : (info conn.observed).Quiet := by
  intro e
  rw [info, attempt_apply]
  exact .single (by simp) e.connection.2

end Engine

variable (conn : Connection σ St)

/-- An operation has a commit among its calls exactly if it comes to it. -/
theorem Operation.grows (op : Operation) (e : Engine (σ × List Call) St) :
    Grows (op.Commits conn.observed e) e.connection.2
      (op.run conn.observed e).2.connection.2 := by
  cases op with
  | select query => exact (Engine.quiet_select conn query).map _ e
  | insert table rows => exact (Engine.quiet_change conn _).map _ e
  | update table assignments filter => exact (Engine.quiet_change conn _).map _ e
  | delete table filter => exact (Engine.quiet_change conn _).map _ e
  | query fragment =>
    exact ((Engine.quiet_compile _).bind fun c => Engine.quiet_exec conn c).map _ e
  | exec c => exact (Engine.quiet_exec conn c).map _ e
  | execWith c callback =>
    rw [run, EngineM.map_apply_snd]
    exact Engine.grows_run conn (fun st s => conn.grows_transact callback st s) c e
  | executeAgain => exact (Engine.quiet_executeAgain conn).map _ e
  | lastInsertId sequence => exact (Engine.quiet_lastInsertId conn sequence).map _ e
  | info => exact (Engine.quiet_info conn).map _ e
  | debug => exact .refl e.connection.2
  | beginDebug => exact .refl e.connection.2
  | debugLog => exact .refl e.connection.2

/-- An action has a commit among its calls exactly if its transaction is begun and its body comes to
a commit or asks for one. -/
theorem Engine.grows_action {body : EngineM (σ × List Call) St Verdict}
    {P : Engine (σ × List Call) St → Prop}
    (hbody : ∀ e, Grows (P e) e.connection.2 (body e).2.connection.2)
    (e : Engine (σ × List Call) St) :
    Grows (conn.observed.Begins (fun s =>
        P { e with connection := s } ∨ (body { e with connection := s }).1 = .ok .commit)
          e.connection)
      e.connection.2 (action conn.observed body e).2.connection.2 := by
  rw [connection_action, Connection.Begins]
  have hcalls := conn.quiet_startTransaction e.connection
  rcases hstart : conn.observed.startTransaction e.connection with ⟨x | _, s⟩
  · rwa [hstart] at hcalls
  rw [hstart] at hcalls
  dsimp only
  -- The calls of the body stand between the beginning and the one call at the end.
  replace hcalls := hcalls.quiet_trans (hbody { e with connection := s })
  rcases hrun : body { e with connection := s } with ⟨x | _ | _, e'⟩
  · rw [hrun] at hcalls
    exact (hcalls.trans (conn.quiet_rollBack e'.connection)).congr (by simp)
  · rw [hrun] at hcalls
    exact (hcalls.trans (conn.grows_commit e'.connection)).congr (by simp)
  · rw [hrun] at hcalls
    exact (hcalls.trans (conn.quiet_rollBack e'.connection)).congr (by simp)

namespace Program

/-- A program has a commit among its calls exactly if it comes to one in one of its steps. -/
theorem grows (program : Program St) (e : Engine (σ × List Call) St) :
    Grows (program.Commits conn.observed e) e.connection.2
      (program.run conn.observed e).2.connection.2 := by
  -- Each step starts from the engine that the step before leaves, hence the general engine.
  induction program generalizing e with
  | done result => cases result <;> exact .refl e.connection.2
  | perform op next ih =>
    rw [Program.Commits, run_perform]
    exact (op.grows conn e).trans (ih _ _ _)
  | nested body next ihBody ih =>
    rw [Program.Commits, run_nested]
    exact (Engine.grows_action conn ihBody e).trans (ih _ _ _)

/-- Whether a program has no transactions of its own inside. -/
inductive IsFlat : Program St → Prop where
  /-- The end is flat. -/
  | done (result : Except Error Verdict) : IsFlat (done result)
  /-- An operation without a transaction of its own, with flat continuations. -/
  | perform {op : Operation} {next : Except Error Answer → Engine Unit St → Program St}
      (hop : ∀ c callback, op ≠ .execWith c callback) (hnext : ∀ result e, IsFlat (next result e)) :
      IsFlat (perform op next)

/-- A program without transactions of its own comes to no commit. -/
theorem not_commits_of_isFlat {conn : Connection σ St} {program : Program St} (h : program.IsFlat)
    (e : Engine σ St) : ¬program.Commits conn e := by
  induction h generalizing e with
  | done result => exact id
  | @perform op next hop _ ih =>
    rw [Program.Commits, not_or]
    refine ⟨?_, ih _ _ _⟩
    -- Of all operations only one opens a transaction of its own.
    cases op with
    | execWith c callback => exact absurd rfl (hop c callback)
    | _ => exact id

end Program

/-- A transaction that is begun is begun by one call. -/
theorem Connection.calls_of_startTransaction {s s' : σ × List Call}
    (h : conn.observed.startTransaction s = (.ok (), s')) : s'.2 = s.2 ++ [⟨.start, true⟩] := by
  have hcalls : (conn.observed.startTransaction s).2.2 =
    s.2 ++ [⟨.start, (conn.observed.startTransaction s).1.isOk⟩] := rfl
  rw [h] at hcalls
  exact hcalls

/-- The last call that the verdict on a transaction leads to. -/
def Verdict.ending : Except Error Verdict → Request
  | .ok .commit => .commit
  | _ => .rollBack

/-- Only what asks for a commit leads to one. -/
theorem Verdict.ending_eq_commit {result : Except Error Verdict} :
    Verdict.ending result = .commit ↔ result = .ok .commit := by
  rcases result with x | _ | _ <;> simp [ending]

/-- The calls during an action whose transaction is begun: the beginning, the calls of the body and
one call at the end, which is a commit if the body asks for it and rolls back otherwise. There is no
commit between the two exactly if the body comes to none in its steps. -/
theorem Engine.action_atomic_iff (body : Program St) (e : Engine (σ × List Call) St)
    {s : σ × List Call} (hstart : conn.observed.startTransaction e.connection = (.ok (), s)) :
    ∃ calls ending,
      (body.run conn.observed { e with connection := s }).2.connection.2 =
        e.connection.2 ++ ⟨.start, true⟩ :: calls ∧
      (action conn.observed (body.run conn.observed) e).2.connection.2 =
        e.connection.2 ++ ⟨.start, true⟩ :: calls ++ [ending] ∧
      ending.request =
        Verdict.ending (body.run conn.observed { e with connection := s }).1 ∧
      ((∀ call ∈ calls, call.request ≠ .commit) ↔
        ¬body.Commits conn.observed { e with connection := s }) := by
  obtain ⟨calls, hcalls, hcommit⟩ := body.grows conn { e with connection := s }
  have hbody : (body.run conn.observed { e with connection := s }).2.connection.2 =
      e.connection.2 ++ ⟨.start, true⟩ :: calls := by
    rw [hcalls]
    change s.2 ++ calls = _
    rw [conn.calls_of_startTransaction hstart, List.append_assoc]
    rfl
  have hquiet : (∀ call ∈ calls, call.request ≠ .commit) ↔
      ¬body.Commits conn.observed { e with connection := s } := by
    rw [← hcommit]
    simp only [not_exists, not_and, ne_eq]
  -- The ending depends on the result of the body alone, not on the connection.
  have hend : ∃ ending : Call,
      (action conn.observed (body.run conn.observed) e).2.connection.2 =
        (body.run conn.observed { e with connection := s }).2.connection.2 ++ [ending] ∧
      ending.request = Verdict.ending (body.run conn.observed { e with connection := s }).1 := by
    rw [connection_action, hstart]
    dsimp only
    rcases body.run conn.observed { e with connection := s } with ⟨x | _ | _, e'⟩
    · exact ⟨⟨.rollBack, _⟩, rfl, rfl⟩
    · exact ⟨⟨.commit, _⟩, rfl, rfl⟩
    · exact ⟨⟨.rollBack, _⟩, rfl, rfl⟩
  obtain ⟨ending, hending, hrequest⟩ := hend
  exact ⟨calls, ending, hbody, by rw [hending, hbody], hrequest, hquiet⟩

/-- An action that inserts a row and is aborted: its body has no transaction inside, so that no
commit is among its calls. -/
theorem Engine.action_atomic_insert :
    let conn := Connection.scripted
    let body : Program Connection.ScriptedStatement :=
      .perform (.insert "t" [[("n", .value (.int 1))]]) fun _ _ => .done (.ok .abort)
    let e : Engine (Connection.Scripted × List Call) Connection.ScriptedStatement :=
      .new ({}, []) {}
    let s : Connection.Scripted × List Call := ({ journal := [.start] }, [⟨.start, true⟩])
    (action conn.observed (body.run conn.observed) e).2.connection.2 =
        [⟨.start, true⟩, ⟨.prepare, true⟩, ⟨.bind, true⟩, ⟨.execute, true⟩, ⟨.rollBack, true⟩] ∧
      ¬body.Commits conn.observed { e with connection := s } := by
  intro conn body e s
  have hstart : conn.observed.startTransaction e.connection = (.ok (), s) := rfl
  obtain ⟨calls, ending, hbody, -, -, hquiet⟩ := action_atomic_iff conn body e hstart
  have hrun : (body.run conn.observed { e with connection := s }).2.connection.2 =
      [⟨.start, true⟩, ⟨.prepare, true⟩, ⟨.bind, true⟩, ⟨.execute, true⟩] := by
    decide +kernel
  have hcalls : [⟨.prepare, true⟩, ⟨.bind, true⟩, ⟨.execute, true⟩] = calls :=
    List.tail_eq_of_cons_eq (hrun.symm.trans hbody)
  exact ⟨by decide +kernel, hquiet.1 (by rw [← hcalls]; decide)⟩

/-- An action that runs a statement in a transaction of its own and is aborted: what the statement
has changed is committed before the action is rolled back. -/
theorem Engine.action_not_atomic_execWith :
    let conn := Connection.scripted
    let body : Program Connection.ScriptedStatement :=
      .perform (.execWith ⟨"DELETE FROM t", []⟩ (.done (.ok .commit))) fun _ _ => .done (.ok .abort)
    let e : Engine (Connection.Scripted × List Call) Connection.ScriptedStatement :=
      .new ({}, []) {}
    (action conn.observed (body.run conn.observed) e).1 = .error .transactionAborted ∧
      (action conn.observed (body.run conn.observed) e).2.connection.2 =
        [⟨.start, true⟩, ⟨.prepare, true⟩, ⟨.start, true⟩, ⟨.execute, true⟩, ⟨.commit, true⟩,
          ⟨.rollBack, true⟩] := by
  exact ⟨rfl, rfl⟩

end BoundSql
