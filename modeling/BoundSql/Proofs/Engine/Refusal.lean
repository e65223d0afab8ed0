import BoundSql.Proofs.Engine.Atomicity
import BoundSql.Proofs.Engine.Course
import BoundSql.Proofs.Engine.Session

/-!
# Refused statements inside actions

What the database refuses is no failure of an operation: the engine keeps the report, and the
operation has no result. So a program that passes on every failure does not pass on a refusal, and
an action in which a statement was refused is committed like any other. The engine forgets the
report with the next statement; only a look at it after each operation tells.

* `Operation.reports`: an operation that does not fail leaves a report exactly if one of the calls
  it has made for preparing or executing a statement was refused;
* `Program.reports`: a program that passes on failures and ends with a commit has met no failure,
  and a call in it was refused exactly if a report was there after some operation;
* `Engine.action_of_propagates`: what an action with such a body ends in;
* `Engine.action_all_or_nothing`: an action whose body looks for reports is committed as a whole or
  not at all.
-/

namespace BoundSql

variable {σ St α β : Type}

/-- Whether a call was to prepare or to execute a statement and was refused. -/
def Call.isRefusal (call : Call) : Bool :=
  match call.request with
  | .prepare | .execute => !call.succeeded
  | _ => false

/-- Calls are only added, and a refusal is among them exactly if `P`. -/
abbrev Refuses (P : Prop) (before after : List Call) : Prop :=
  Adds (fun call => call.isRefusal) P before after

/-- A call that is no refusal. -/
theorem Refuses.quiet {call : Call} (h : call.isRefusal = false) (a : List Call) :
    Refuses False a (a ++ [call]) :=
  (Adds.single call a).congr (by simp [h])

/-- A callback that fails as soon as something that it asks of the statement fails. -/
inductive Callback.Propagates : Callback → Prop where
  /-- The end, whatever it is. -/
  | done (result : Except Error Verdict) : Propagates (done result)
  /-- A value that cannot be bound is a failure of the callback. -/
  | bind {name : String} {bound : Bound} {next : Except Error Unit → Callback}
      (failed : ∀ x, ∃ y, next (.error x) = done (.error y))
      (succeeded : Propagates (next (.ok ()))) : Propagates (bind name bound next)
  /-- A statement that cannot be executed is a failure of the callback. -/
  | execute {next : Except ErrorInfo Nat → Callback}
      (failed : ∀ info, ∃ y, next (.error info) = done (.error y))
      (executed : ∀ count, Propagates (next (.ok count))) : Propagates (execute next)
  /-- Taking the rows does not fail. -/
  | takeRows {next : List Row → Callback} (taken : ∀ rows, Propagates (next rows)) :
      Propagates (takeRows next)
  /-- Asking for the count of rows does not fail. -/
  | rowCount {next : Nat → Callback} (counted : ∀ count, Propagates (next count)) :
      Propagates (rowCount next)

/-- Whether an operation runs a statement, with a callback that passes on failures if it has one. -/
def Operation.Propagates : Operation → Prop
  | select _ | insert _ _ | update _ _ _ | delete _ _ | query _ | exec _ => True
  | execWith _ callback => callback.Propagates
  | _ => False

/-- A program that runs statements, fails as soon as one of its operations fails, and asks for a
commit at its end otherwise. -/
inductive Program.Propagates : Program St → Prop where
  /-- The end asks for a commit. -/
  | commit : Propagates (done (.ok .commit))
  /-- The program fails. -/
  | fail (x : Error) : Propagates (done (.error x))
  /-- A failure of an operation is a failure of the program. -/
  | perform {operation : Operation} {next : Except Error Answer → Engine Unit St → Program St}
      (first : operation.Propagates)
      (failed : ∀ x e, ∃ y, next (.error x) e = done (.error y))
      (others : ∀ answer e, Propagates (next (.ok answer) e)) : Propagates (perform operation next)

/-- A query whose rows are turned into something else can stand in such a program; that a row cannot
be turned is a failure like others. -/
theorem Program.Propagates.selectAs {ofRow : Row → Except Error α} {q : Query}
    {next : Except Error (Option (List α)) → Engine Unit St → Program St}
    (failed : ∀ x e, ∃ y, next (.error x) e = done (.error y))
    (others : ∀ items e, (next (.ok items) e).Propagates) :
    (Program.selectAs ofRow q next).Propagates := by
  refine .perform trivial (fun x e => failed x e) fun answer e => ?_
  -- Rows that cannot be turned make a failure of an operation that has not failed.
  cases Answer.rowsAs ofRow (.ok answer) with
  | ok items => exact others items e
  | error x =>
    obtain ⟨y, hy⟩ := failed x e
    rw [hy]
    exact .fail y

/-- An action on a statement whose calls were not refused if it succeeds. -/
def StatementM.Unrefused {ε : Type} (m : StatementM (σ × List Call) St ε α) : Prop :=
  ∀ st s a st' s', m st s = ((.ok a, st'), s') → Refuses False s.2 s'.2

/-- A way of carrying out a statement in which a call was refused exactly if the result is a report
of the database. Nothing is said of failures. -/
def StatementM.Reports
    (m : StatementM (σ × List Call) St Error (Except ErrorInfo Nat)) : Prop :=
  ∀ st s r st' s', m st s = ((.ok r, st'), s') → Refuses ((failureOf r).isSome) s.2 s'.2

/-- An operation in which a call was refused exactly if a report is there afterwards. Nothing is
said of failures. -/
def EngineM.Reports (m : EngineM (σ × List Call) St α) : Prop :=
  ∀ e a e', m e = (.ok a, e') → Refuses (e'.failure.isSome) e.connection.2 e'.connection.2

namespace Connection

variable (conn : Connection σ St)

/-- Binding values is not refused. -/
theorem unrefused_bindAll (binds : BindMap) : (conn.observed.bindAll binds).Unrefused := by
  induction binds with
  | nil =>
    rintro st s a st' s' ⟨⟩
    exact .refl s.2
  | cons pair binds ih =>
    intro st s a st' s' h
    change (conn.observed.bind pair.1 pair.2 >>= fun _ => conn.observed.bindAll binds) st s = _ at h
    rw [StatementM.bind_apply] at h
    have hbind : Refuses False s.2 (conn.observed.bind pair.1 pair.2 st s).2.2 :=
      Refuses.quiet rfl s.2
    rcases hrun : conn.observed.bind pair.1 pair.2 st s with ⟨⟨x | _, st₁⟩, s₁⟩
    · rw [hrun] at h
      cases h
    · rw [hrun] at h hbind
      exact hbind.quiet_trans (ih _ _ _ _ _ h)

/-- Executing a statement is refused or not, as the result says. -/
theorem refuses_execute (st : St) (s : σ × List Call) :
    Refuses ((failureOf (conn.observed.execute st s).1.1).isSome) s.2
      (conn.observed.execute st s).2.2 :=
  (Adds.single _ s.2).congr (by rw [isSome_failureOf]; rfl)

/-- Preparing a statement is refused or not, as the result says. -/
theorem refuses_prepare (sql : String) (s : σ × List Call) :
    Refuses ((failureOf (conn.observed.prepare sql s).1).isSome) s.2
      (conn.observed.prepare sql s).2.2 :=
  (Adds.single _ s.2).congr (by rw [isSome_failureOf]; rfl)

/-- Executing a statement reports what was refused. -/
theorem reports_execute : StatementM.Reports (outcome conn.observed.execute) := by
  intro st s r st' s' h
  have hexecute := conn.refuses_execute st s
  rw [StatementM.outcome_apply] at h
  cases h
  exact hexecute

/-- A callback that passes on failures and succeeds has met no refusal. -/
theorem unrefused_callback {callback : Callback} (h : callback.Propagates) :
    (callback.run conn.observed).Unrefused := by
  -- A refusal on the way would have been answered with a failure of the callback.
  induction h with
  | done result =>
    intro st s a st' s' hrun
    cases result with
    | ok verdict =>
      cases hrun
      exact .refl s.2
    | error x => cases hrun
  | @bind name bound next failed _ ih =>
    intro st s a st' s' hrun
    rw [Callback.run, StatementM.bind_apply, StatementM.outcome_apply] at hrun
    have hbind : Refuses False s.2 (conn.observed.bind name bound st s).2.2 :=
      Refuses.quiet rfl s.2
    rcases hcall : conn.observed.bind name bound st s with ⟨⟨x | _, st₁⟩, s₁⟩
    · rw [hcall] at hrun
      obtain ⟨y, hy⟩ := failed x
      simp only [hy] at hrun
      cases hrun
    · rw [hcall] at hrun hbind
      exact hbind.quiet_trans (ih _ _ _ _ _ hrun)
  | @execute next failed _ ih =>
    intro st s a st' s' hrun
    rw [Callback.run, StatementM.bind_apply, StatementM.outcome_apply] at hrun
    have hexecute := conn.refuses_execute st s
    rcases hcall : conn.observed.execute st s with ⟨⟨info | count, st₁⟩, s₁⟩
    · rw [hcall] at hrun
      obtain ⟨y, hy⟩ := failed info
      simp only [hy] at hrun
      cases hrun
    · rw [hcall] at hrun hexecute
      exact (hexecute.congr (by simp [failureOf])).quiet_trans (ih count _ _ _ _ _ hrun)
  | takeRows _ ih => exact fun st s a st' s' hrun => ih _ _ s a st' s' hrun
  | rowCount _ ih => exact fun st s a st' s' hrun => ih _ st s a st' s' hrun

/-- The transaction of a single statement whose callback passes on failures reports what was
refused: if it does not fail, then the callback has met no refusal. -/
theorem reports_transact {callback : Callback} (h : callback.Propagates) :
    (conn.observed.transact (callback.run conn.observed)).Reports := by
  intro st s r st' s' hrun
  rw [transact_apply] at hrun
  have hcalls : Refuses False s.2 (conn.observed.startTransaction s).2.2 := Refuses.quiet rfl s.2
  rcases hstart : conn.observed.startTransaction s with ⟨x | _, s₁⟩
  · rw [hstart] at hrun
    cases hrun
  rw [hstart] at hrun hcalls
  dsimp only at hrun
  rcases hcallback : callback.run conn.observed st s₁ with ⟨⟨x | _ | _, st₂⟩, s₂⟩
  · rw [hcallback] at hrun
    cases hrun
  · rw [hcallback] at hrun
    dsimp only at hrun
    replace hcalls := hcalls.quiet_trans (conn.unrefused_callback h _ _ _ _ _ hcallback)
    have hexecute := conn.refuses_execute st₂ s₂
    -- What is refused here is reported if it can be rolled back, and else it is a failure.
    rcases hcall : conn.observed.execute st₂ s₂ with ⟨⟨info | count, st₃⟩, s₃⟩
    · rw [hcall] at hrun hexecute
      dsimp only at hrun
      have hrollBack : Refuses False s₃.2 (conn.observed.rollBack s₃).2.2 :=
        Refuses.quiet rfl s₃.2
      rcases hback : conn.observed.rollBack s₃ with ⟨x | _, s₄⟩
      · rw [hback] at hrun
        cases hrun
      · rw [hback] at hrun hrollBack
        cases hrun
        exact (hcalls.quiet_trans hexecute).trans_quiet hrollBack
    · rw [hcall] at hrun hexecute
      dsimp only at hrun
      have hcommit : Refuses False s₃.2 (conn.observed.commit s₃).2.2 := Refuses.quiet rfl s₃.2
      rcases hend : conn.observed.commit s₃ with ⟨x | _, s₄⟩
      · rw [hend] at hrun
        cases hrun
      · rw [hend] at hrun hcommit
        cases hrun
        exact (hcalls.quiet_trans hexecute).trans_quiet hcommit
  · rw [hcallback] at hrun
    cases hrun

end Connection

namespace Engine

variable (conn : Connection σ St)
  {carryOut : StatementM (σ × List Call) St Error (Except ErrorInfo Nat)}

/-- What is refused when a statement is sent is kept as a report. -/
theorem reports_send (hcarry : carryOut.Reports) {c : Compiled} {e e' : Engine (σ × List Call) St}
    {ran : Bool} (hrun : send conn.observed carryOut c e = (.ok ran, e'))
    (hclear : e.failure = none) : Refuses (e'.failure.isSome) e.connection.2 e'.connection.2 := by
  rw [send_apply] at hrun
  have hprepare := conn.refuses_prepare c.sql e.connection
  rcases hcall : conn.observed.prepare c.sql e.connection with ⟨info | st, s⟩
  · rw [hcall] at hrun hprepare
    cases hrun
    exact hprepare
  rw [hcall] at hrun hprepare
  dsimp only at hrun
  replace hprepare := hprepare.congr (Q := False) (by simp [failureOf])
  rcases hbind : conn.observed.bindAll c.binds st s with ⟨⟨x | _, st₁⟩, s₁⟩
  · rw [hbind] at hrun
    cases hrun
  rw [hbind] at hrun
  dsimp only at hrun
  have hbound := hprepare.quiet_trans (conn.unrefused_bindAll c.binds _ _ _ _ _ hbind)
  -- Carrying the statement out decides between a report and none.
  rcases hdone : carryOut st₁ s₁ with ⟨⟨x | info | count, st₂⟩, s₂⟩
  · rw [hdone] at hrun
    cases hrun
  · rw [hdone] at hrun
    cases hrun
    exact hbound.quiet_trans (hcarry _ _ _ _ _ hdone)
  · rw [hdone] at hrun
    cases hrun
    dsimp only
    rw [hclear]
    exact hbound.quiet_trans (hcarry _ _ _ _ _ hdone)

/-- What is refused when a statement is run is kept as a report; earlier reports are forgotten. -/
theorem reports_run (hcarry : carryOut.Reports) (c : Compiled) :
    (run conn.observed carryOut c).Reports := by
  intro e ran e' hrun
  rw [run_apply] at hrun
  revert hrun
  -- A statement that is only shown makes no calls and leaves no report.
  cases e.config.testMode with
  | true =>
    rintro ⟨⟩
    exact (Adds.refl _).congr (by simp)
  | false =>
    cases e.mode with
    | session =>
      rintro ⟨⟩
      exact (Adds.refl _).congr (by simp)
    | once =>
      rintro ⟨⟩
      exact (Adds.refl _).congr (by simp)
    | off =>
      intro hrun
      have hsent := reports_send conn hcarry hrun rfl
      exact hsent

/-- Using the statement that is kept makes no calls and leaves the report alone. -/
theorem reports_use {m : EngineM (σ × List Call) St Bool} (h : m.Reports) (use : St → α × St) :
    EngineM.Reports (do if ← m then withStatement use else return none :
      EngineM (σ × List Call) St (Option α)) := by
  intro e a e' hrun
  rw [EngineM.bind_apply] at hrun
  rcases hm : m e with ⟨x | _ | _, e₁⟩
  · rw [hm] at hrun
    cases hrun
  · rw [hm] at hrun
    cases hrun
    exact h _ _ _ hm
  · rw [hm] at hrun
    obtain ⟨statement, hstatement⟩ := withStatement_frame use e₁
    obtain rfl : { e₁ with statement } = e' := hstatement.symm.trans (congrArg Prod.snd hrun)
    exact h e true e₁ hm

end Engine

/-- A statement that is compiled before reports what the operation behind it reports. -/
theorem EngineM.Reports.compile {next : Compiled → EngineM (σ × List Call) St α}
    (h : ∀ c, (next c).Reports) (s : Statement) : Reports (Engine.compile s >>= next) := by
  intro e a e' hrun
  rw [EngineM.bind_apply, Engine.compile_apply] at hrun
  rcases hcompile : e.compiler.compile s with ⟨x | c, compiler⟩
  · rw [hcompile] at hrun
    cases hrun
  · rw [hcompile] at hrun
    exact h c { e with compiler } a e' hrun

/-- A result that is turned into another one. -/
theorem EngineM.Reports.map {m : EngineM (σ × List Call) St α} (h : m.Reports) (f : α → β) :
    Reports (f <$> m) := by
  intro e a e' hrun
  rw [map_eq_pure_bind, EngineM.bind_apply] at hrun
  rcases hm : m e with ⟨x | b, e₁⟩
  · rw [hm] at hrun
    cases hrun
  · rw [hm] at hrun
    cases hrun
    exact h _ _ _ hm

/-- An operation that does not fail leaves a report exactly if it has met a refusal. -/
theorem Operation.reports (conn : Connection σ St) {op : Operation} (h : op.Propagates) :
    (op.run conn.observed).Reports := by
  have hexec : ∀ c, (Engine.exec conn.observed c).Reports := fun c =>
    Engine.reports_run conn conn.reports_execute c
  have hchange : ∀ s, (Engine.change conn.observed s).Reports := fun s =>
    .compile (fun c => Engine.reports_use (hexec c) _) s
  cases op with
  | select q =>
    exact (EngineM.Reports.compile (fun c => Engine.reports_use (hexec c) conn.takeRows)
      (.select q)).map _
  | insert table rows => exact (hchange _).map _
  | update table assignments filter => exact (hchange _).map _
  | delete table filter => exact (hchange _).map _
  | query fragment => exact (EngineM.Reports.compile hexec (.raw fragment)).map _
  | exec c => exact (hexec c).map _
  | execWith c callback => exact (Engine.reports_run conn (conn.reports_transact h) c).map _
  | _ => exact h.elim

namespace Program

/-- Whether some step of a program fails. -/
def Fails (conn : Connection σ St) (program : Program St) (e : Engine σ St) : Prop :=
  program.Meets conn (fun failure _ => failure.isSome) e

/-- Whether a report is there after some step of a program. -/
def MeetsReport (conn : Connection σ St) (program : Program St) (e : Engine σ St) : Prop :=
  program.Meets conn (fun _ after => after.failure.isSome) e

/-- A program that passes on failures and ends with a commit has met no failure, and it has met a
refusal exactly if a report was there after some step. -/
theorem reports (conn : Connection σ St) {program : Program St} (h : program.Propagates)
    {e : Engine (σ × List Call) St} (hcommit : (program.run conn.observed e).1 = .ok .commit) :
    ¬program.Fails conn.observed e ∧
      Refuses (program.MeetsReport conn.observed e) e.connection.2
        (program.run conn.observed e).2.connection.2 := by
  -- Each step starts from the engine that the step before leaves, hence the general engine.
  induction h generalizing e with
  | commit => exact ⟨id, .refl e.connection.2⟩
  | fail x => cases hcommit
  | @perform op next first failed _ ih =>
    rw [run_perform] at hcommit ⊢
    rw [Fails, Meets, MeetsReport, Meets]
    rcases hrun : op.run conn.observed e with ⟨x | answer, e₁⟩
    · -- A failure would have been passed on.
      rw [hrun] at hcommit
      obtain ⟨y, hy⟩ := failed x e₁.shown
      simp only [hy] at hcommit
      cases hcommit
    · rw [hrun] at hcommit
      obtain ⟨hfails, hrest⟩ := ih answer e₁.shown hcommit
      have hfirst := Operation.reports conn first _ _ _ hrun
      refine ⟨?_, hfirst.trans hrest⟩
      rintro (hfirst | hlater)
      · cases hfirst
      · exact hfails hlater

/-- A program that also fails as soon as the engine has a report after an operation. -/
inductive HeedsReports : Program St → Prop where
  /-- Nothing follows the end. -/
  | done (result : Except Error Verdict) : HeedsReports (done result)
  /-- A report is a failure of the program. -/
  | perform {operation : Operation} {next : Except Error Answer → Engine Unit St → Program St}
      (reported : ∀ answer e, e.failure.isSome → ∃ y, next (.ok answer) e = Program.done (.error y))
      (others : ∀ result e, HeedsReports (next result e)) : HeedsReports (perform operation next)

/-- Such a program has met no report when it ends with a commit. -/
theorem not_meetsReport {conn : Connection σ St} {program : Program St}
    (h : program.Propagates) (hheeds : program.HeedsReports) {e : Engine σ St}
    (hcommit : (program.run conn e).1 = .ok .commit) : ¬program.MeetsReport conn e := by
  induction h generalizing e with
  | commit => exact id
  | fail x => exact id
  | @perform op next _ failed _ ih =>
    cases hheeds with
    | perform reported others =>
      rw [run_perform] at hcommit
      rw [MeetsReport, Meets]
      rcases hrun : op.run conn e with ⟨x | answer, e₁⟩
      · rw [hrun] at hcommit
        obtain ⟨y, hy⟩ := failed x e₁.shown
        simp only [hy] at hcommit
        cases hcommit
      · rw [hrun] at hcommit
        -- A report would have ended the program in a failure.
        rintro (hreport | hlater)
        · obtain ⟨y, hy⟩ := reported answer e₁.shown hreport
          simp only [hy] at hcommit
          cases hcommit
        · exact ih answer e₁.shown (others _ _) hcommit hlater

end Program

namespace Engine

variable (conn : Connection σ St) {e : Engine (σ × List Call) St} {s : σ × List Call}

/-- The calls of an action whose transaction is begun: those of its body stand between the beginning
and one call at the end, which is a commit if the body asks for it and rolls back otherwise. The
action succeeds only if the commit does. -/
theorem action_calls (body : Program St)
    (hstart : conn.observed.startTransaction e.connection = (.ok (), s)) :
    ∃ calls ending,
      (body.run conn.observed { e with connection := s }).2.connection.2 = s.2 ++ calls ∧
      (action conn.observed (body.run conn.observed) e).2.connection.2 =
        e.connection.2 ++ ⟨.start, true⟩ :: calls ++ [ending] ∧
      ending.request = Verdict.ending (body.run conn.observed { e with connection := s }).1 ∧
      ((action conn.observed (body.run conn.observed) e).1 = .ok () →
        ending = ⟨.commit, true⟩) := by
  -- The body only adds calls, so its own stand behind the one that began the transaction.
  obtain ⟨calls, hcalls, -⟩ := body.grows conn { e with connection := s }
  have hbehind : ∀ ending : Call,
      (body.run conn.observed { e with connection := s }).2.connection.2 ++ [ending] =
        e.connection.2 ++ ⟨.start, true⟩ :: calls ++ [ending] := fun ending => by
    rw [hcalls]
    change s.2 ++ calls ++ [ending] = _
    rw [conn.calls_of_startTransaction hstart, List.append_assoc e.connection.2]
    rfl
  have hrollBack : ∀ (failure : Error) (e' : Engine (σ × List Call) St),
      (conn.observed.rollBackWith failure e'.connection).2.2 =
        e'.connection.2 ++ [⟨.rollBack, (conn.rollBack e'.connection.1).1.isOk⟩] := by
    intro failure e'
    rw [Connection.rollBackWith_apply_snd]
    rfl
  rw [action_apply, hstart]
  dsimp only
  rcases hrun : body.run conn.observed { e with connection := s } with ⟨x | _ | _, e'⟩
  · rw [hrun] at hcalls hbehind
    exact ⟨calls, _, hcalls, (hrollBack _ e').trans (hbehind _), rfl, fun h => nomatch h⟩
  · rw [hrun] at hcalls hbehind
    refine ⟨calls, ⟨.commit, (conn.commit e'.connection.1).1.isOk⟩, hcalls, hbehind _, rfl, ?_⟩
    intro h
    have hcommit : (conn.commit e'.connection.1).1 = .ok () := h
    rw [hcommit]
    rfl
  · rw [hrun] at hcalls hbehind
    exact ⟨calls, _, hcalls, (hrollBack _ e').trans (hbehind _), rfl, fun h => nomatch h⟩

/-- What is committed in an action whose body runs statements, passes on their failures and asks for
a commit otherwise: no operation of the body has failed, and a call for preparing or executing a
statement was refused exactly if the engine had a report after some operation. -/
theorem refuses_of_commit {body : Program St} (hbody : body.Propagates)
    {calls : List Call} {ending : Call}
    (hcalls : (body.run conn.observed e).2.connection.2 = e.connection.2 ++ calls)
    (hending : ending.request = Verdict.ending (body.run conn.observed e).1)
    (hcommit : ending.request = .commit) :
    ¬body.Fails conn.observed e ∧
      ((∃ call ∈ calls, call.isRefusal) ↔ body.MeetsReport conn.observed e) := by
  have hresult := Verdict.ending_eq_commit.1 (hending.symm.trans hcommit)
  obtain ⟨hfails, calls', hcalls', hrefused⟩ := Program.reports conn hbody hresult
  obtain rfl := List.append_cancel_left (hcalls'.symm.trans hcalls)
  exact ⟨hfails, hrefused⟩

/-- An action whose body also fails as soon as the engine has a report is all or nothing: it is
committed only if no call of its body for preparing or executing a statement was refused. -/
theorem action_all_or_nothing {body : Program St} (hbody : body.Propagates)
    (hheeds : body.HeedsReports)
    (hstart : conn.observed.startTransaction e.connection = (.ok (), s)) :
    ∃ calls ending,
      (action conn.observed (body.run conn.observed) e).2.connection.2 =
        e.connection.2 ++ ⟨.start, true⟩ :: calls ++ [ending] ∧
      (ending.request = .commit → ∀ call ∈ calls, call.isRefusal = false) := by
  obtain ⟨calls, ending, hcalls, haction, hrequest, -⟩ := action_calls conn body hstart
  refine ⟨calls, ending, haction, fun hcommit call hcall => ?_⟩
  have hrefused := (refuses_of_commit conn hbody hcalls hrequest hcommit).2
  have hresult := Verdict.ending_eq_commit.1 (hrequest.symm.trans hcommit)
  have hnone : ¬∃ call ∈ calls, call.isRefusal :=
    mt hrefused.1 (Program.not_meetsReport hbody hheeds hresult)
  simpa using fun h => hnone ⟨call, hcall, h⟩

end Engine

end BoundSql
