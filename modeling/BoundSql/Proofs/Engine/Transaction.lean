import BoundSql.Connection.Scripted
import BoundSql.Proofs.Connection.Journal

/-!
# The transaction of a single statement

A statement that is run in a transaction of its own can fail in many places: when it is prepared,
when a value is bound, when the transaction is begun, in the callback, when it is executed and when
the transaction is ended. `Course` lists all that can happen, as the journal of the connection and
what the engine keeps afterwards, and `Engine.course_execWith` says that nothing else does.

* `Protocol`: what holds of the journal and of the engine, whatever happened;
* `Engine.execWith_protocol`: that it holds for every statement, callback and connection.
-/

namespace BoundSql

variable {σ St : Type}

/-- The journal until a callback ends: a statement was prepared and its values were bound, the
transaction was begun, and the callback used the statement. -/
def opening (bound inside : List Entry) : List Entry :=
  .prepare (.ok ()) :: bound ++ .start (.ok ()) :: .enter :: inside

/-- What can happen when a statement is run in a transaction of its own: the journal, the result,
the statement that is kept and the report that is kept. -/
inductive Course : List Entry → Except Error Bool → Option St → Option ErrorInfo → Prop where
  /-- The statement cannot be prepared. -/
  | notPrepared (info : ErrorInfo) :
    Course [.prepare (.error info)] (.ok false) none (some info)
  /-- A value cannot be bound. -/
  | notBound {bound : List Entry} (hbound : ∀ entry ∈ bound, entry.isUse) (x : Error) :
    Course (.prepare (.ok ()) :: bound) (.error x) none none
  /-- The transaction cannot be begun. -/
  | notBegun {bound : List Entry} (hbound : ∀ entry ∈ bound, entry.isUse) (x : Error) :
    Course (.prepare (.ok ()) :: bound ++ [.start (.error x)]) (.error x) none none
  /-- The callback does not ask for a commit. -/
  | aborted {bound inside : List Entry} (hbound : ∀ entry ∈ bound, entry.isUse)
    (hinside : ∀ entry ∈ inside, entry.isUse) {verdict : Except Error Verdict}
    (hverdict : verdict ≠ .ok .commit) (undone : Except Error Unit) (x : Error) :
    Course (opening bound inside ++ [.leave verdict, .rollBack undone]) (.error x) none none
  /-- The statement is refused, and what the callback has changed is undone. -/
  | refused {bound inside : List Entry} (hbound : ∀ entry ∈ bound, entry.isUse)
    (hinside : ∀ entry ∈ inside, entry.isUse) (info : ErrorInfo) :
    Course (opening bound inside ++
      [.leave (.ok .commit), .execute (.error info), .rollBack (.ok ())])
      (.ok false) none (some info)
  /-- The statement is refused, and what the callback has changed cannot be undone. -/
  | notUndone {bound inside : List Entry} (hbound : ∀ entry ∈ bound, entry.isUse)
    (hinside : ∀ entry ∈ inside, entry.isUse) (info : ErrorInfo) (y x : Error) :
    Course (opening bound inside ++
      [.leave (.ok .commit), .execute (.error info), .rollBack (.error y)])
      (.error x) none none
  /-- The statement is executed, and the changes last. -/
  | committed {bound inside : List Entry} (hbound : ∀ entry ∈ bound, entry.isUse)
    (hinside : ∀ entry ∈ inside, entry.isUse) (count : Nat) (statement : St) :
    Course (opening bound inside ++
      [.leave (.ok .commit), .execute (.ok count), .commit (.ok ())])
      (.ok true) (some statement) none
  /-- The statement is executed, but the changes cannot be made to last. -/
  | notCommitted {bound inside : List Entry} (hbound : ∀ entry ∈ bound, entry.isUse)
    (hinside : ∀ entry ∈ inside, entry.isUse) (count : Nat) (x : Error) :
    Course (opening bound inside ++
      [.leave (.ok .commit), .execute (.ok count), .commit (.error x)])
      (.error x) none none

/-- A statement that is sent is not shown first. -/
theorem Engine.run_of_sends {conn : Connection σ St}
    {carryOut : StatementM σ St Error (Except ErrorInfo Nat)} {c : Compiled} {e : Engine σ St}
    (h : e.Sends) :
    run conn carryOut c e = send conn carryOut c
      { e with statement := none, error := none, failure := none,
               history := (if e.config.logging then e.history else []) ++ [c] } := by
  obtain ⟨connection, config, compiler, statement, error, failure, history, mode, collected,
    shown⟩ := e
  obtain ⟨htest, hmode⟩ := h
  dsimp only at htest hmode
  rw [run_apply, hmode]
  dsimp only
  rw [htest]
  rfl

namespace Engine

/-- An engine over a connection that begins to keep a journal. -/
def journaled (e : Engine σ St) : Engine (σ × List Entry) St :=
  { e with connection := (e.connection, []) }

/-- An engine over a connection whose journal is put away. -/
def unjournaled (e : Engine (σ × List Entry) St) : Engine σ St :=
  { e with connection := e.connection.1 }

/-- Sending a statement only writes into the journal besides. -/
theorem unjournaled_send (conn : Connection σ St)
    {carryOut : StatementM (σ × List Entry) St Error (Except ErrorInfo Nat)}
    {plain : StatementM σ St Error (Except ErrorInfo Nat)} (h : carryOut.Records plain)
    (c : Compiled) (e : Engine (σ × List Entry) St) :
    send conn plain c e.unjournaled =
      ((send conn.journaled carryOut c e).1, (send conn.journaled carryOut c e).2.unjournaled) := by
  have hprepare : conn.prepare c.sql e.unjournaled.connection =
      ((conn.journaled.prepare c.sql e.connection).1,
        (conn.journaled.prepare c.sql e.connection).2.1) := rfl
  -- Both engines make the same calls, and go on in the same way after each of them.
  rw [send_apply, send_apply, hprepare]
  rcases conn.journaled.prepare c.sql e.connection with ⟨_ | st, s⟩
  · rfl
  dsimp only
  rw [conn.records_bindAll c.binds st s]
  rcases conn.journaled.bindAll c.binds st s with ⟨⟨_ | _, st₁⟩, s₁⟩
  · rfl
  dsimp only
  rw [h st₁ s₁]
  rcases carryOut st₁ s₁ with ⟨⟨_ | _ | _, st₂⟩, s₂⟩ <;> rfl

/-- Running a statement in a transaction of its own only writes into the journal besides. -/
theorem execWith_journaled (conn : Connection σ St) (callback : Callback) (c : Compiled)
    {e : Engine σ St} (h : e.Sends) :
    execWith conn (callback.run conn) c e =
      ((execWith conn.journaled (callback.journaled conn) c e.journaled).1,
        (execWith conn.journaled (callback.journaled conn) c e.journaled).2.unjournaled) := by
  have hjournaled : e.journaled.Sends := h
  rw [execWith, execWith, run_of_sends h, run_of_sends hjournaled]
  exact unjournaled_send conn (conn.records_transact callback) c
    { e.journaled with statement := none, error := none, failure := none,
                       history := (if e.config.logging then e.history else []) ++ [c] }

end Engine

/-- What the engine answers and keeps when a statement was carried out with some result. -/
def carried (result : Except Error (Except ErrorInfo Nat)) (statement : St) :
    Except Error Bool × Option St × Option ErrorInfo :=
  match result with
  | .error x => (.error x, none, none)
  | .ok (.error info) => (.ok false, none, some info)
  | .ok (.ok _) => (.ok true, some statement, none)

/-- Carrying out a statement that is prepared and has its values takes one of the courses. -/
theorem Connection.course_transact (conn : Connection σ St) (callback : Callback)
    {bound : List Entry} (hbound : ∀ entry ∈ bound, entry.isUse) (st : St) (s : σ × List Entry) :
    let after := conn.journaled.transact (callback.journaled conn) st s
    let kept := carried after.1.1 after.1.2
    ∃ entries, after.2.2 = s.2 ++ entries ∧
      Course (.prepare (.ok ()) :: bound ++ entries) kept.1 kept.2.1 kept.2.2 := by
  intro after kept
  simp only [kept, after]
  rw [transact_apply]
  -- Each call of the transaction can fail, and each failure is a course of its own.
  rcases hstart : conn.journaled.startTransaction s with ⟨x | _, s₁⟩
  · have hjournal := journal_of_journaling .start conn.startTransaction hstart
    exact ⟨_, hjournal, .notBegun hbound x⟩
  have hjournal := journal_of_journaling .start conn.startTransaction hstart
  dsimp only
  rcases hcallback : callback.journaled conn st s₁ with ⟨⟨verdict, st₂⟩, s₂⟩
  obtain ⟨inside, hinside, huses⟩ := callback.journal_of_journaled conn hcallback
  -- What happens after the callback decides between the courses.
  have hend : ∀ {tail : List Entry} {s' : σ × List Entry} {result : Except Error Bool}
      {statement : Option St} {failure : Option ErrorInfo}, s'.2 = s₂.2 ++ tail →
      Course (opening bound inside ++ .leave verdict :: tail) result statement failure →
      ∃ entries, s'.2 = s.2 ++ entries ∧
        Course (.prepare (.ok ()) :: bound ++ entries) result statement failure := by
    intro tail s' result statement failure htail hcourse
    refine ⟨.start (.ok ()) :: .enter :: inside ++ .leave verdict :: tail, ?_, ?_⟩
    · simp [htail, hinside, hjournal]
    · simpa [opening] using hcourse
  -- Two ends of the callback undo the changes, and whether that works makes no difference.
  have hundone : ∀ failure : Error, verdict ≠ .ok .commit →
      ∃ entries, (conn.journaled.rollBackWith failure s₂).2.2 = s.2 ++ entries ∧
        Course (.prepare (.ok ()) :: bound ++ entries)
          (.error (conn.journaled.rollBackWith failure s₂).1) (none : Option St) none := by
    intro failure hverdict
    refine hend ?_ (.aborted hbound huses hverdict (conn.journaled.rollBack s₂).1 _)
    rw [rollBackWith_apply_snd]
    rfl
  rcases verdict with x | _ | _
  · exact hundone (.transaction x) nofun
  · dsimp only
    rcases hexecute : conn.journaled.execute st₂ s₂ with ⟨⟨info | count, st₃⟩, s₃⟩
    · have hexecuted := journal_of_journalingOnStatement .execute conn.execute hexecute
      dsimp only
      rcases hrollBack : conn.journaled.rollBack s₃ with ⟨y | _, s₄⟩
      · have hrolled := journal_of_journaling .rollBack conn.rollBack hrollBack
        exact hend (by rw [hrolled, hexecuted]; simp) (.notUndone hbound huses info y _)
      · have hrolled := journal_of_journaling .rollBack conn.rollBack hrollBack
        exact hend (by rw [hrolled, hexecuted]; simp) (.refused hbound huses info)
    · have hexecuted := journal_of_journalingOnStatement .execute conn.execute hexecute
      dsimp only
      rcases hcommit : conn.journaled.commit s₃ with ⟨x | _, s₄⟩
      · have hcommitted := journal_of_journaling .commit conn.commit hcommit
        exact hend (by rw [hcommitted, hexecuted]; simp) (.notCommitted hbound huses count x)
      · have hcommitted := journal_of_journaling .commit conn.commit hcommit
        exact hend (by rw [hcommitted, hexecuted]; simp) (.committed hbound huses count st₃)
  · exact hundone .transactionAborted nofun

/-- Running a statement in a transaction of its own takes one of the courses. -/
theorem Engine.course_execWith (conn : Connection σ St) (callback : Callback) (c : Compiled)
    {e : Engine (σ × List Entry) St} (h : e.Sends) :
    let after := execWith conn.journaled (callback.journaled conn) c e
    ∃ entries, after.2.connection.2 = e.connection.2 ++ entries ∧
      Course entries after.1 after.2.statement after.2.failure := by
  intro after
  simp only [after, execWith]
  rw [run_of_sends h, send_apply]
  dsimp only
  rcases hprepare : conn.journaled.prepare c.sql e.connection with ⟨info | st, s⟩
  · have hprepared := Connection.journal_of_journaling
      (fun result => .prepare (result.map fun _ => ())) (conn.prepare c.sql) hprepare
    exact ⟨_, hprepared, .notPrepared info⟩
  have hprepared : s.2 = e.connection.2 ++ [.prepare (.ok ())] :=
    Connection.journal_of_journaling (fun result => .prepare (result.map fun _ => ()))
      (conn.prepare c.sql) hprepare
  dsimp only
  -- The values are bound before the transaction is begun, and only that is recorded meanwhile.
  obtain ⟨bound, hbound, huses⟩ := conn.uses_bindAll c.binds st s
  rcases hbind : conn.journaled.bindAll c.binds st s with ⟨⟨x | _, st₁⟩, s₁⟩
  · rw [hbind] at hbound
    exact ⟨_, by rw [hbound, hprepared, List.append_assoc]; rfl, .notBound huses x⟩
  rw [hbind] at hbound
  dsimp only
  obtain ⟨entries, hentries, hcourse⟩ := conn.course_transact callback huses st₁ s₁
  rcases htransact : conn.journaled.transact (callback.journaled conn) st₁ s₁ with
    ⟨⟨x | info | _, st₂⟩, s₂⟩ <;>
  · rw [htransact] at hentries hcourse
    exact ⟨_, by rw [hentries, hbound, hprepared]; simp, hcourse⟩

/-- Whether the callback asks for a commit and the statement is executed after it. -/
def Entry.Succeeds (entries : List Entry) : Prop :=
  .leave (.ok .commit) ∈ entries ∧
    ∃ count, Entry.executionAfterCallback entries = some (.ok count)

/-- The protocol of a statement in a transaction of its own: what the journal, the result, the
statement that is kept and the report that is kept have to do with each other. -/
structure Protocol (entries : List Entry) (result : Except Error Bool) (statement : Option St)
    (failure : Option ErrorInfo) : Prop where
  /-- The transaction and the callback begin only after the statement was prepared. -/
  prepared : ∀ before entry rest, entries = before ++ entry :: rest → entry.begins →
    .prepare (.ok ()) ∈ before
  /-- A transaction that is begun is ended by exactly one call: by a commit if the callback asks for
  it and the statement is executed, and else by undoing the changes. -/
  ended : .start (.ok ()) ∈ entries →
    ∃ control, entries.filter Entry.isControl = [.start (.ok ()), control] ∧
      (Entry.Succeeds entries ∧ (∃ done, control = .commit done) ∨
        ¬Entry.Succeeds entries ∧ ∃ undone, control = .rollBack undone)
  /-- The statement is kept exactly if the changes last. -/
  kept : (result = .ok true ∧ statement.isSome) ↔ .commit (.ok ()) ∈ entries
  /-- There is no result but a report exactly if the statement could not be prepared, or if it was
  refused after the callback and all changes are undone. -/
  refused : ∀ info, (result = .ok false ∧ failure = some info) ↔
    .prepare (.error info) ∈ entries ∨
      Entry.executionAfterCallback entries = some (.error info) ∧ .rollBack (.ok ()) ∈ entries
  /-- A statement is kept exactly if it was carried out. -/
  carriedOut : result = .ok true ↔ statement.isSome
  /-- A report is kept exactly if there is no other result. -/
  reported : result = .ok false ↔ failure.isSome
  /-- After any failure neither a statement nor a report is kept. -/
  failed : ∀ x, result = .error x → statement = none ∧ failure = none

section Reading

variable {bound inside tail : List Entry} {verdict : Except Error Verdict} {entry : Entry}

/-- A use of a statement does not control a transaction, and it is not the end of a callback. -/
theorem not_control_of_isUse (h : entry.isUse) :
    entry.isControl = false ∧ entry.isLeave = false := by
  cases entry <;> first | exact ⟨rfl, rfl⟩ | cases h

/-- Uses of a statement do not control a transaction. -/
theorem filter_isControl_of_isUse (h : ∀ entry ∈ bound, entry.isUse) :
    bound.filter Entry.isControl = [] := by
  rw [List.filter_eq_nil_iff]
  intro entry hentry
  simp [(not_control_of_isUse (h entry hentry)).1]

/-- What is no use of a statement is not among uses. -/
theorem not_mem_of_isUse (h : ∀ entry ∈ bound, entry.isUse) (hentry : entry.isUse = false) :
    entry ∉ bound := by
  intro hmem
  exact absurd (hentry.symm.trans (h entry hmem)) (by decide)

/-- Until a callback ends there are only uses of the statement, besides the three steps that lead to
the callback. -/
theorem mem_opening : entry ∈ opening bound inside ↔
    entry = .prepare (.ok ()) ∨ entry ∈ bound ∨ entry = .start (.ok ()) ∨ entry = .enter ∨
      entry ∈ inside := by
  simp [opening]

/-- No callback has ended before the end of the callback. -/
theorem isLeave_of_mem_opening (hbound : ∀ entry ∈ bound, entry.isUse)
    (hinside : ∀ entry ∈ inside, entry.isUse) :
    ∀ entry ∈ opening bound inside, entry.isLeave = false := by
  intro entry hentry
  rcases mem_opening.1 hentry with rfl | hentry | rfl | rfl | hentry
  · rfl
  · exact (not_control_of_isUse (hbound entry hentry)).2
  · rfl
  · rfl
  · exact (not_control_of_isUse (hinside entry hentry)).2

/-- The first call that controls the transaction begins it. -/
theorem filter_isControl_opening (hbound : ∀ entry ∈ bound, entry.isUse)
    (hinside : ∀ entry ∈ inside, entry.isUse) :
    (opening bound inside).filter Entry.isControl = [.start (.ok ())] := by
  rw [opening, List.filter_append, List.filter_cons_of_neg (by decide),
    filter_isControl_of_isUse hbound, List.filter_cons_of_pos rfl,
    List.filter_cons_of_neg (by decide), filter_isControl_of_isUse hinside]
  rfl

/-- What was executed after the callback is what comes directly after its end. -/
theorem executionAfterCallback_opening (hbound : ∀ entry ∈ bound, entry.isUse)
    (hinside : ∀ entry ∈ inside, entry.isUse) :
    Entry.executionAfterCallback (opening bound inside ++ .leave verdict :: tail) =
      Entry.executionAfterCallback (.leave verdict :: tail) := by
  have hbefore := isLeave_of_mem_opening hbound hinside
  rw [Entry.executionAfterCallback, Entry.executionAfterCallback,
    List.dropWhile_append_of_pos fun entry hentry => by simp [hbefore entry hentry]]

/-- What follows a prepared statement follows it. -/
theorem prepared_of_cons {before rest : List Entry}
    (h : .prepare (.ok ()) :: tail = before ++ entry :: rest) (hentry : entry.begins) :
    .prepare (.ok ()) ∈ before := by
  cases before with
  | nil =>
    obtain rfl := (List.cons.inj h).1
    cases hentry
  | cons first before =>
    obtain rfl := (List.cons.inj h).1
    exact List.mem_cons_self

/-- What is no use of a statement and none of the steps that lead to a callback is found behind
them. -/
theorem mem_opening_append (hbound : ∀ entry ∈ bound, entry.isUse)
    (hinside : ∀ entry ∈ inside, entry.isUse) (entry : Entry) (huse : entry.isUse = false)
    (hprepare : entry ≠ .prepare (.ok ())) (hbegins : entry.begins = false) :
    entry ∈ opening bound inside ++ tail ↔ entry ∈ tail := by
  rw [List.mem_append, mem_opening, or_iff_right]
  rintro (h | h | rfl | rfl | h)
  · exact hprepare h
  · exact not_mem_of_isUse hbound huse h
  · cases hbegins
  · cases hbegins
  · exact not_mem_of_isUse hinside huse h

/-- What is not the end of a callback either is found behind that end. -/
theorem mem_opening_leave (hbound : ∀ entry ∈ bound, entry.isUse)
    (hinside : ∀ entry ∈ inside, entry.isUse) (entry : Entry) (huse : entry.isUse = false)
    (hprepare : entry ≠ .prepare (.ok ())) (hbegins : entry.begins = false)
    (hleave : entry.isLeave = false) :
    entry ∈ opening bound inside ++ .leave verdict :: tail ↔ entry ∈ tail := by
  rw [mem_opening_append hbound hinside entry huse hprepare hbegins, List.mem_cons, or_iff_right]
  rintro rfl
  cases hleave

/-- Whether the statement is executed after a callback that asks for a commit is decided by what
follows the end of the callback. -/
theorem succeeds_opening (hbound : ∀ entry ∈ bound, entry.isUse)
    (hinside : ∀ entry ∈ inside, entry.isUse) :
    Entry.Succeeds (opening bound inside ++ .leave verdict :: tail) ↔
      Entry.Succeeds (.leave verdict :: tail) := by
  rw [Entry.Succeeds, Entry.Succeeds, executionAfterCallback_opening hbound hinside,
    mem_opening_append hbound hinside (.leave (.ok .commit)) rfl nofun rfl]

/-- The protocol is kept behind a callback if it is kept by what follows the end of the callback. -/
theorem protocol_opening (hbound : ∀ entry ∈ bound, entry.isUse)
    (hinside : ∀ entry ∈ inside, entry.isUse) {result : Except Error Bool} {statement : Option St}
    {failure : Option ErrorInfo} {control : Entry}
    (hcontrol : tail.filter Entry.isControl = [control])
    (hended : Entry.Succeeds (.leave verdict :: tail) ∧ (∃ done, control = .commit done) ∨
      ¬Entry.Succeeds (.leave verdict :: tail) ∧ ∃ undone, control = .rollBack undone)
    (hkept : (result = .ok true ∧ statement.isSome) ↔ .commit (.ok ()) ∈ tail)
    (hrefused : ∀ info, (result = .ok false ∧ failure = some info) ↔ .prepare (.error info) ∈ tail ∨
      Entry.executionAfterCallback (.leave verdict :: tail) = some (.error info) ∧
        .rollBack (.ok ()) ∈ tail)
    (hcarriedOut : result = .ok true ↔ statement.isSome)
    (hreported : result = .ok false ↔ failure.isSome) :
    Protocol (opening bound inside ++ .leave verdict :: tail) result statement failure where
  prepared _ _ _ h hentry := prepared_of_cons h hentry
  ended _ := by
    refine ⟨control, ?_, ?_⟩
    · rw [List.filter_append, filter_isControl_opening hbound hinside,
        List.filter_cons_of_neg (by simp [Entry.isControl]), hcontrol]
      rfl
    · rwa [succeeds_opening hbound hinside]
  kept := by
    rw [hkept, mem_opening_leave hbound hinside (.commit (.ok ())) rfl nofun rfl rfl]
  refused info := by
    rw [hrefused, executionAfterCallback_opening hbound hinside,
      mem_opening_leave hbound hinside (.prepare (.error info)) rfl nofun rfl rfl,
      mem_opening_leave hbound hinside (.rollBack (.ok ())) rfl nofun rfl rfl]
  carriedOut := hcarriedOut
  reported := hreported
  failed x hx := by
    subst hx
    exact ⟨by simpa using hcarriedOut, by simpa using hreported⟩

/-- The protocol is kept where a statement is prepared and no transaction is begun. -/
theorem protocol_of_not_begun (hbound : ∀ entry ∈ bound, entry.isUse) (tail : List Entry)
    (htail : ∀ entry ∈ tail, ∃ y, entry = .start (.error y)) (x : Error) :
    Protocol (.prepare (.ok ()) :: bound ++ tail) (.error x) (none : Option St) none := by
  -- All entries are known not to end a callback or a transaction.
  have hnone : ∀ entry : Entry, entry.isUse = false → entry ≠ .prepare (.ok ()) →
      (∀ y, entry ≠ .start (.error y)) → entry ∉ .prepare (.ok ()) :: bound ++ tail := by
    intro entry huse hprepare hstart hmem
    rcases List.mem_append.1 hmem with hmem | hmem
    · rcases List.mem_cons.1 hmem with rfl | hmem
      · exact hprepare rfl
      · exact not_mem_of_isUse hbound huse hmem
    · obtain ⟨y, rfl⟩ := htail entry hmem
      exact hstart y rfl
  have hexecution : Entry.executionAfterCallback (.prepare (.ok ()) :: bound ++ tail) = none := by
    have hdrop : (.prepare (.ok ()) :: bound ++ tail).dropWhile (fun entry => !entry.isLeave) =
        [] := by
      rw [List.dropWhile_eq_nil_iff]
      intro entry hentry
      rcases List.mem_append.1 hentry with hentry | hentry
      · rcases List.mem_cons.1 hentry with rfl | hentry
        · rfl
        · simp [(not_control_of_isUse (hbound entry hentry)).2]
      · obtain ⟨y, rfl⟩ := htail entry hentry
        rfl
    rw [Entry.executionAfterCallback, hdrop]
  refine ⟨fun _ _ _ => prepared_of_cons, ?_, ?_, ?_, by simp, by simp, fun _ _ => ⟨rfl, rfl⟩⟩
  · intro hstart
    exact absurd hstart (hnone (.start (.ok ())) rfl nofun nofun)
  · exact iff_of_false nofun (hnone (.commit (.ok ())) rfl nofun nofun)
  · intro info
    refine iff_of_false nofun ?_
    rintro (hprepare | ⟨hexecute, -⟩)
    · exact hnone (.prepare (.error info)) rfl nofun nofun hprepare
    · exact absurd (hexecution.symm.trans hexecute) nofun

end Reading

/-- On each of the courses the protocol is kept. -/
theorem Course.protocol {entries : List Entry} {result : Except Error Bool} {statement : Option St}
    {failure : Option ErrorInfo} (h : Course entries result statement failure) :
    Protocol entries result statement failure := by
  -- The courses that come to the callback differ only behind its end.
  cases h with
  | notPrepared info =>
    refine ⟨?_, nofun, ?_, ?_, by simp, by simp, nofun⟩
    · intro before entry rest heq hentry
      rcases List.append_eq_singleton_iff.1 heq.symm with ⟨-, hfirst⟩ | ⟨-, hnil⟩
      · obtain rfl := (List.cons.inj hfirst).1
        cases hentry
      · cases hnil
    · simp
    · simp [Entry.executionAfterCallback, Entry.isLeave, eq_comm]
  | notBound hbound x =>
    rw [← List.append_nil (_ :: _)]
    exact protocol_of_not_begun hbound [] (by simp) x
  | notBegun hbound x => exact protocol_of_not_begun hbound [.start (.error x)] (by simp) x
  | aborted hbound hinside hverdict undone x =>
    refine protocol_opening hbound hinside rfl (.inr ⟨?_, undone, rfl⟩) ?_ ?_ ?_ ?_
    all_goals simp [Entry.executionAfterCallback, Entry.isLeave, Entry.Succeeds]
  | refused hbound hinside info =>
    refine protocol_opening hbound hinside rfl (.inr ⟨?_, .ok (), rfl⟩) ?_ ?_ ?_ ?_
    all_goals simp [Entry.executionAfterCallback, Entry.isLeave, Entry.Succeeds]
  | notUndone hbound hinside info y x =>
    refine protocol_opening hbound hinside rfl (.inr ⟨?_, .error y, rfl⟩) ?_ ?_ ?_ ?_
    all_goals simp [Entry.executionAfterCallback, Entry.isLeave, Entry.Succeeds]
  | committed hbound hinside count statement =>
    refine protocol_opening hbound hinside rfl (.inl ⟨?_, .ok (), rfl⟩) ?_ ?_ ?_ ?_
    all_goals simp [Entry.executionAfterCallback, Entry.isLeave, Entry.Succeeds]
  | notCommitted hbound hinside count x =>
    refine protocol_opening hbound hinside rfl (.inl ⟨?_, .error x, rfl⟩) ?_ ?_ ?_ ?_
    all_goals simp [Entry.executionAfterCallback, Entry.isLeave, Entry.Succeeds]

/-- A statement that is sent in a transaction of its own keeps to the protocol, whatever its
callback does and whatever each call to the connection comes to: the journal that the connection
would keep of it, the result, and what the engine keeps of the statement fit together. -/
theorem Engine.execWith_protocol (conn : Connection σ St) (callback : Callback) (c : Compiled)
    {e : Engine σ St} (h : e.Sends) :
    let journal := (execWith conn.journaled (callback.journaled conn) c e.journaled).2.connection.2
    let after := execWith conn (callback.run conn) c e
    Protocol journal after.1 after.2.statement after.2.failure := by
  intro journal after
  have hjournaled : e.journaled.Sends := h
  obtain ⟨entries, hentries, hcourse⟩ := course_execWith conn callback c hjournaled
  have hjournal : journal = entries := hentries
  simp only [after]
  rw [execWith_journaled conn callback c h, hjournal]
  exact hcourse.protocol

/-- A transaction whose callback executes the statement itself and asks for a commit in spite of
being refused: the statement is refused once more, and the transaction is rolled back. -/
theorem Engine.execWith_protocol_refused :
    let info : ErrorInfo := { sqlstate := "23505", message := "duplicate key" }
    let conn := Connection.scripted
    let callback : Callback :=
      .bind ":n" ⟨.int, .int 1⟩ fun _ => .execute fun _ => .done (.ok .commit)
    let c : Compiled := ⟨"INSERT INTO t VALUES (:n)", []⟩
    let e : Engine Connection.Scripted Connection.ScriptedStatement :=
      .new { script := { failExecute := some info } } {}
    let journal := (execWith conn.journaled (callback.journaled conn) c e.journaled).2.connection.2
    let after := execWith conn (callback.run conn) c e
    journal =
        [.prepare (.ok ()), .start (.ok ()), .enter, .bind (.ok ()), .execute (.error info),
          .leave (.ok .commit), .execute (.error info), .rollBack (.ok ())] ∧
      after.1 = .ok false ∧ after.2.failure = some info ∧
      Protocol journal after.1 after.2.statement after.2.failure := by
  intro info conn callback c e journal after
  have hsends : e.Sends := ⟨rfl, rfl⟩
  exact ⟨by decide +kernel, by decide +kernel, by decide +kernel,
    execWith_protocol conn callback c hsends⟩

end BoundSql
