import BoundSql.Proofs.Engine.Steps
import Mathlib.Data.List.TakeWhile

/-!
# Journals of connections

A connection can keep a journal of what it is asked for, each call with its result, and the
beginning and the end of a callback among the calls. Otherwise it does what it does without a
journal. So what happens in a transaction, and in which order, can be read off one list.

* `Connection.journaled` and `Callback.journaled`: the connection and the callback with a journal;
* `Connection.journal_bindAll` and `Callback.journal_run`: what binding values and a callback write
  into it.
-/

namespace BoundSql

/-- An entry of a journal. -/
inductive Entry where
  /-- A statement was to be prepared. -/
  | prepare (result : Except ErrorInfo Unit)
  /-- A value was to be bound. -/
  | bind (result : Except Error Unit)
  /-- A statement was to be executed. -/
  | execute (result : Except ErrorInfo Nat)
  /-- A transaction was to be begun. -/
  | start (result : Except Error Unit)
  /-- A callback began. -/
  | enter
  /-- A callback ended. -/
  | leave (result : Except Error Verdict)
  /-- The changes of the transaction were to last. -/
  | commit (result : Except Error Unit)
  /-- The changes of the transaction were to be undone. -/
  | rollBack (result : Except Error Unit)
  deriving DecidableEq

namespace Entry

/-- Whether a transaction was to be begun or ended. -/
def isControl : Entry → Bool
  | start _ | commit _ | rollBack _ => true
  | _ => false

/-- Whether a statement was used: by binding a value to it or by executing it. -/
def isUse : Entry → Bool
  | bind _ | execute _ => true
  | _ => false

/-- Whether a callback began or a transaction was to be begun. -/
def begins : Entry → Bool
  | start _ | enter => true
  | _ => false

/-- Whether a callback ended. -/
def isLeave : Entry → Bool
  | leave _ => true
  | _ => false

/-- What came of executing the statement directly after a callback, which is what the callback was
asked about. What the callback itself has executed does not count. -/
def executionAfterCallback (entries : List Entry) : Option (Except ErrorInfo Nat) :=
  match entries.dropWhile fun entry => !entry.isLeave with
  | leave _ :: execute result :: _ => some result
  | _ => none

end Entry

namespace Connection

variable {σ St ε α : Type}

/-- Carry out an action and write its result into the journal. -/
def journaling (entry : Except ε α → Entry) (action : ConnectionM σ ε α) :
    ConnectionM (σ × List Entry) ε α :=
  fun s =>
    let done := action s.1
    (done.1, done.2, s.2 ++ [entry done.1])

/-- Carry out an action on a statement and write its result into the journal. -/
def journalingOnStatement (entry : Except ε α → Entry) (action : StatementM σ St ε α) :
    StatementM (σ × List Entry) St ε α :=
  fun statement s =>
    let done := action statement s.1
    (done.1, done.2, s.2 ++ [entry done.1.1])

/-- A connection that keeps a journal. What does not belong to a transaction is not written down. -/
def journaled (conn : Connection σ St) : Connection (σ × List Entry) St where
  prepare sql := journaling (fun result => .prepare (result.map fun _ => ())) (conn.prepare sql)
  bind name bound := journalingOnStatement .bind (conn.bind name bound)
  execute := journalingOnStatement .execute conn.execute
  takeRows := conn.takeRows
  rowCount := conn.rowCount
  startTransaction := journaling .start conn.startTransaction
  commit := journaling .commit conn.commit
  rollBack := journaling .rollBack conn.rollBack
  lastInsertId sequence := fun s =>
    let done := conn.lastInsertId sequence s.1
    (done.1, done.2, s.2)
  serverInfo := fun s =>
    let done := conn.serverInfo s.1
    (done.1, done.2, s.2)

end Connection

/-- Carry out a callback, with its beginning and its end in the journal. -/
def Callback.journaled {σ St : Type} (conn : Connection σ St) (callback : Callback) :
    StatementM (σ × List Entry) St Error Verdict :=
  fun statement s =>
    let done := callback.run conn.journaled statement (s.1, s.2 ++ [.enter])
    (done.1, done.2.1, done.2.2 ++ [.leave done.1.1])

/-- Only uses of a statement were added to a journal. -/
def Uses (before after : List Entry) : Prop :=
  ∃ entries, after = before ++ entries ∧ ∀ entry ∈ entries, entry.isUse

namespace Uses

variable {a b c : List Entry}

/-- Nothing was added. -/
theorem refl (a : List Entry) : Uses a a := ⟨[], (List.append_nil a).symm, by simp⟩

/-- One use was added. -/
theorem single {entry : Entry} (h : entry.isUse) (a : List Entry) : Uses a (a ++ [entry]) :=
  ⟨[entry], rfl, by simpa using h⟩

/-- Uses were added, and then others. -/
theorem trans (hab : Uses a b) (hbc : Uses b c) : Uses a c := by
  obtain ⟨first, rfl, hfirst⟩ := hab
  obtain ⟨second, rfl, hsecond⟩ := hbc
  refine ⟨first ++ second, List.append_assoc a first second, ?_⟩
  intro entry hentry
  exact (List.mem_append.1 hentry).elim (hfirst entry) (hsecond entry)

end Uses

variable {σ St ε α β : Type}

variable (conn : Connection σ St)

/-- Binding a value writes a use into the journal. -/
theorem Connection.uses_bind (name : String) (bound : Bound) :
    (conn.journaled.bind name bound).Along Uses :=
  fun _ s => .single rfl s.2

/-- Binding values writes uses into the journal. -/
theorem Connection.uses_bindAll (binds : BindMap) : (conn.journaled.bindAll binds).Along Uses :=
  along_bindAll Uses.refl Uses.trans conn.uses_bind binds

/-- A callback writes uses into the journal. -/
theorem Callback.uses_run (callback : Callback) : (callback.run conn.journaled).Along Uses :=
  callback.along_run Uses.refl Uses.trans conn.uses_bind fun _ s => .single rfl s.2

/-- An action is written into the journal with its result. -/
theorem Connection.journal_of_journaling (entry : Except ε α → Entry) (action : ConnectionM σ ε α)
    {s s' : σ × List Entry} {result : Except ε α}
    (h : journaling entry action s = (result, s')) : s'.2 = s.2 ++ [entry result] := by
  obtain ⟨rfl, rfl⟩ := Prod.mk.inj h
  rfl

/-- An action on a statement is written into the journal with its result. -/
theorem Connection.journal_of_journalingOnStatement (entry : Except ε α → Entry)
    (action : StatementM σ St ε α) {st st' : St} {s s' : σ × List Entry} {result : Except ε α}
    (h : journalingOnStatement entry action st s = ((result, st'), s')) :
    s'.2 = s.2 ++ [entry result] := by
  obtain ⟨hresult, rfl⟩ := Prod.mk.inj h
  obtain ⟨rfl, rfl⟩ := Prod.mk.inj hresult
  rfl

/-- A callback is written into the journal with its beginning, its uses of the statement and its
end. -/
theorem Callback.journal_of_journaled {callback : Callback} {st st' : St} {s s' : σ × List Entry}
    {result : Except Error Verdict}
    (h : callback.journaled conn st s = ((result, st'), s')) :
    ∃ inside, s'.2 = s.2 ++ .enter :: inside ++ [.leave result] ∧
      ∀ entry ∈ inside, entry.isUse := by
  obtain ⟨inside, hinside, huses⟩ := callback.uses_run conn st (s.1, s.2 ++ [.enter])
  obtain ⟨hresult, rfl⟩ := Prod.mk.inj h
  obtain ⟨rfl, rfl⟩ := Prod.mk.inj hresult
  refine ⟨inside, ?_, huses⟩
  dsimp only
  rw [hinside, List.append_assoc s.2, List.singleton_append]

/-- An action on a statement that differs from another one only in that it writes into a journal. -/
def StatementM.Records (m : StatementM (σ × List Entry) St ε α) (plain : StatementM σ St ε α) :
    Prop :=
  ∀ st s, plain st s.1 = ((m st s).1, (m st s).2.1)

namespace StatementM.Records

variable {δ : Type} {m : StatementM (σ × List Entry) St ε α} {plain : StatementM σ St ε α}

/-- An action and another one that depends on its result. -/
theorem bind {f : α → StatementM (σ × List Entry) St ε β} {g : α → StatementM σ St ε β}
    (hm : m.Records plain) (hf : ∀ a, (f a).Records (g a)) : (m >>= f).Records (plain >>= g) := by
  intro st s
  rw [StatementM.bind_apply, StatementM.bind_apply, hm st s]
  rcases m st s with ⟨⟨_ | a, st'⟩, s'⟩
  · rfl
  · exact hf a st' s'

/-- Going on with an outcome. -/
theorem outcome (h : m.Records plain) :
    StatementM.Records
      (BoundSql.outcome m : StatementM (σ × List Entry) St δ (Except ε α))
      (BoundSql.outcome plain) := by
  intro st s
  rw [StatementM.outcome_apply, StatementM.outcome_apply, h st s]

end StatementM.Records

/-- Binding values only writes into the journal besides. -/
theorem Connection.records_bindAll (binds : BindMap) :
    (conn.journaled.bindAll binds).Records (conn.bindAll binds) := by
  induction binds with
  | nil => exact fun _ _ => rfl
  | cons pair binds ih => exact StatementM.Records.bind (fun _ _ => rfl) fun _ => ih

/-- A callback only writes into the journal besides. -/
theorem Callback.records_run (callback : Callback) :
    (callback.run conn.journaled).Records (callback.run conn) := by
  induction callback with
  | done result => cases result <;> exact fun _ _ => rfl
  | bind name bound next ih =>
    have hbind : (conn.journaled.bind name bound).Records (conn.bind name bound) := fun _ _ => rfl
    exact hbind.outcome.bind ih
  | execute next ih =>
    have hexecute : conn.journaled.execute.Records conn.execute := fun _ _ => rfl
    exact hexecute.outcome.bind ih
  | takeRows next ih => exact fun st s => ih (conn.takeRows st).1 (conn.takeRows st).2 s
  | rowCount next ih => exact fun st s => ih (conn.rowCount st) st s

/-- A callback with a journal of its own only writes into it besides. -/
theorem Callback.records_journaled (callback : Callback) :
    (callback.journaled conn).Records (callback.run conn) :=
  fun st s => callback.records_run conn st (s.1, s.2 ++ [.enter])

/-- Undoing the changes because of a failure only writes into the journal besides. -/
theorem Connection.records_rollBackWith (failure : Error) (s : σ × List Entry) :
    conn.rollBackWith failure s.1 =
      ((conn.journaled.rollBackWith failure s).1, (conn.journaled.rollBackWith failure s).2.1) := by
  have hrollBack : conn.rollBack s.1 =
      ((conn.journaled.rollBack s).1, (conn.journaled.rollBack s).2.1) := rfl
  rw [rollBackWith_apply, rollBackWith_apply, hrollBack]
  rcases conn.journaled.rollBack s with ⟨_ | _, s'⟩ <;> rfl

/-- The transaction of a single statement only writes into the journal besides. -/
theorem Connection.records_transact (callback : Callback) :
    (conn.journaled.transact (callback.journaled conn)).Records
      (conn.transact (callback.run conn)) := by
  intro st s
  have hstart : conn.startTransaction s.1 = ((conn.journaled.startTransaction s).1,
    (conn.journaled.startTransaction s).2.1) := rfl
  have hcommit : ∀ s : σ × List Entry, conn.commit s.1 =
    ((conn.journaled.commit s).1, (conn.journaled.commit s).2.1) := fun _ => rfl
  have hrollBack : ∀ s : σ × List Entry, conn.rollBack s.1 =
    ((conn.journaled.rollBack s).1, (conn.journaled.rollBack s).2.1) := fun _ => rfl
  have hexecute : conn.journaled.execute.Records conn.execute := fun _ _ => rfl
  -- Each call is made by both connections and has the same outcome for both.
  rw [transact_apply, transact_apply, hstart]
  rcases conn.journaled.startTransaction s with ⟨_ | _, s₁⟩
  · rfl
  dsimp only
  rw [callback.records_journaled conn st s₁]
  rcases callback.journaled conn st s₁ with ⟨⟨x | _ | _, st₂⟩, s₂⟩ <;> dsimp only
  · rw [conn.records_rollBackWith]
  · rw [hexecute st₂ s₂]
    rcases conn.journaled.execute st₂ s₂ with ⟨⟨_ | _, st₃⟩, s₃⟩ <;> dsimp only
    · rw [hrollBack]
      rcases conn.journaled.rollBack s₃ with ⟨_ | _, s₄⟩ <;> rfl
    · rw [hcommit]
      rcases conn.journaled.commit s₃ with ⟨_ | _, s₄⟩ <;> rfl
  · rw [conn.records_rollBackWith]

end BoundSql
