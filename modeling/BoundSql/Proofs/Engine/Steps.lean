import BoundSql.Proofs.Engine.Program

/-!
# What the engine does with its connection

The operations of an engine as functions of its state: what each of them asks of the connection, and
with which state it leaves it. Only these few equations look into the definitions of operations;
what is proved about the connection rests on them.
-/

namespace BoundSql

variable {σ St α β : Type}

/-- An operation and another one that depends on its result. -/
theorem EngineM.bind_apply (m : EngineM σ St α) (f : α → EngineM σ St β) (e : Engine σ St) :
    (m >>= f) e = match m e with
      | (.ok a, e') => f a e'
      | (.error x, e') => (.error x, e') := by
  change ExceptT.bindCont f (m e).1 (m e).2 = _
  rcases m e with ⟨_ | a, e'⟩ <;> rfl

/-- Reading the state of the engine. -/
theorem EngineM.get_apply (e : Engine σ St) : (get : EngineM σ St (Engine σ St)) e = (.ok e, e) :=
  rfl

/-- Going on with the outcome of an operation. -/
theorem EngineM.outcome_apply (m : EngineM σ St α) (e : Engine σ St) :
    (outcome m : EngineM σ St (Except Error α)) e = (.ok (m e).1, (m e).2) := rfl

/-- A result that is turned into another one. -/
theorem EngineM.map_apply (f : α → β) (m : EngineM σ St α) (e : Engine σ St) :
    (f <$> m) e = ((m e).1.map f, (m e).2) := by
  rw [map_eq_pure_bind, EngineM.bind_apply]
  rcases m e with ⟨_ | a, e'⟩ <;> rfl

/-- A result that is turned into another one leaves the same engine. -/
theorem EngineM.map_apply_snd (f : α → β) (m : EngineM σ St α) (e : Engine σ St) :
    ((f <$> m) e).2 = (m e).2 := by
  rw [EngineM.map_apply]

/-- An action on a connection and another one that depends on its result. -/
theorem ConnectionM.bind_apply {ε : Type} (m : ConnectionM σ ε α) (f : α → ConnectionM σ ε β)
    (s : σ) :
    (m >>= f) s = match m s with
      | (.ok a, s') => f a s'
      | (.error x, s') => (.error x, s') := by
  change ExceptT.bindCont f (m s).1 (m s).2 = _
  rcases m s with ⟨_ | a, s'⟩ <;> rfl

/-- An action on a statement and another one that depends on its result. -/
theorem StatementM.bind_apply {ε : Type} (m : StatementM σ St ε α) (f : α → StatementM σ St ε β)
    (st : St) (s : σ) :
    (m >>= f) st s = match m st s with
      | ((.ok a, st'), s') => f a st' s'
      | ((.error x, st'), s') => ((.error x, st'), s') := by
  change ExceptT.bindCont f (m st s).1.1 (m st s).1.2 (m st s).2 = _
  rcases m st s with ⟨⟨_ | a, st'⟩, s'⟩ <;> rfl

/-- Going on with the outcome of an action on a statement. -/
theorem StatementM.outcome_apply {ε δ : Type} (m : StatementM σ St ε α) (st : St) (s : σ) :
    (outcome m : StatementM σ St δ (Except ε α)) st s =
      ((.ok (m st s).1.1, (m st s).1.2), (m st s).2) := rfl

/-- An action on a connection leaves a statement alone. -/
theorem ConnectionM.onStatement_apply {ε : Type} (m : ConnectionM σ ε α) (st : St) (s : σ) :
    (m.onStatement : StatementM σ St ε α) st s = (((m s).1, st), (m s).2) := rfl

namespace Connection

variable (conn : Connection σ St)

/-- Undoing the changes because of a failure ends in that failure, or in one that tells of both. -/
theorem rollBackWith_apply (failure : Error) (s : σ) :
    conn.rollBackWith failure s = match conn.rollBack s with
      | (.ok (), s) => (failure, s)
      | (.error e, s) => (.rollBackFailed failure.text e, s) := by
  have hbind : ∀ {m : StateM σ (Except Error Unit)} {f : Except Error Unit → StateM σ Error},
      (m >>= f) s = f (m s).1 (m s).2 := rfl
  rw [rollBackWith, hbind, ExceptT.run]
  rcases conn.rollBack s with ⟨_ | _, s'⟩ <;> rfl

/-- Undoing the changes because of a failure is undoing the changes. -/
theorem rollBackWith_apply_snd (failure : Error) (s : σ) :
    (conn.rollBackWith failure s).2 = (conn.rollBack s).2 := by
  rw [rollBackWith_apply]
  rcases conn.rollBack s with ⟨_ | _, s'⟩ <;> rfl

/-- The transaction of a single statement: it is begun, the callback is carried out, and its verdict
decides between executing the statement and rolling back; what is executed is committed, and what is
refused is rolled back. -/
theorem transact_apply (callback : StatementM σ St Error Verdict) (st : St) (s : σ) :
    conn.transact callback st s =
      match conn.startTransaction s with
      | (.error x, s) => ((.error x, st), s)
      | (.ok (), s) =>
        match callback st s with
        | ((.ok .commit, st), s) =>
          match conn.execute st s with
          | ((.ok count, st), s) =>
            match conn.commit s with
            | (.ok (), s) => ((.ok (.ok count), st), s)
            | (.error x, s) => ((.error x, st), s)
          | ((.error info, st), s) =>
            match conn.rollBack s with
            | (.ok (), s) => ((.ok (.error info), st), s)
            | (.error x, s) => ((.error (.rollBackFailed info.text x), st), s)
        | ((.ok .abort, st), s) =>
          ((.error (conn.rollBackWith .transactionAborted s).1, st),
            (conn.rollBackWith .transactionAborted s).2)
        | ((.error x, st), s) =>
          ((.error (conn.rollBackWith (.transaction x) s).1, st),
            (conn.rollBackWith (.transaction x) s).2) := by
  rw [transact, StatementM.bind_apply, ConnectionM.onStatement_apply]
  -- The cases are those of the calls, in the order in which they are made.
  rcases conn.startTransaction s with ⟨_ | _, s⟩
  · rfl
  · dsimp only
    rw [StatementM.bind_apply, StatementM.outcome_apply]
    rcases callback st s with ⟨⟨x | _ | _, st⟩, s⟩
    · rfl
    · dsimp only [Verdict.failure?]
      rw [StatementM.bind_apply, StatementM.outcome_apply]
      rcases conn.execute st s with ⟨⟨info | count, st⟩, s⟩
      · dsimp only
        rw [StatementM.bind_apply, StatementM.outcome_apply, ConnectionM.onStatement_apply]
        rcases conn.rollBack s with ⟨_ | _, s⟩ <;> rfl
      · dsimp only
        rw [StatementM.bind_apply, ConnectionM.onStatement_apply]
        rcases conn.commit s with ⟨_ | _, s⟩ <;> rfl
    · rfl

/-- What becomes of the connection in the transaction of a single statement. -/
theorem transact_apply_snd (callback : StatementM σ St Error Verdict) (st : St) (s : σ) :
    (conn.transact callback st s).2 =
      match conn.startTransaction s with
      | (.error _, s) => s
      | (.ok (), s) =>
        match callback st s with
        | ((.ok .commit, st), s) =>
          match conn.execute st s with
          | ((.ok _, _), s) => (conn.commit s).2
          | ((.error _, _), s) => (conn.rollBack s).2
        | (_, s) => (conn.rollBack s).2 := by
  rw [transact_apply]
  rcases conn.startTransaction s with ⟨_ | _, s⟩
  · rfl
  · dsimp only
    rcases callback st s with ⟨⟨x | _ | _, st⟩, s⟩
    · exact conn.rollBackWith_apply_snd _ s
    · dsimp only
      rcases conn.execute st s with ⟨⟨info | count, st⟩, s⟩
      · dsimp only
        rcases conn.rollBack s with ⟨_ | _, s⟩ <;> rfl
      · dsimp only
        rcases conn.commit s with ⟨_ | _, s⟩ <;> rfl
    · exact conn.rollBackWith_apply_snd _ s

end Connection

/-! ### Notes beside the state of a connection -/

/-- An action on a statement that changes the notes beside the state of a connection only as `R`
allows. -/
def StatementM.Along {ε τ : Type} (R : τ → τ → Prop) (m : StatementM (σ × τ) St ε α) : Prop :=
  ∀ st s, R s.2 (m st s).2.2

section Along

variable {ε δ τ : Type} {R : τ → τ → Prop} {conn : Connection (σ × τ) St}

/-- An action and another one that depends on its result. -/
theorem StatementM.Along.bind {m : StatementM (σ × τ) St ε α} {f : α → StatementM (σ × τ) St ε β}
    (hm : m.Along R) (htrans : ∀ {a b c}, R a b → R b c → R a c) (hf : ∀ a, Along R (f a)) :
    Along R (m >>= f) := by
  intro st s
  have hfirst := hm st s
  rw [StatementM.bind_apply]
  rcases hrun : m st s with ⟨⟨_ | a, st'⟩, s'⟩
  · rwa [hrun] at hfirst
  · rw [hrun] at hfirst
    exact htrans hfirst (hf a st' s')

/-- Going on with an outcome. -/
theorem StatementM.Along.outcome {m : StatementM (σ × τ) St ε α} (h : Along R m) :
    Along R (BoundSql.outcome m : StatementM (σ × τ) St δ (Except ε α)) := h

/-- Binding values changes the notes as binding one value may. -/
theorem Connection.along_bindAll (hrefl : ∀ a, R a a) (htrans : ∀ {a b c}, R a b → R b c → R a c)
    (hbind : ∀ name bound, (conn.bind name bound).Along R) (binds : BindMap) :
    (conn.bindAll binds).Along R := by
  induction binds with
  | nil => exact fun _ s => hrefl s.2
  | cons pair binds ih => exact (hbind pair.1 pair.2).bind htrans fun _ => ih

/-- A callback changes the notes as binding a value and executing the statement may: the other steps
touch the statement alone. -/
theorem Callback.along_run (hrefl : ∀ a, R a a) (htrans : ∀ {a b c}, R a b → R b c → R a c)
    (hbind : ∀ name bound, (conn.bind name bound).Along R) (hexecute : conn.execute.Along R)
    (callback : Callback) : (callback.run conn).Along R := by
  induction callback with
  | done result => cases result <;> exact fun _ s => hrefl s.2
  | bind name bound next ih => exact (hbind name bound).outcome.bind htrans ih
  | execute next ih => exact hexecute.outcome.bind htrans ih
  | takeRows next ih => exact fun st s => ih _ _ s
  | rowCount next ih => exact fun st s => ih _ st s

end Along

namespace Engine

/-- The state of a connection after a statement was sent over it. -/
def sent (conn : Connection σ St) (carryOut : StatementM σ St Error (Except ErrorInfo Nat))
    (c : Compiled) (s : σ) : σ :=
  match conn.prepare c.sql s with
  | (.error _, s) => s
  | (.ok st, s) =>
    match conn.bindAll c.binds st s with
    | ((.error _, _), s) => s
    | ((.ok (), st), s) => (carryOut st s).2

variable {conn : Connection σ St} {carryOut : StatementM σ St Error (Except ErrorInfo Nat)}
  {c : Compiled}

/-- An action on the connection of an engine changes nothing else of it. -/
theorem onConnection_apply (action : StateM σ α) (e : Engine σ St) :
    onConnection action e =
      (.ok (action e.connection).1, { e with connection := (action e.connection).2 }) := rfl

/-- An action on the connection of an engine that can fail changes nothing else of it either. -/
theorem attempt_apply (action : ConnectionM σ Error α) (e : Engine σ St) :
    attempt action e =
      ((action e.connection).1, { e with connection := (action e.connection).2 }) := by
  rw [attempt, EngineM.bind_apply, onConnection_apply, ExceptT.run]
  rcases action e.connection with ⟨_ | a, s⟩ <;> rfl

/-- Compiling changes nothing but the compiler. -/
theorem compile_apply (s : Statement) (e : Engine σ St) :
    compile s e =
      ((e.compiler.compile s).1, { e with compiler := (e.compiler.compile s).2 }) := by
  rw [compile, EngineM.bind_apply, EngineM.get_apply]
  dsimp only
  rcases e.compiler.compile s with ⟨_ | compiled, compiler⟩ <;> rfl

/-- Using the statement that is kept, if there is one, changes nothing but the statement. -/
theorem withStatement_apply (use : St → α × St) (e : Engine σ St) :
    withStatement use e =
      match e.statement with
      | none => (.ok none, e)
      | some statement =>
        (.ok (some (use statement).1), { e with statement := some (use statement).2 }) := by
  rw [withStatement, EngineM.bind_apply, EngineM.get_apply]
  dsimp only
  cases e.statement <;> rfl

/-- Using the statement that is kept leaves the connection alone. -/
theorem connection_withStatement (use : St → α × St) (e : Engine σ St) :
    (withStatement use e).2.connection = e.connection := by
  rw [withStatement_apply]
  cases e.statement <;> rfl

/-- Executing once more the statement that is kept, if there is one. -/
theorem executeAgain_apply (e : Engine σ St) :
    executeAgain conn e =
      match e.statement with
      | none => (.ok none, e)
      | some statement =>
        match conn.execute statement e.connection with
        | ((result, statement), connection) =>
          (.ok (some result), { e with connection, statement := some statement }) := by
  rw [executeAgain, EngineM.bind_apply, EngineM.get_apply]
  dsimp only
  cases e.statement <;> rfl

/-- What becomes of the connection when the statement that is kept is executed once more. -/
theorem connection_executeAgain (e : Engine σ St) :
    (executeAgain conn e).2.connection =
      match e.statement with
      | none => e.connection
      | some statement => (conn.execute statement e.connection).2 := by
  rw [executeAgain_apply]
  cases e.statement <;> rfl

/-- Asking for a number of a sequence, which is not done in test mode. -/
theorem lastInsertId_apply (sequence : Option String) (e : Engine σ St) :
    lastInsertId conn sequence e =
      if e.config.testMode then (.ok none, e) else attempt (conn.lastInsertId sequence) e := by
  rw [lastInsertId, EngineM.bind_apply, EngineM.get_apply]
  dsimp only
  split <;> rfl

/-- Sending a statement: it is prepared, its values are bound, and it is carried out. What is
refused is kept as a report, what is carried out as a statement, and what goes wrong not at all. -/
theorem send_apply (e : Engine σ St) :
    send conn carryOut c e =
      match conn.prepare c.sql e.connection with
      | (.error info, s) =>
        (.ok false,
          { e with connection := s, error := some info.message, failure := some info })
      | (.ok st, s) =>
        match conn.bindAll c.binds st s with
        | ((.error x, _), s) => (.error x, { e with connection := s })
        | ((.ok (), st), s) =>
          match carryOut st s with
          | ((.error x, _), s) => (.error x, { e with connection := s })
          | ((.ok (.error info), _), s) =>
            (.ok false,
              { e with connection := s, error := some info.message, failure := some info })
          | ((.ok (.ok _), st), s) =>
            (.ok true, { e with connection := s, statement := some st }) := by
  have hprepare := onConnection_apply (conn.prepare c.sql).run e
  have hcarry : ∀ (st : St) (e : Engine σ St), _ := fun st e =>
    onConnection_apply ((conn.bindAll c.binds >>= fun _ => carryOut).run st) e
  rw [send, EngineM.bind_apply, hprepare, ExceptT.run]
  rcases conn.prepare c.sql e.connection with ⟨_ | st, s⟩
  · rfl
  · dsimp only
    rw [EngineM.bind_apply, hcarry, ExceptT.run, StatementM.bind_apply]
    rcases conn.bindAll c.binds st s with ⟨⟨_ | _, st'⟩, s'⟩
    · rfl
    · dsimp only
      rcases carryOut st' s' with ⟨⟨_ | _ | _, _⟩, _⟩ <;> rfl

/-- Sending a statement leaves the connection as it is after the statement was sent. -/
theorem connection_send (e : Engine σ St) :
    (send conn carryOut c e).2.connection = sent conn carryOut c e.connection := by
  rw [send_apply, sent]
  rcases conn.prepare c.sql e.connection with ⟨_ | st, s⟩
  · rfl
  · dsimp only
    rcases conn.bindAll c.binds st s with ⟨⟨_ | _, st'⟩, s'⟩
    · rfl
    · dsimp only
      rcases carryOut st' s' with ⟨⟨_ | _ | _, _⟩, _⟩ <;> rfl

/-- Sending a statement changes the connection and what is kept of the statement. -/
theorem send_frame (conn : Connection σ St)
    (carryOut : StatementM σ St Error (Except ErrorInfo Nat)) (c : Compiled) (e : Engine σ St) :
    ∃ connection statement error failure,
      (send conn carryOut c e).2 = { e with connection, statement, error, failure } := by
  rw [send_apply]
  rcases conn.prepare c.sql e.connection with ⟨info | st, s⟩
  · exact ⟨s, e.statement, some info.message, some info, rfl⟩
  · dsimp only
    rcases conn.bindAll c.binds st s with ⟨⟨_ | _, st'⟩, s'⟩
    · exact ⟨s', e.statement, e.error, e.failure, rfl⟩
    · dsimp only
      rcases carryOut st' s' with ⟨⟨_ | info | _, st''⟩, s''⟩
      · exact ⟨s'', e.statement, e.error, e.failure, rfl⟩
      · exact ⟨s'', e.statement, some info.message, some info, rfl⟩
      · exact ⟨s'', some st'', e.error, e.failure, rfl⟩

/-- Running a statement: it is shown or sent. -/
theorem run_apply (e : Engine σ St) :
    run conn carryOut c e =
      (if e.config.testMode then do
        set ({ e with
          statement := none, error := none, failure := none,
          queryString := some (e.literal c) } : Engine σ St)
        return false
      else
        match e.mode with
        | .session => do
          set ({ e with
            statement := none, error := none, failure := none,
            collected := e.collected ++ [e.literal c] } : Engine σ St)
          return false
        | .once => do
          set ({ e with
            statement := none, error := none, failure := none,
            queryString := some (e.literal c), mode := .off } : Engine σ St)
          return false
        | .off => do
          set ({ e with
            statement := none, error := none, failure := none,
            history := (if e.config.logging then e.history else []) ++ [c] } : Engine σ St)
          send conn carryOut c : EngineM σ St Bool)
        { e with statement := none, error := none, failure := none } := rfl

/-- A statement that is run is sent, or else it does not reach the connection. -/
theorem connection_run (e : Engine σ St) :
    (e.Sends ∧ (run conn carryOut c e).2.connection = sent conn carryOut c e.connection) ∨
      (¬e.Sends ∧ (run conn carryOut c e).2.connection = e.connection) := by
  rw [run_apply, Sends]
  -- Only outside test mode and with nothing to show a statement goes out.
  cases e.config.testMode with
  | true => exact .inr ⟨by simp, rfl⟩
  | false =>
    cases e.mode with
    | session => exact .inr ⟨by simp, rfl⟩
    | once => exact .inr ⟨by simp, rfl⟩
    | off =>
      refine .inl ⟨⟨rfl, rfl⟩, ?_⟩
      exact connection_send _

/-- An action: the transaction is begun, the body is carried out, and its result decides between a
commit and rolling back because of a failure. -/
theorem action_apply (body : EngineM σ St Verdict) (e : Engine σ St) :
    action conn body e =
      match conn.startTransaction e.connection with
      | (.error x, s) => (.error x, { e with connection := s })
      | (.ok (), s) =>
        match body { e with connection := s } with
        | (.ok .commit, e') =>
          ((conn.commit e'.connection).1, { e' with connection := (conn.commit e'.connection).2 })
        | (.ok .abort, e') =>
          (.error (conn.rollBackWith .transactionAborted e'.connection).1,
            { e' with connection := (conn.rollBackWith .transactionAborted e'.connection).2 })
        | (.error x, e') =>
          (.error (conn.rollBackWith (.transaction x) e'.connection).1,
            { e' with connection := (conn.rollBackWith (.transaction x) e'.connection).2 }) := by
  rw [action, EngineM.bind_apply, attempt_apply]
  rcases conn.startTransaction e.connection with ⟨_ | _, s⟩
  · rfl
  · dsimp only
    rw [EngineM.bind_apply, EngineM.outcome_apply]
    rcases body { e with connection := s } with ⟨x | _ | _, e'⟩
    · rfl
    · exact attempt_apply conn.commit e'
    · rfl

/-- What becomes of the connection in an action: the transaction is begun, the body is carried out,
and its verdict decides between a commit and rolling back. -/
theorem connection_action (body : EngineM σ St Verdict) (e : Engine σ St) :
    (action conn body e).2.connection =
      match conn.startTransaction e.connection with
      | (.error _, s) => s
      | (.ok (), s) =>
        match body { e with connection := s } with
        | (.ok .commit, e') => (conn.commit e'.connection).2
        | (_, e') => (conn.rollBack e'.connection).2 := by
  rw [action_apply]
  rcases conn.startTransaction e.connection with ⟨_ | _, s⟩
  · rfl
  · dsimp only
    -- A body that fails and one that asks to abort end alike.
    rcases body { e with connection := s } with ⟨x | _ | _, e'⟩
    · exact conn.rollBackWith_apply_snd _ e'.connection
    · rfl
    · exact conn.rollBackWith_apply_snd _ e'.connection

end Engine

end BoundSql
