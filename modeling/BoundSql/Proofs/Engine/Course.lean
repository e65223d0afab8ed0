import BoundSql.Proofs.Engine.Steps

/-!
# The course of a program

What happens in the steps of a program while it is carried out: how each of them ends, and what the
engine is like after it. A step is an operation or a transaction inside, and the steps inside of
such a transaction count as well.

* `Program.Meets`: whether the program comes to a step after which something holds;
* `Program.Only`: whether all operations of a program are of one kind;
* `Program.selectAs`: a query whose rows are turned into something else, as a step of a program.
-/

namespace BoundSql

variable {σ St α : Type}

/-- The failure in which something ended. -/
def failureOf {ε : Type} : Except ε α → Option ε
  | .ok _ => none
  | .error e => some e

/-- What did not succeed has ended in a failure. -/
theorem isSome_failureOf {ε : Type} (result : Except ε α) :
    (failureOf result).isSome = !result.isOk := by
  cases result <;> rfl

/-- What a query whose rows are turned into something else gives, after the query has ended. -/
def Answer.rowsAs (ofRow : Row → Except Error α) :
    Except Error Answer → Except Error (Option (List α))
  | .ok (.rows (some found)) => (found.mapM ofRow).map some
  | .ok _ => .ok none
  | .error e => .error e

/-- A query whose rows are turned into something else does what the query does, and turns the
answer. -/
theorem Engine.selectAs_apply (conn : Connection σ St) (ofRow : Row → Except Error α) (q : Query)
    (e : Engine σ St) :
    selectAs conn ofRow q e =
      (Answer.rowsAs ofRow ((Operation.select q).run conn e).1,
        ((Operation.select q).run conn e).2) := by
  rw [selectAs, EngineM.bind_apply, Operation.run, map_eq_pure_bind, EngineM.bind_apply]
  -- The rows are there only if the query was run.
  rcases select conn q e with ⟨x | _ | rows, e'⟩
  · rfl
  · rfl
  · change _ = ((rows.mapM ofRow).map some, e')
    dsimp only
    cases rows.mapM ofRow <;> rfl

namespace Program

/-- Whether the program comes to a step after which `P` holds of the failure in which the step ended
and of the engine that it left. -/
def Meets (conn : Connection σ St) (P : Option Error → Engine σ St → Prop) :
    Program St → Engine σ St → Prop
  | done _, _ => False
  | perform operation next, e =>
    let after := operation.run conn e
    P (failureOf after.1) after.2 ∨ (next after.1 after.2.shown).Meets conn P after.2
  | nested body next, e =>
    let after := Engine.action conn (body.run conn) e
    conn.Begins (fun s => body.Meets conn P { e with connection := s }) e.connection ∨
      P (failureOf after.1) after.2 ∨ (next after.1 after.2.shown).Meets conn P after.2

/-- Whether all operations of a program, also those in transactions inside, are of the kind `p`. -/
inductive Only (p : Operation → Prop) : Program St → Prop where
  /-- The end is no operation. -/
  | done (result : Except Error Verdict) : Only p (done result)
  /-- The operation is of the kind, and so are those that may follow. -/
  | perform {operation : Operation} {next : Except Error Answer → Engine Unit St → Program St}
      (first : p operation) (others : ∀ result e, Only p (next result e)) :
      Only p (perform operation next)
  /-- The operations of the body are of the kind, and so are those that may follow. -/
  | nested {body : Program St} {next : Except Error Unit → Engine Unit St → Program St}
      (inside : Only p body) (others : ∀ result e, Only p (next result e)) :
      Only p (nested body next)

/-- Run a query, turn each of its rows into what is wanted, and go on. -/
def selectAs (ofRow : Row → Except Error α) (q : Query)
    (next : Except Error (Option (List α)) → Engine Unit St → Program St) : Program St :=
  perform (.select q) fun result e => next (Answer.rowsAs ofRow result) e

/-- A query whose rows are turned into something else is a query, and nothing else is asked of the
connection or changed in the engine. -/
theorem run_selectAs (conn : Connection σ St) (ofRow : Row → Except Error α) (q : Query)
    (next : Except Error (Option (List α)) → Engine Unit St → Program St) (e : Engine σ St) :
    (selectAs ofRow q next).run conn e =
      (next (Engine.selectAs conn ofRow q e).1 (Engine.selectAs conn ofRow q e).2.shown).run conn
        (Engine.selectAs conn ofRow q e).2 := by
  rw [Engine.selectAs_apply, selectAs, run_perform]

end Program

end BoundSql
