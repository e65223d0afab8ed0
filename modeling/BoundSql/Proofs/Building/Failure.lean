import BoundSql.Proofs.Building.Alike

/-!
# What parts fail with

The kinds of failures that a part of a statement can come to. A kind is kept when parts are built
one after the other, so that a builder fails only with what the operations in it fail with. Names
and fragments are rejected for a malformed name.

* `Build.FailsWith`: a part that only fails with failures of one kind.
-/

namespace BoundSql.Build

variable {α β : Type} {P : Error → Prop} {q : Sql.Quoter} {d : Draft} {e : Error}

/-- Nothing follows a part that fails. -/
theorem exec_bind_error {part : Build α} (h : (part.exec q d).1 = .error e) (next : α → Build β) :
    ((part >>= next).exec q d).1 = .error e := by
  rw [exec_bind]
  rcases hpart : part.exec q d with ⟨x | a, d₁⟩ <;> rw [hpart] at h
  · exact congrArg Except.error (Except.error.inj h)
  · cases h

/-- Parts that come to the same go on alike. -/
theorem exec_bind_congr {part other : Build α} (h : part.exec q d = other.exec q d)
    (next : α → Build β) : (part >>= next).exec q d = (other >>= next).exec q d := by
  rw [exec_bind, exec_bind, h]

/-- A part that succeeds hands its result and its draft to what follows. -/
theorem exec_bind_of_ok {part : Build α} {a : α} {d₁ : Draft} (h : part.exec q d = (.ok a, d₁))
    (next : α → Build β) : (part >>= next).exec q d = (next a).exec q d₁ := by
  rw [exec_bind, h]

/-- A part that only fails with failures of one kind. -/
def FailsWith (P : Error → Prop) (part : Build α) : Prop :=
  ∀ q d e, (part.exec q d).1 = .error e → P e

namespace FailsWith

/-- What is returned is no failure. -/
theorem pure (a : α) : FailsWith P (pure a) := fun _ _ _ h => nomatch h

/-- A failure of the kind. -/
theorem throw {e : Error} (h : P e) : FailsWith P (throw e : Build α) :=
  fun _ _ _ heq => Except.error.inj heq ▸ h

/-- Parts fail as the first one or as those behind it. -/
theorem bind {part : Build α} {next : α → Build β} (h : FailsWith P part)
    (hnext : ∀ a, FailsWith P (next a)) : FailsWith P (part >>= next) := by
  intro q d e he
  have hfirst := h q d
  rw [exec_bind] at he
  rcases hpart : part.exec q d with ⟨x | a, d₁⟩ <;> rw [hpart] at hfirst he
  · obtain rfl := Except.error.inj he
    exact hfirst x rfl
  · exact hnext a q d₁ e he

/-- A kind that has all failures of another one. -/
theorem mono {P' : Error → Prop} {part : Build α} (h : FailsWith P part)
    (hP : ∀ e, P e → P' e) : FailsWith P' part := fun q d e he => hP e (h q d e he)

/-- A result that is given. -/
theorem ofExcept {r : Except Error α} (h : ∀ e, r = .error e → P e) :
    FailsWith P (ofExcept r) := by
  cases r with
  | ok a => exact .pure a
  | error e => exact .throw (h e rfl)

/-- A name is rejected as a name. -/
theorem quote {quote : Sql.Quoter → Except Error α}
    (h : ∀ q e, quote q = .error e → e.RejectsName) :
    FailsWith Error.RejectsName (do Build.ofExcept (quote (← read))) :=
  .bind (fun _ _ _ h => nomatch h) fun q => .ofExcept (h q)

/-- A table name is rejected as a name. -/
theorem table (name : String) : FailsWith Error.RejectsName (table name) :=
  .quote fun _ _ => Sql.Quoter.rejectsName_of_table

/-- A column name is rejected as a name. -/
theorem column (name : String) : FailsWith Error.RejectsName (column name) :=
  .quote fun _ _ => Sql.Quoter.rejectsName_of_column

/-- A fragment is rejected for a name. -/
theorem expand (f : Fragment) : FailsWith Error.RejectsName (expand f) := by
  refine .bind (fun _ _ _ h => nomatch h) fun q => ?_
  refine .bind (.ofExcept fun _ => Fragment.rejectsName_of_expandPieces) fun tokens => ?_
  exact .bind (fun _ _ _ h => nomatch h) fun _ => .pure tokens

end FailsWith

end BoundSql.Build
