import BoundSql.Proofs.Building.Failure
import BoundSql.Proofs.Projection.Flattening
import BoundSql.Proofs.Statement.Steady

/-!
# Wildcards in queries with joins

In a query with joins no column may be a wildcard. That is all that a projection makes of the joins:
it is refused as soon as a wildcard is reached, and compiles as in a query without joins if none is.
Without joins there is no such refusal.

* `Projection.MeetsWildcard`: the projections in which a wildcard is reached;
* `Projection.exec_compile_of_meets` and `Projection.exec_compile_of_not_meets`: what they compile to
  in a query with joins;
* `Projection.sparesWildcard`: without joins a projection never fails for a wildcard.
-/

namespace BoundSql

open Build (FailsWith Steady)
open Sql (Quoter Token Tokens)

/-- The failure of a wildcard in a query with joins. -/
def Error.wildcardInJoin : Error :=
  .invalidArgument "Cannot use table.* to select all columns while joining table"

/-- No name is rejected in this way. -/
theorem Error.RejectsName.ne_wildcardInJoin {e : Error} (h : e.RejectsName) :
    e ≠ .wildcardInJoin := by
  obtain ⟨message, rfl⟩ := h
  exact Error.noConfusion

namespace Column

variable {q : Quoter}

/-- Whether a wildcard is reached among columns: a name with an asterisk, behind columns that all
compile. -/
def MeetsWildcard (q : Quoter) (cs : List Column) : Prop :=
  ∃ before name after, cs = before ++ .name name :: after ∧ '*' ∈ name.toList ∧
    ∀ c ∈ before, (c.compile true).Succeeds q {}

/-- A wildcard is refused in a query with joins. -/
theorem compile_of_wildcard {name : String} (h : '*' ∈ name.toList) :
    compile true (.name name) = throw .wildcardInJoin := by
  rw [compile, compileName, if_pos (by simpa using h)]
  rfl

/-- Other columns compile as in a query without joins. -/
theorem compile_eq_of_isLeaf {c : Column} (hleaf : c.IsLeaf)
    (h : ∀ name, c = .name name → '*' ∉ name.toList) : c.compile true = c.compile false := by
  cases c with
  | name written =>
    have hplain : '*' ∉ written.toList := h written rfl
    simp only [compile, compileName, hplain, decide_false, Bool.and_false]
  | expression aliasName fragment => simp only [compile]
  | group key columns => exact absurd hleaf (by simp [IsLeaf])

/-- Columns among which a wildcard is reached are refused in a query with joins. -/
theorem exec_compileEach_of_meets {cs : List Column} (h : MeetsWildcard q cs) (d : Draft) :
    ((compileEach true cs).exec q d).1 = .error .wildcardInJoin := by
  obtain ⟨before, name, after, rfl, hname, hbefore⟩ := h
  induction before generalizing d with
  | nil =>
    rw [List.nil_append, compileEach, compile_of_wildcard hname]
    exact Build.exec_bind_error rfl _
  | cons c before ih =>
    obtain ⟨hc, hrest⟩ := List.forall_mem_cons.1 hbefore
    obtain ⟨ts, d₁, hts⟩ := ((Column.steady true c).succeeds_iff q {} d).1 hc
    rw [List.cons_append, compileEach, Build.exec_bind_of_ok hts]
    exact Build.exec_bind_error (ih d₁ hrest) _

/-- Columns among which no wildcard is reached compile as in a query without joins. -/
theorem exec_compileEach_of_not_meets {cs : List Column} (hleaves : ∀ c ∈ cs, c.IsLeaf)
    (h : ¬MeetsWildcard q cs) (d : Draft) :
    (compileEach true cs).exec q d = (compileEach false cs).exec q d := by
  induction cs generalizing d with
  | nil => rfl
  | cons c cs ih =>
    obtain ⟨hleaf, hrest⟩ := List.forall_mem_cons.1 hleaves
    have hsame : c.compile true = c.compile false := by
      refine compile_eq_of_isLeaf hleaf fun name hc hname => h ⟨[], name, cs, ?_, hname, by simp⟩
      rw [hc, List.nil_append]
    rw [compileEach, compileEach, hsame, Build.exec_bind, Build.exec_bind]
    rcases hc : (c.compile false).exec q d with ⟨e | ts, d₁⟩
    case error =>
      -- Behind a column that fails nothing is reached.
      rfl
    case ok =>
      have hsucceeds : (c.compile true).Succeeds q {} := by
        rw [(Column.steady true c).succeeds_iff q {} d, hsame]
        exact ⟨ts, d₁, hc⟩
      have hunmet : ¬MeetsWildcard q cs := by
        rintro ⟨before, name, after, rfl, hname, hbefore⟩
        exact h ⟨c :: before, name, after, rfl, hname, List.forall_mem_cons.2 ⟨hsucceeds, hbefore⟩⟩
      exact Build.exec_bind_congr (ih hrest hunmet d₁) _

/-- Columns with commas between them are refused in a query with joins if a wildcard is reached. -/
theorem exec_compileJoined_of_meets {cs : List Column} (h : MeetsWildcard q cs) (d : Draft) :
    ((compileJoined true cs).exec q d).1 = .error .wildcardInJoin :=
  Build.exec_bind_error (exec_compileEach_of_meets h d) _

/-- Columns with commas between them compile as in a query without joins if no wildcard is
reached. -/
theorem exec_compileJoined_of_not_meets {cs : List Column} (hleaves : ∀ c ∈ cs, c.IsLeaf)
    (h : ¬MeetsWildcard q cs) (d : Draft) :
    (compileJoined true cs).exec q d = (compileJoined false cs).exec q d :=
  Build.exec_bind_congr (exec_compileEach_of_not_meets hleaves h d) _

end Column

namespace Projection

variable {q : Quoter}

/-- Whether a wildcard is reached in a projection. The key of a group that stands alone is read
before its columns. -/
def MeetsWildcard (q : Quoter) : Projection → Prop
  | .all => False
  | .columns [.group (some key) inner] =>
    (q.column key).isOk ∧ Column.MeetsWildcard q (Column.allLeaves inner)
  | .columns items => Column.MeetsWildcard q (Column.allLeaves items)

/-- A projection in which a wildcard is reached is refused in a query with joins. -/
theorem exec_compile_of_meets {p : Projection} (h : p.MeetsWildcard q) (d : Draft) :
    ((p.compile true).exec q d).1 = .error .wildcardInJoin := by
  unfold MeetsWildcard at h
  split at h
  · exact h.elim
  · next key inner =>
    obtain ⟨hkey, hinner⟩ := h
    obtain ⟨ts, d₁, hts⟩ := (Build.succeeds_column key d).2 hkey
    rw [compile, Column.compileList_keyed, Build.exec_bind_of_ok hts]
    exact Build.exec_bind_error (Column.exec_compileJoined_of_meets hinner d₁) _
  · next items hkeyed =>
    rw [compile, Column.compileList_eq true fun key inner heq => hkeyed key inner heq]
    exact Column.exec_compileJoined_of_meets h d

/-- A projection in which no wildcard is reached compiles as in a query without joins. -/
theorem exec_compile_of_not_meets {p : Projection} (h : ¬p.MeetsWildcard q) (d : Draft) :
    (p.compile true).exec q d = (p.compile false).exec q d := by
  unfold MeetsWildcard at h
  split at h
  · rfl
  · next key inner =>
    rw [compile, compile, Column.compileList_keyed, Column.compileList_keyed, Build.exec_bind,
      Build.exec_bind]
    rcases hkey : (Build.column key).exec q d with ⟨e | ts, d₁⟩
    case error =>
      -- Behind a key that is rejected nothing is reached.
      rfl
    case ok =>
      have hok : (q.column key).isOk := (Build.succeeds_column key d).1 ⟨ts, d₁, hkey⟩
      refine Build.exec_bind_congr ?_ _
      exact Column.exec_compileJoined_of_not_meets (Column.isLeaf_of_mem_allLeaves inner)
        (fun hinner => h ⟨hok, hinner⟩) d₁
  · next items hkeyed =>
    rw [compile, compile, Column.compileList_eq true fun key inner heq => hkeyed key inner heq,
      Column.compileList_eq false fun key inner heq => hkeyed key inner heq]
    exact Column.exec_compileJoined_of_not_meets (Column.isLeaf_of_mem_allLeaves items) h d

end Projection

/-! ### Wildcards in queries without joins -/

/-- The failures that are not that of a wildcard in a query with joins. -/
abbrev Error.SparesWildcard (e : Error) : Prop := e ≠ .wildcardInJoin

/-- What fails for a name does not fail for a wildcard. -/
theorem Build.FailsWith.sparesWildcard {α : Type} {part : Build α}
    (h : FailsWith Error.RejectsName part) : FailsWith Error.SparesWildcard part :=
  h.mono fun _ he => he.ne_wildcardInJoin

/-- A written column does not fail for a wildcard. -/
theorem ColumnName.sparesWildcard_ofText (text : String) :
    FailsWith Error.SparesWildcard (Build.ofExcept (ColumnName.ofText text)) := by
  refine .ofExcept fun e he => ?_
  obtain hname | ⟨hint, rfl⟩ := ColumnName.rejected_of_ofText he
  · exact hname.ne_wildcardInJoin
  · -- The two messages begin with different letters.
    intro heq
    have hhead := congrArg (fun s : String => s.toList.head?) (Error.invalidArgument.inj heq)
    simp at hhead

/-- An alias does not fail for a wildcard. -/
theorem sparesWildcard_withAlias (column : Tokens) (aliasName : Option String) :
    FailsWith Error.SparesWildcard (withAlias column aliasName) := by
  cases aliasName with
  | none => exact .pure column
  | some aliasName =>
    exact .bind (FailsWith.column aliasName).sparesWildcard fun quoted => .pure _

namespace Column

/-- Without joins, a column by name does not fail for a wildcard. -/
theorem sparesWildcard_name (name : String) :
    FailsWith Error.SparesWildcard (compileName false name) := by
  simp only [compileName, Bool.false_and, Bool.false_eq_true, if_false]
  split
  · exact .pure _
  split
  · exact .bind (FailsWith.table _).sparesWildcard fun table => .pure _
  · refine .bind (ColumnName.sparesWildcard_ofText _) fun parsed => ?_
    exact .bind (FailsWith.column _).sparesWildcard fun column => sparesWildcard_withAlias column _

mutual

/-- Without joins, a column does not fail for a wildcard. -/
theorem sparesWildcard : ∀ c : Column, FailsWith Error.SparesWildcard (c.compile false)
  | .name written => by
    rw [compile]
    exact sparesWildcard_name written
  | .expression aliasName fragment => by
    rw [compile]
    refine .bind (ColumnName.sparesWildcard_ofText aliasName) fun parsed => ?_
    exact .bind (FailsWith.expand fragment).sparesWildcard fun ts => sparesWildcard_withAlias ts _
  | .group key columns => by
    rw [compile]
    exact .bind (eachSparesWildcard columns) fun parts => .pure _

/-- Without joins, no column of a list fails for a wildcard. -/
theorem eachSparesWildcard : ∀ cs : List Column,
    FailsWith Error.SparesWildcard (compileEach false cs)
  | [] => by
    rw [compileEach]
    exact .pure []
  | c :: rest => by
    rw [compileEach]
    refine .bind (sparesWildcard c) fun first => ?_
    exact .bind (eachSparesWildcard rest) fun others => .pure _

end

end Column

/-- Without joins, a projection does not fail for a wildcard. -/
theorem Projection.sparesWildcard (p : Projection) :
    FailsWith Error.SparesWildcard (p.compile false) := by
  cases p with
  | all => exact .pure _
  | columns items =>
    rw [compile]
    unfold Column.compileList
    -- The key of a group that stands alone is one more column.
    split
    · next key inner =>
      refine .bind (FailsWith.column key).sparesWildcard fun key => ?_
      refine .bind (Column.sparesWildcard (.group none inner)) fun inner => ?_
      exact .bind (.pure _) fun parts => .pure _
    · exact .bind (Column.eachSparesWildcard items) fun parts => .pure _

end BoundSql
