import BoundSql.Join.Compile
import BoundSql.Projection.Compile
import BoundSql.Proofs.Building.Alike

/-!
# Joins and columns are steady

No value is written in a join or among the columns of a query, and no name is made there. So what is
built does not depend on the draft, and it can only fail because of a name that is refused.

* `Joins.steady` and `Projection.steady`: joins and columns, however deeply they are nested.
-/

namespace BoundSql

open Build (Steady)
open Sql (Token Tokens)

variable {base joined : Tokens}

/-- A column under a table is steady. -/
theorem JoinCondition.steady_qualified (named : Bool) (table : Tokens) (column : String) :
    Steady (qualified named table column) := by
  rw [qualified]
  split
  · exact Build.steady_column column
  · exact .bind_steady (Build.steady_plainColumn column) fun _ => Build.steady_pure _

mutual

/-- A condition between two tables is steady. -/
theorem JoinCondition.steady : ∀ c : JoinCondition, Steady (c.compile base joined)
  | .pair localColumn foreignColumn => by
    rw [JoinCondition.compile]
    refine .bind_steady (steady_qualified _ base localColumn) fun _ => ?_
    exact .bind_steady (steady_qualified _ joined foreignColumn) fun _ => Build.steady_pure _
  | .columns left op right => by
    rw [JoinCondition.compile]
    refine .bind_steady (Build.steady_column left) fun _ => ?_
    exact .bind_steady (Build.steady_column right) fun _ => Build.steady_pure _
  | .group connective conditions => by
    rw [JoinCondition.compile]
    exact .bind_steady (JoinCondition.steadyAll connective conditions) fun _ => Build.steady_pure _

/-- Sibling conditions between two tables are steady. -/
theorem JoinCondition.steadyAll (connective : Sql.Connective) :
    ∀ cs : List JoinCondition, Steady (JoinCondition.compileAll base joined connective cs)
  | [] => by
    rw [JoinCondition.compileAll]
    exact Build.steady_pure []
  | [c] => by
    rw [JoinCondition.compileAll]
    exact c.steady
  | c :: next :: rest => by
    simp only [JoinCondition.compileAll]
    refine .bind_steady c.steady fun _ => ?_
    exact .bind_steady (JoinCondition.steadyAll connective (next :: rest)) fun _ =>
      Build.steady_pure _

end

/-- What relates a joined table to the tables before it is steady. -/
theorem Relation.steady (r : Relation) : Steady (r.compile base joined) := by
  cases r with
  | shared columns =>
    refine .bind_steady (Build.steady_mapM fun column _ => Build.steady_plainColumn column) ?_
    exact fun _ => Build.steady_pure _
  | on conditions =>
    exact .bind_steady (JoinCondition.steadyAll .and conditions) fun _ => Build.steady_pure _

/-- A joined table is steady. -/
theorem JoinTarget.steady (target : JoinTarget) (relation : Relation) :
    Steady (target.compile base relation) := by
  obtain ⟨kind, table, aliasName⟩ := target
  refine .bind_steady (Build.steady_table _) fun joined => ?_
  refine .bind_steady relation.steady fun related => ?_
  refine .bind_steady (Build.steady_table table) fun quoted => ?_
  cases aliasName with
  | none => exact .bind_steady (Build.steady_pure []) fun _ => Build.steady_pure _
  | some aliasName =>
    refine .bind_steady (Build.steady_table aliasName) fun _ => ?_
    exact .bind_steady (Build.steady_pure _) fun _ => Build.steady_pure _

/-- The joined tables are steady, one after the other. -/
theorem Joins.steadyEach (joins : Joins) : Steady (Joins.compileEach base joins) := by
  induction joins with
  | nil => exact Build.steady_pure []
  | cons join joins ih =>
    obtain ⟨key, relation⟩ := join
    rw [Joins.compileEach]
    -- A key that names no join is passed over.
    split
    · exact ih
    · next target _ =>
      refine .bind_steady (target.steady relation) fun _ => ?_
      exact .bind_steady ih fun _ => Build.steady_pure _

/-- Joins are steady. -/
theorem Joins.steady (joins : Joins) : Steady (joins.compile base) :=
  .bind_steady (Joins.steadyEach joins) fun _ => Build.steady_pure _

/-- A written column is rejected as a name, or for a type that is not known. -/
theorem ColumnName.rejected_of_ofText {text : String} {e : Error}
    (h : ColumnName.ofText text = .error e) :
    e.RejectsName ∨ ∃ hint, e = .invalidArgument ("Unknown column type hint: " ++ hint) := by
  have hinvalid : (Except.error (.incorrectColumn text) : Except Error ColumnName) = .error e →
      e.RejectsName := fun heq => ⟨_, (Except.error.inj heq).symm⟩
  simp only [ofText] at h
  split at h
  · exact .inl (hinvalid h)
  split at h
  · exact .inl (hinvalid h)
  split at h
  · -- A bracket begins a type.
    split at h
    · exact .inl (hinvalid h)
    split at h
    · exact .inr ⟨_, (Except.error.inj h).symm⟩
    split at h
    · cases h
    · exact .inl (hinvalid h)
  · split at h
    · cases h
    · exact .inl (hinvalid h)

/-- A written column is refused in compiling. -/
theorem ColumnName.isCompileError_of_ofText {text : String} {e : Error}
    (h : ColumnName.ofText text = .error e) : e.isCompileError := by
  obtain hname | ⟨hint, rfl⟩ := rejected_of_ofText h
  · exact hname.isCompileError
  · rfl

/-- A written column is steady. -/
theorem ColumnName.steady_ofText (text : String) :
    Steady (Build.ofExcept (ColumnName.ofText text)) :=
  Build.steady_ofExcept fun _ => ColumnName.isCompileError_of_ofText

/-- A name with an alias is steady. -/
theorem steady_withAlias (column : Tokens) (aliasName : Option String) :
    Steady (withAlias column aliasName) := by
  cases aliasName with
  | none => exact Build.steady_pure column
  | some aliasName =>
    exact .bind_steady (Build.steady_column aliasName) fun _ => Build.steady_pure _

/-- A column by name is steady. -/
theorem Column.steady_name (inJoin : Bool) (name : String) :
    Steady (Column.compileName inJoin name) := by
  simp only [Column.compileName]
  split
  · exact .throw rfl
  split
  · exact Build.steady_pure _
  split
  · exact .bind_steady (Build.steady_table _) fun _ => Build.steady_pure _
  · refine .bind_steady (ColumnName.steady_ofText _) fun parsed => ?_
    exact .bind_steady (Build.steady_column _) fun column => steady_withAlias column _

mutual

/-- A column is steady. -/
theorem Column.steady (inJoin : Bool) : ∀ c : Column, Steady (c.compile inJoin)
  | .name written => by
    rw [Column.compile]
    exact Column.steady_name inJoin written
  | .expression aliasName fragment => by
    rw [Column.compile]
    refine .bind_steady (ColumnName.steady_ofText aliasName) fun parsed => ?_
    exact .bind_steady (Build.steady_expand fragment) fun tokens => steady_withAlias tokens _
  | .group _ columns => by
    rw [Column.compile]
    exact .bind_steady (Column.steadyEach inJoin columns) fun _ => Build.steady_pure _

/-- Columns are steady, one after the other. -/
theorem Column.steadyEach (inJoin : Bool) :
    ∀ cs : List Column, Steady (Column.compileEach inJoin cs)
  | [] => by
    rw [Column.compileEach]
    exact Build.steady_pure []
  | c :: rest => by
    rw [Column.compileEach]
    refine .bind_steady (c.steady inJoin) fun _ => ?_
    exact .bind_steady (Column.steadyEach inJoin rest) fun _ => Build.steady_pure _

end

/-- A projection is steady. -/
theorem Projection.steady (inJoin : Bool) (p : Projection) : Steady (p.compile inJoin) := by
  cases p with
  | all => exact Build.steady_pure _
  | columns items =>
    rw [Projection.compile]
    unfold Column.compileList
    -- The key of a group that stands alone is one more column.
    split
    · next key inner =>
      refine .bind_steady (Build.steady_column key) fun _ => ?_
      refine .bind_steady (Column.steady inJoin (.group none inner)) fun _ => ?_
      exact .bind_steady (Build.steady_pure _) fun _ => Build.steady_pure _
    · exact .bind_steady (Column.steadyEach inJoin items) fun _ => Build.steady_pure _

end BoundSql
