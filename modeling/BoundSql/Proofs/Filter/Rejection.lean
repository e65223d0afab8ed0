import BoundSql.Filter.Compile
import BoundSql.Proofs.Building.Checking

/-!
# Rejected filters

Whether a filter compiles is told by its columns alone, taken in the order of its conditions, of its
grouping, of its conditions on groups and of its ordering, however deeply they are nested. A filter is
rejected for the first malformed one among them. Values are never rejected, and a limit that is no
number is dropped.

* `Filter.columnsRead`: the columns of a filter, those of empty lists included;
* `Filter.error_iff`: the filters that are rejected, and what for.
-/

namespace BoundSql

open Build (Checks)

mutual

/-- The columns of a condition from left to right. That of an empty list of alternatives, of which
nothing is written, is one of them. -/
def Condition.columnsRead : Condition → List String
  | .equals column _ => [column]
  | .among column _ => [column]
  | .compares column _ _ => [column]
  | .columns left _ right => [left, right]
  | .group _ _ conditions => Condition.allColumnsRead conditions

/-- The columns of conditions, one condition after the other. -/
def Condition.allColumnsRead : List Condition → List String
  | [] => []
  | condition :: rest => condition.columnsRead ++ Condition.allColumnsRead rest

end

/-- The columns of a filter: those of its conditions, of its grouping, of its conditions on groups
and of its ordering. -/
def Filter.columnsRead (f : Filter) : List String :=
  Condition.allColumnsRead f.conditions ++ (f.grouping ++
    (Condition.allColumnsRead f.having ++ f.order.map OrderItem.column))

mutual

/-- A condition checks its columns. -/
theorem Condition.checks : ∀ c : Condition, Checks c.columnsRead c.compile
  | .group connective label conditions => by
    rw [Condition.compile, Condition.columnsRead]
    exact (Condition.checksAll connective conditions).bind_unchecked fun inner => .pure _
  | .columns left op right => by
    rw [Condition.compile, Condition.columnsRead]
    exact (Checks.column left).bind fun left =>
      (Checks.column right).bind_unchecked fun right => .pure _
  | .equals column value => by
    rw [Condition.compile, Condition.columnsRead]
    refine (Checks.column column).bind_unchecked fun column => ?_
    split
    · exact .pure _
    · exact (Checks.pushValue value).bind_unchecked fun parameter => .pure _
  | .compares column op value => by
    rw [Condition.compile, Condition.columnsRead]
    exact (Checks.column column).bind_unchecked fun column =>
      (Checks.pushValue value).bind_unchecked fun parameter => .pure _
  | .among column values => by
    rw [Condition.compile, Condition.columnsRead]
    refine (Checks.column column).bind_unchecked fun column => ?_
    -- The column has been checked, whether there are values or not.
    split
    · exact .pure _
    · exact (Checks.pushValues values).bind_unchecked fun parameters => .pure _

/-- Sibling conditions check their columns, one condition after the other. -/
theorem Condition.checksAll (connective : Sql.Connective) : ∀ cs : List Condition,
    Checks (Condition.allColumnsRead cs) (Condition.compileAll connective cs)
  | [] => by
    rw [Condition.compileAll, Condition.allColumnsRead]
    exact .pure []
  | [c] => by
    rw [Condition.compileAll, Condition.allColumnsRead, Condition.allColumnsRead, List.append_nil]
    exact c.checks
  | c :: next :: rest => by
    rw [Condition.compileAll.eq_3 connective c (next :: rest) (by simp), Condition.allColumnsRead]
    exact c.checks.bind fun first =>
      (Condition.checksAll connective (next :: rest)).bind_unchecked fun others => .pure _

end

/-- A clause checks the columns of its items; without items there is no clause. -/
theorem checks_clause {α : Type} {head : Sql.Word} {items : List α} {columns : List String}
    {body : List α → Build Sql.Tokens} (hempty : items = [] → columns = [])
    (h : Checks columns (body items)) : Checks columns (clause head items body) := by
  rw [clause]
  split
  · next hitems =>
    rw [hempty (List.isEmpty_iff.1 hitems)]
    exact .pure []
  · exact h.bind_unchecked fun tokens => .pure _

/-- A clause of conditions checks the columns of the conditions. -/
theorem checks_conditionClause (head : Sql.Word) (cs : List Condition) :
    Checks (Condition.allColumnsRead cs) (clause head cs (Condition.compileAll .and)) := by
  refine checks_clause ?_ (Condition.checksAll .and cs)
  rintro rfl
  rfl

/-- A clause with a list of columns checks each of them. -/
theorem checks_columnClause {α : Type} {head : Sql.Word} {items : List α}
    {f : α → Build Sql.Tokens} {column : α → String} (h : ∀ a, Checks [column a] (f a)) :
    Checks (items.map column)
      (clause head items fun items => do return Sql.joinWith .comma (← items.mapM f)) := by
  refine checks_clause ?_ ?_
  · rintro rfl
    rfl
  · rw [List.map_eq_flatMap]
    exact (Checks.mapM fun a _ => h a).bind_unchecked fun parts => .pure _

/-- A column to order by is checked; its direction is not. -/
theorem OrderItem.checks (item : OrderItem) : Checks [item.column] item.compile := by
  refine (Checks.column item.column).bind_unchecked fun column => ?_
  split
  · exact .pure _
  · exact .pure column

namespace Filter

/-- A filter checks its columns. -/
theorem checks (f : Filter) : Checks f.columnsRead f.compile := by
  have hgrouping : Checks f.grouping (clause .groupBy f.grouping fun columns => do
      return Sql.joinWith .comma (← columns.mapM Build.column)) := by
    have hid : ∀ name, Checks [id name] (Build.column name) := fun name => Checks.column name
    simpa using checks_columnClause hid
  rw [compile, columnsRead]
  refine (checks_conditionClause .conditions f.conditions).bind fun conditions => ?_
  refine hgrouping.bind fun grouping => ?_
  refine (checks_conditionClause .having f.having).bind fun having => ?_
  exact (checks_columnClause OrderItem.checks).bind_unchecked fun order => .pure _

/-- A filter only fails for a name. -/
theorem failsWith (f : Filter) : Build.FailsWith Error.RejectsName f.compile := f.checks.failsWith

variable (f : Filter) (q : Sql.Quoter) (d : Draft)

/-- A filter is rejected exactly if one of its columns is neither a name nor two names with a point
between them. It is rejected as a malformed identifier with the first such column in the message,
and for nothing else: another filter with the same columns, whatever its values, its labels, its
limit and what surrounds it, is rejected for the same. -/
theorem error_iff :
    (∀ e, (f.compile.exec q d).1 = .error e ↔
      ∃ column, FirstMalformed f.columnsRead column ∧
        e = .invalidIdentifier ("Incorrect column name: " ++ column)) ∧
    ((∃ e, (f.compile.exec q d).1 = .error e) ↔
      ∃ column ∈ f.columnsRead, ¬Fragment.IsQualified column.toList) ∧
    ∀ (other : Filter) (q' : Sql.Quoter) (d' : Draft), other.columnsRead = f.columnsRead →
      ∀ e, (other.compile.exec q' d').1 = .error e ↔ (f.compile.exec q d).1 = .error e := by
  refine ⟨f.checks q d, ?_, fun other q' d' hcolumns e => ?_⟩
  · have hsome : (∃ e, (f.compile.exec q d).1 = .error e) ↔
        ∃ column, FirstMalformed f.columnsRead column := by
      simp only [f.checks q d]
      exact ⟨fun ⟨e, column, hcolumn, _⟩ => ⟨column, hcolumn⟩,
        fun ⟨column, hcolumn⟩ => ⟨_, column, hcolumn, rfl⟩⟩
    rw [hsome, ← not_iff_not, not_exists, FirstMalformed.forall_not_iff]
    simp only [not_exists, not_and, not_not]
  · rw [other.checks q' d', hcolumns, f.checks q d]

/-- The column of an empty list of alternatives in a group, of which nothing would be written, comes
before a malformed column of the order; the limit that is no number does not matter, and neither do
values in the place of the null value and of the empty list. -/
theorem error_iff_emptyList :
    let f : Filter :=
      { conditions := [.equals "x" .null, .group .or (some "#1") [.among "a b" []]]
        order := [⟨"9", none⟩], limit := some (.count (.str "z")) }
    let other : Filter :=
      { conditions := [.equals "x" (.int 1), .among "a b" [.bool true, .null]]
        order := [⟨"9", some .descending⟩] }
    (f.compile.exec {} {}).1 = .error (.invalidIdentifier "Incorrect column name: a b") ∧
      other.columnsRead = f.columnsRead ∧
      (other.compile.exec ⟨"p_"⟩ { next := 7 }).1 =
        .error (.invalidIdentifier "Incorrect column name: a b") := by
  intro f other
  have hfirst : FirstMalformed f.columnsRead "a b" := by
    refine .tail (.inl (by decide)) (.head fun h => ?_)
    -- No name holds a blank.
    exact h.not_mem (c := ' ') (by decide) (by decide) (by decide)
  have hcolumns : other.columnsRead = f.columnsRead := by decide
  have hrejected := ((f.error_iff {} {}).1 _).2 ⟨"a b", hfirst, rfl⟩
  exact ⟨hrejected, hcolumns, ((f.error_iff {} {}).2.2 other _ _ hcolumns _).2 hrejected⟩

end Filter

end BoundSql
