import BoundSql.Proofs.Statement.Emission

/-!
# The placeholders of statements without fragments

In a statement without fragments nothing but values is bound, so that its text is sound and the
scanner sees in it just what the compiler meant.

* `Compiler.placeholders_of_isRawFree`: the placeholders in the text of a compiled statement, the
  names in its bind map and the names made for its values are the same, in the same order.
-/

namespace BoundSql

mutual

/-- Whether no fragment stands in a column. -/
def Column.isRawFree : Column → Bool
  | .name _ => true
  | .expression _ _ => false
  | .group _ columns => Column.allRawFree columns

/-- Whether no fragment stands in any of the columns. -/
def Column.allRawFree : List Column → Bool
  | [] => true
  | column :: rest => column.isRawFree && Column.allRawFree rest

end

/-- Whether no fragment stands in a projection. -/
def Projection.isRawFree : Projection → Bool
  | .all => true
  | .columns items => Column.allRawFree items

/-- Whether no fragment stands in a statement. -/
def Statement.isRawFree : Statement → Bool
  | .select query => query.projection.isRawFree
  | .insert _ rows => rows.all fun row => row.all fun item => item.2.isValue
  | .update _ assignments _ => assignments.all fun assignment => assignment.2.isValue
  | .delete _ _ => true
  | .raw _ => false

mutual

/-- Without fragments a column binds nothing. -/
theorem Column.bindables_of_isRawFree : ∀ c : Column, c.isRawFree → c.bindables = []
  | .name _, _ => rfl
  | .expression _ _, h => absurd h (by simp [Column.isRawFree])
  | .group _ columns, h => Column.allBindables_of_allRawFree columns h

/-- Without fragments columns bind nothing. -/
theorem Column.allBindables_of_allRawFree : ∀ cs : List Column,
    Column.allRawFree cs → Column.allBindables cs = []
  | [], _ => rfl
  | c :: cs, h => by
    rw [Column.allRawFree, Bool.and_eq_true] at h
    rw [Column.allBindables, c.bindables_of_isRawFree h.1,
      Column.allBindables_of_allRawFree cs h.2, List.append_nil]

end

/-- Without fragments an inserted row binds values only. -/
theorem Assignments.tupleBindables_of_isValue {row : Assignments} {columns : List String}
    (h : ∀ item ∈ row, item.2.isValue) :
    ∀ b ∈ Assignments.tupleBindables columns row, b.value?.isSome := by
  intro b hb
  obtain ⟨column, -, hb⟩ := List.mem_flatMap.1 hb
  -- A column that the row lacks is written as a null and binds nothing.
  cases hitem : row.get? column with
  | none => simp [hitem, Assignment.itemBindables] at hb
  | some a =>
    obtain ⟨item, hmem, -, rfl⟩ := Keyed.exists_mem_of_get? hitem
    have hvalue := h item hmem
    cases ha : item.2 with
    | value v =>
      rw [hitem, ha, Assignment.itemBindables] at hb
      split at hb
      · simp at hb
      · obtain rfl := List.mem_singleton.1 hb
        rfl
    | fragment f => simp [ha, Assignment.isValue] at hvalue

/-- Without fragments a statement binds values only. -/
theorem Statement.bindables_of_isRawFree {s : Statement} (h : s.isRawFree) :
    ∀ b ∈ s.bindables, b.value?.isSome := by
  have hfilter : ∀ {f : Option Filter}, ∀ b ∈ (Filter.optionValues f).map Bindable.value,
      b.value?.isSome := fun _ => Bindable.isSome_value?_of_mem_map
  intro b hb
  cases s with
  | select query =>
    have hcolumns : query.projection.bindables = [] := by
      rw [Statement.isRawFree] at h
      cases hp : query.projection with
      | all => rfl
      | columns items =>
        rw [hp] at h
        exact Column.allBindables_of_allRawFree items h
    rw [Statement.bindables, hcolumns, List.nil_append] at hb
    exact hfilter b hb
  | insert table rows =>
    rw [Statement.isRawFree, List.all_eq_true] at h
    obtain ⟨row, hrow, hb⟩ := List.mem_flatMap.1 hb
    exact Assignments.tupleBindables_of_isValue (List.all_eq_true.1 (h row hrow)) b hb
  | update table assignments filter =>
    rw [Statement.isRawFree, List.all_eq_true] at h
    rcases List.mem_append.1 hb with hb | hb
    · obtain ⟨⟨column, a⟩, ha, rfl⟩ := List.mem_map.1 hb
      have hvalue := h _ ha
      cases a with
      | value v => rfl
      | fragment f => simp [Assignment.isValue] at hvalue
    · exact hfilter b hb
  | delete table filter => exact hfilter b hb
  | raw fragment => simp [Statement.isRawFree] at h

/-- Bindables that are values are the values for which names are made. -/
theorem eq_map_value_madeFor {bs : List Bindable} (h : ∀ b ∈ bs, b.value?.isSome) :
    bs = (madeFor bs).map .value := by
  induction bs with
  | nil => rfl
  | cons b bs ih =>
    have hrest := ih fun b hb => h b (by simp [hb])
    cases b with
    | value v => exact congrArg (Bindable.value v :: ·) hrest
    | fragment f => exact absurd (h (.fragment f) (by simp)) (by simp [Bindable.value?])

/-- In a compiled statement without fragments the placeholders of the text are those that the
compiler has numbered, each once and in order; the bind map has the same names in the same order,
with the values of the statement in reading order under them. -/
theorem Compiler.placeholders_of_isRawFree {c c' : Compiler} {s : Statement} {out : Compiled}
    (hq : '"' ∉ c.quoter.tablePrefix.toList) (hraw : s.isRawFree)
    (h : c.compile s = (.ok out, c')) :
    c'.next = c.next + s.values.length ∧
      Sql.placeholders out.sql =
        (List.range' c.next (c'.next - c.next)).map Sql.placeholderName ∧
      (Sql.placeholders out.sql).Nodup ∧
      out.binds.keys = Sql.placeholders out.sql ∧
      out.binds.map Prod.snd = s.values.map Value.bind := by
  obtain ⟨ts, hemits, hsql, -⟩ := Compiler.compile_ok h
  have hvalues := Statement.bindables_of_isRawFree hraw
  have hnext : c'.next = c.next + s.values.length := by
    rw [Statement.values, ← Draft.takeAll_next { next := c.next }, ← hemits.draft]
  -- The scanner finds the parameters among the tokens, and these are the names that were made.
  have hscan : Sql.placeholders out.sql = Sql.labels c.next s.values.length := by
    rw [hsql, Sql.placeholders_render (hemits.sound hq hvalues)]
    exact hemits.labels
  have hlength : (Sql.labels c.next s.values.length).length =
      (s.values.map Value.bind).length := by
    rw [Sql.labels, List.length_map, List.length_range', List.length_map]
  -- The names are all different, so that no value takes the place of another one.
  have hbinds : out.binds = (Sql.labels c.next s.values.length).zip (s.values.map Value.bind) := by
    have hdraft := congrArg Draft.binds hemits.draft
    rw [Draft.takeAll_binds, eq_map_value_madeFor hvalues, bindingsFrom_values] at hdraft
    change out.binds = Keyed.putAll
      ((Sql.labels c.next s.values.length).zip (s.values.map Value.bind)) [] at hdraft
    refine hdraft.trans (Keyed.putAll_of_nodup ?_)
    rw [List.nil_append, List.map_fst_zip hlength.le]
    exact Sql.nodup_labels _ _
  refine ⟨hnext, ?_, ?_, ?_, ?_⟩
  · rw [hscan, hnext, Nat.add_sub_cancel_left]
    rfl
  · rw [hscan]
    exact Sql.nodup_labels _ _
  · rw [hscan, hbinds, Keyed.keys, List.map_fst_zip hlength.le]
  · rw [hbinds, List.map_snd_zip hlength.ge]

/-- An update with a null, a list and a group: five values, bound from the third name on. -/
theorem Compiler.placeholders_of_update :
    let c : Compiler := { quoter := ⟨"p_"⟩, next := 3 }
    let s : Statement := .update "users" [("name", .value (.str "a")), ("age", .value .null)] <|
      some { conditions := [.equals "deleted" .null,
               .group .or none [.among "id" [.int 4, .int 5], .equals "t.k" (.bool true)]],
             limit := some (.count (.int 2)) }
    let sql := "UPDATE \"p_users\" SET \"name\" = :ph3_b, \"age\" = :ph4_b WHERE " ++
      "\"deleted\" IS NULL AND (\"id\" IN (:ph5_b, :ph6_b) OR \"p_t\".\"k\" = :ph7_b) LIMIT 2"
    c.compile s =
        (.ok ⟨sql, [(":ph3_b", ⟨.str, .str "a"⟩), (":ph4_b", ⟨.null, .null⟩),
          (":ph5_b", ⟨.int, .int 4⟩), (":ph6_b", ⟨.int, .int 5⟩), (":ph7_b", ⟨.bool, .str "1"⟩)]⟩,
          { c with next := 8 }) ∧
      Sql.placeholders sql = [":ph3_b", ":ph4_b", ":ph5_b", ":ph6_b", ":ph7_b"] := by
  intro c s sql
  have h : c.compile s =
      (.ok ⟨sql, [(":ph3_b", ⟨.str, .str "a"⟩), (":ph4_b", ⟨.null, .null⟩),
        (":ph5_b", ⟨.int, .int 4⟩), (":ph6_b", ⟨.int, .int 5⟩), (":ph7_b", ⟨.bool, .str "1"⟩)]⟩,
        { c with next := 8 }) := by decide +kernel
  have hall := Compiler.placeholders_of_isRawFree (by decide) (by decide) h
  exact ⟨h, hall.2.1.trans (by decide +kernel)⟩

end BoundSql
