import BoundSql.Proofs.Sql.Filling
import BoundSql.Proofs.Statement.Placeholders
import BoundSql.Proofs.Statement.Steady
import BoundSql.Proofs.Statement.Writing

/-!
# Statements with their values in place

A statement can be shown by compiling it and writing the bound values back into its text, or by
building it with every value written in its place from the start. Both ways are alike at every step:
they refuse the same statements, and what the first one gives is filled to what the second one gives
with the values of the statement.

* `Statement.alike`: a statement is refused only in compiling, whichever way its values are written,
  and otherwise the tokens with values in place are the compiled ones, filled;
* `Compiler.literal_eq_inlined`: without fragments both ways give the same text.
-/

namespace BoundSql

open Build (Alike Steady)
open Sql (Fills FillsEach Token Tokens Word)

namespace Build

/-- A steady part that binds no values is filled with none. -/
theorem Alike.fills_of_steady {part : Build Tokens} (h : Steady part) (bs : List Bindable)
    (hbs : madeFor bs = [])
    (hemits : ∀ {q d ts d'}, part.exec q d = (.ok ts, d') → Emits q d bs ts d') :
    Alike (Fills []) part part := by
  refine h.mono fun hexec heq => heq ▸ Fills.of_labels_eq_nil ?_
  rw [(hemits hexec).labels, hbs]
  rfl

/-- A quoted table is filled with nothing. -/
theorem fills_table (name : String) : Alike (Fills []) (table name) (table name) :=
  .fills_of_steady (steady_table name) [] rfl Emits.table

/-- A quoted column is filled with nothing. -/
theorem fills_column (name : String) : Alike (Fills []) (column name) (column name) :=
  .fills_of_steady (steady_column name) [] rfl Emits.column

/-- An expanded fragment is filled with nothing: its parameters stay in its text. -/
theorem fills_expand (f : Fragment) : Alike (Fills []) (expand f) (expand f) :=
  .fills_of_steady (steady_expand f) [.fragment f] rfl Emits.expand

/-- The name that is made for a value is filled with the value. -/
theorem fills_pushValue (v : Value) :
    Alike (fun t u => Fills [v] [t] [u]) (pushValue v) (writeValue v) :=
  fun _ _ _ => .ok (.parameter v _ .nil)

/-- The names that are made for values are filled with the values. -/
theorem fills_pushValues (vs : List Value) :
    Alike (fun ts us => FillsEach vs (ts.map fun t => [t]) (us.map fun u => [u]))
      (vs.mapM pushValue) (vs.mapM writeValue) := by
  induction vs with
  | nil => exact .pure .nil
  | cons v vs ih =>
    rw [List.mapM_cons, List.mapM_cons]
    refine .bind (fills_pushValue v) fun t u ht => ?_
    exact .bind ih fun ts us hts => .pure (.cons ht hts)

/-- Parts over a list are filled, one after the other, when each part is. -/
theorem fills_mapM {α : Type} {f f' : α → Build Tokens} {g : α → List Value} {as : List α}
    (h : ∀ a ∈ as, Alike (Fills (g a)) (f a) (f' a)) :
    Alike (FillsEach (as.flatMap g)) (as.mapM f) (as.mapM f') := by
  induction as with
  | nil => exact .pure .nil
  | cons a as ih =>
    rw [List.mapM_cons, List.mapM_cons, List.flatMap_cons]
    refine .bind (h a (by simp)) fun ts us hts => ?_
    refine .bind (ih fun b hb => h b (by simp [hb])) fun parts parts' hparts => ?_
    exact .pure (.cons hts hparts)

/-- A list of columns is filled with nothing. -/
theorem fills_columns {α : Type} {f : α → Build Tokens} {as : List α}
    (h : ∀ a ∈ as, Alike (Fills []) (f a) (f a)) (w : Word) :
    Alike (Fills []) (do return Sql.joinWith w (← as.mapM f))
      (do return Sql.joinWith w (← as.mapM f)) := by
  have hall := fills_mapM (g := fun _ => []) h
  rw [List.flatMap_eq_nil_iff.2 fun _ _ => rfl] at hall
  exact .bind hall fun parts parts' hparts => .pure (hparts.joinWith w)

end Build

mutual

/-- A condition with its values in place is the compiled one, filled with them. -/
theorem Condition.alike :
    ∀ c : Condition, Alike (Fills c.values) c.compile (c.compileWith Build.writeValue)
  | .group connective label conditions => by
    rw [Condition.compile, Condition.compileWith, Condition.values]
    refine .bind (Condition.allAlike connective conditions) fun ts us hts => ?_
    exact .pure ((hts.cons .openParen).concat .closeParen)
  | .columns left op right => by
    rw [Condition.compile, Condition.compileWith]
    refine .bind (Build.fills_column left) fun ts us hleft => ?_
    refine .bind (Build.fills_column right) fun ts' us' hright => ?_
    exact .pure (hleft.append (hright.cons (.compare op)))
  | .equals column value => by
    rw [Condition.compile, Condition.compileWith, Condition.values]
    refine .bind (Build.fills_column column) fun ts us hcolumn => ?_
    -- A null value is tested for and written nowhere.
    split
    · exact .pure (hcolumn.concat .isNull)
    · refine .bind (Build.fills_pushValue value) fun t u hvalue => ?_
      exact .pure (hcolumn.append (hvalue.cons (.compare .equal)))
  | .compares column op value => by
    rw [Condition.compile, Condition.compileWith]
    refine .bind (Build.fills_column column) fun ts us hcolumn => ?_
    refine .bind (Build.fills_pushValue value) fun t u hvalue => ?_
    exact .pure (hcolumn.append (hvalue.cons (.compare op)))
  | .among column [] => by
    rw [Condition.compile, Condition.compileWith]
    refine .bind (Build.fills_column column) fun ts us _ => ?_
    exact .pure (Fills.nil.cons .never)
  | .among column (v :: values) => by
    rw [Condition.compile, Condition.compileWith]
    refine .bind (Build.fills_column column) fun ts us hcolumn => ?_
    refine .bind (Build.fills_pushValues (v :: values)) fun parts parts' hparts => ?_
    have hlist := (hparts.joinWith .commaSpace).cons .among
    exact .pure ((hcolumn.append hlist).concat .closeParen)

/-- Sibling conditions with their values in place are the compiled ones, filled with them. -/
theorem Condition.allAlike (connective : Sql.Connective) : ∀ cs : List Condition,
    Alike (Fills (Condition.allValues cs)) (Condition.compileAll connective cs)
      (Condition.compileAllWith Build.writeValue connective cs)
  | [] => by
    rw [Condition.compileAll, Condition.compileAllWith]
    exact .pure .nil
  | [c] => by
    rw [Condition.compileAll, Condition.compileAllWith, Condition.allValues, Condition.allValues,
      List.append_nil]
    exact c.alike
  | c :: next :: rest => by
    have hrest := Condition.allAlike connective (next :: rest)
    rw [Condition.allValues]
    refine .bind c.alike fun ts us hts => ?_
    refine .bind hrest fun ts' us' hts' => ?_
    exact .pure (hts.append (hts'.cons (.connect connective)))

end

/-- A clause is filled with what its body is filled with. -/
theorem alike_clause {α : Type} {items : List α} {body body' : List α → Build Tokens}
    {vs : List Value} (head : Word) (hempty : items = [] → vs = [])
    (h : Alike (Fills vs) (body items) (body' items)) :
    Alike (Fills vs) (clause head items body) (clause head items body') := by
  rw [clause, clause]
  cases items with
  | nil =>
    rw [hempty rfl]
    exact .pure .nil
  | cons item items => exact .bind h fun ts us hts => .pure (hts.cons head)

/-- The limit of a filter is filled with nothing: its numbers are written in any case. -/
theorem Limit.fills (limit : Option Limit) :
    Fills [] ((limit.bind Limit.tokens?).getD []) ((limit.bind Limit.tokens?).getD []) := by
  cases htokens : limit.bind Limit.tokens? with
  | none => exact .nil
  | some tokens =>
    obtain ⟨limit, -, hlimit⟩ := Option.bind_eq_some_iff.1 htokens
    exact .of_labels_eq_nil (Limit.emits (q := {}) hlimit {}).1.labels

/-- A column to order by is filled with nothing. -/
theorem OrderItem.fills (item : OrderItem) : Alike (Fills []) item.compile item.compile := by
  obtain ⟨column, direction⟩ := item
  refine .bind (Build.fills_column column) fun ts us hcolumn => ?_
  cases direction with
  | none => exact .pure hcolumn
  | some direction => exact .pure (hcolumn.concat (.direction direction))

/-- A filter with its values in place is the compiled one, filled with them. -/
theorem Filter.alike (f : Filter) :
    Alike (Fills f.values) f.compile (f.compileWith Build.writeValue) := by
  have hclause : ∀ (head : Word) (cs : List Condition),
      Alike (Fills (Condition.allValues cs)) (clause head cs (Condition.compileAll .and))
        (clause head cs (Condition.compileAllWith Build.writeValue .and)) := by
    intro head cs
    refine alike_clause head ?_ (Condition.allAlike .and cs)
    rintro rfl
    rfl
  have hcolumns : ∀ {α : Type} (head : Word) (items : List α) (g : α → Build Tokens),
      (∀ a, Alike (Fills []) (g a) (g a)) →
        Alike (Fills []) (clause head items fun items => do
          return Sql.joinWith .comma (← items.mapM g)) (clause head items fun items => do
          return Sql.joinWith .comma (← items.mapM g)) := fun head items g hg =>
    alike_clause head (fun _ => rfl) (Build.fills_columns (fun a _ => hg a) .comma)
  refine .bind (hclause .conditions f.conditions) fun ts₁ us₁ hconditions => ?_
  refine .bind (hcolumns .groupBy f.grouping _ Build.fills_column) fun ts₂ us₂ hgrouping => ?_
  refine .bind (hclause .having f.having) fun ts₃ us₃ hhaving => ?_
  refine .bind (hcolumns .orderBy f.order _ OrderItem.fills) fun ts₄ us₄ horder => ?_
  refine .pure ?_
  have hall := (((hconditions.append hgrouping).append hhaving).append horder).append
    (Limit.fills f.limit)
  rwa [List.append_nil, List.append_nil, List.append_nil] at hall

/-- A filter that may be missing, with its values in place. -/
theorem Filter.optionAlike (f : Option Filter) : Alike (Fills (Filter.optionValues f))
    (Filter.compileOption f) (Filter.compileOptionWith Build.writeValue f) := by
  cases f with
  | none => exact .pure .nil
  | some f => exact f.alike

mutual

/-- No names are made for a column. -/
theorem Column.madeFor_bindables : ∀ c : Column, madeFor c.bindables = []
  | .name _ => rfl
  | .expression _ _ => rfl
  | .group _ columns => Column.madeFor_allBindables columns

/-- No names are made for columns. -/
theorem Column.madeFor_allBindables : ∀ cs : List Column, madeFor (Column.allBindables cs) = []
  | [] => rfl
  | c :: cs => by
    rw [Column.allBindables, madeFor, List.filterMap_append, ← madeFor, ← madeFor,
      c.madeFor_bindables, Column.madeFor_allBindables cs, List.append_nil]

end

/-- No names are made for a projection. -/
theorem Projection.madeFor_bindables (p : Projection) : madeFor p.bindables = [] := by
  cases p with
  | all => rfl
  | columns items => exact Column.madeFor_allBindables items

/-- A query is built alike up to its filter, which is filled with its values. -/
theorem Query.alike_filter (query : Query) :
    Alike (fun ts us => ∃ head filter filter', ts = head ++ filter ∧ us = head ++ filter' ∧
        Fills (Filter.optionValues query.filter) filter filter')
      query.compile (query.compileWith Build.writeValue) := by
  unfold Query.compile Query.compileWith
  -- All that stands before the filter binds no values and is the same on both sides.
  cases Sql.splitAlias? (Text.trim query.table.toList) with
  | none => exact .bind (R := fun _ _ => False) (.throw rfl) fun _ _ h => h.elim
  | some parts =>
    refine .bind_steady (Build.steady_pure parts) fun ⟨name, aliasName⟩ => ?_
    refine .bind_steady (Build.steady_table _) fun table => ?_
    cases aliasName with
    | none =>
      refine .bind_steady (Build.steady_pure _) fun ⟨source, base⟩ => ?_
      refine .bind_steady (query.projection.steady _) fun columns => ?_
      refine .bind_steady (Joins.steady _) fun joined => ?_
      refine .bind (Filter.optionAlike query.filter) fun filter filter' hfilter => ?_
      exact .pure ⟨_, filter, filter', rfl, rfl, hfilter⟩
    | some aliasName =>
      refine .bind_steady (Build.steady_table _) fun quoted => ?_
      refine .bind_steady (Build.steady_pure _) fun ⟨source, base⟩ => ?_
      refine .bind_steady (query.projection.steady _) fun columns => ?_
      refine .bind_steady (Joins.steady _) fun joined => ?_
      refine .bind (Filter.optionAlike query.filter) fun filter filter' hfilter => ?_
      exact .pure ⟨_, filter, filter', rfl, rfl, hfilter⟩

/-- A query with the values of its filter in place is the compiled one, filled with them. -/
theorem Query.alike (query : Query) : Alike (Fills (Statement.select query).values)
    query.compile (query.compileWith Build.writeValue) := by
  have hvalues : (Statement.select query).values = Filter.optionValues query.filter := by
    rw [Statement.values, Statement.bindables, madeFor, List.filterMap_append, ← madeFor,
      ← madeFor, query.projection.madeFor_bindables, List.nil_append, madeFor_map_value]
  refine query.alike_filter.mono fun hexec hshape => ?_
  obtain ⟨head, filter, filter', hts, hus, hfilter⟩ := hshape
  -- All names of the query are made for its filter, so none is left for what stands before it.
  have hlabels := congrArg List.length (Query.emits hexec).labels
  rw [← Statement.values, hvalues, hts, List.filterMap_append, List.length_append,
    hfilter.length_labels, Sql.labels, List.length_map, List.length_range'] at hlabels
  have hhead : head.filterMap Token.label? = [] := List.length_eq_zero_iff.1 (by omega)
  rw [hvalues, hts, hus]
  exact hfilter.append_left hhead

/-- What an inserted row has in a column is filled with its value, if it is bound. -/
theorem Assignment.itemAlike (item : Option Assignment) :
    Alike (Fills (madeFor (itemBindables item))) (compileItem item)
      (compileItemWith Build.writeValue item) := by
  rcases item with _ | v | f
  · exact .pure (Fills.nil.cons .null)
  · rw [compileItem, compileItemWith, itemBindables]
    -- A null is written out on both sides.
    split
    · exact .pure (Fills.nil.cons .null)
    · exact .bind (Build.fills_pushValue v) fun t u ht => .pure ht
  · exact Build.fills_expand f

/-- An inserted row with its values in place is the compiled one, filled with them. -/
theorem Assignments.tupleAlike (columns : List String) (row : Assignments) :
    Alike (Fills (madeFor (tupleBindables columns row))) (compileTuple columns row)
      (compileTupleWith Build.writeValue columns row) := by
  rw [tupleBindables, madeFor, List.filterMap_flatMap]
  refine .bind (Build.fills_mapM fun column _ => Assignment.itemAlike _) fun items items' h => ?_
  exact .pure (((h.joinWith .commaSpace).cons .openParen).concat .closeParen)

/-- An insertion with its values in place is the compiled one, filled with them. -/
theorem alike_insert (table : String) (rows : List Assignments) :
    Alike (Fills (Statement.insert table rows).values) (compileInsert table rows)
      (compileInsertWith Build.writeValue table rows) := by
  rw [compileInsert, compileInsertWith, Statement.values, Statement.bindables, madeFor,
    List.filterMap_flatMap]
  -- Without columns there is nothing to insert.
  split
  · exact .throw rfl
  · refine .bind (Build.fills_table table) fun ts us htable => ?_
    have hnames := Build.fills_mapM (g := fun _ => [])
      (fun (column : String) (_ : column ∈ Assignments.allColumns rows) =>
        Build.fills_column column)
    rw [List.flatMap_eq_nil_iff.2 fun _ _ => rfl] at hnames
    refine .bind hnames fun names names' hnames => ?_
    refine .bind (Build.fills_mapM fun row _ => Assignments.tupleAlike _ row)
      fun tuples tuples' htuples => ?_
    refine .pure ?_
    have hcolumns := ((hnames.joinWith .commaSpace).cons .openParen).cons .space
    have hrows := ((htuples.joinWith .commaSpace).cons .values).cons .closeParen
    have hall := ((htable.cons .insertInto).append hcolumns).append hrows
    simpa [madeFor] using hall

/-- An assignment with its value in place is the compiled one, filled with it. -/
theorem Assignment.alike (column : String) (a : Assignment) :
    Alike (Fills a.bindable.value?.toList) (a.compile column)
      (a.compileWith Build.writeValue column) := by
  refine .bind (Build.fills_column column) fun ts us hcolumn => ?_
  cases a with
  | value v =>
    refine .bind (Build.fills_pushValue v) fun t u hvalue => ?_
    refine .bind (R := fun ts us => Fills [v] ts us) (.pure hvalue) fun ts' us' hvalue => ?_
    exact .pure (hcolumn.append (hvalue.cons (.compare .equal)))
  | fragment f =>
    refine .bind (Build.fills_expand f) fun ts' us' hfragment => ?_
    exact .pure (hcolumn.append (hfragment.cons (.compare .equal)))

/-- An update with its values in place is the compiled one, filled with them. -/
theorem alike_update (table : String) (assignments : Assignments) (filter : Option Filter) :
    Alike (Fills (Statement.update table assignments filter).values)
      (compileUpdate table assignments filter)
      (compileUpdateWith Build.writeValue table assignments filter) := by
  have hvalues : (Statement.update table assignments filter).values =
      assignments.flatMap (fun a => a.2.bindable.value?.toList) ++ Filter.optionValues filter := by
    rw [Statement.values, Statement.bindables, madeFor, List.filterMap_append, ← madeFor,
      ← madeFor, madeFor_map_value, madeFor, List.filterMap_map, List.filterMap_eq_flatMap_toList]
    rfl
  rw [compileUpdate, compileUpdateWith, hvalues]
  -- Without assignments there is nothing to update.
  split
  · exact .throw rfl
  · refine .bind (Build.fills_table table) fun ts us htable => ?_
    refine .bind (Build.fills_mapM fun a _ => Assignment.alike a.1 a.2) fun sets sets' hsets => ?_
    refine .bind (Filter.optionAlike filter) fun ts' us' hfilter => ?_
    have hassignments := (hsets.joinWith .commaSpace).cons .assignments
    exact .pure (((htable.cons .update).append hassignments).append hfilter)

/-- A deletion with the values of its filter in place is the compiled one, filled with them. -/
theorem alike_delete (table : String) (filter : Option Filter) :
    Alike (Fills (Statement.delete table filter).values) (compileDelete table filter)
      (compileDeleteWith Build.writeValue table filter) := by
  rw [compileDelete, compileDeleteWith, Statement.values, Statement.bindables, madeFor_map_value]
  refine .bind (Build.fills_table table) fun ts us htable => ?_
  exact .bind (Filter.optionAlike filter) fun ts' us' hfilter =>
    .pure ((htable.cons .deleteFrom).append hfilter)

/-- A statement with its values in place is the compiled one, filled with them; if it is refused, it
is refused in compiling and for the same reason. -/
theorem Statement.alike (s : Statement) :
    Alike (Fills s.values) s.compile (s.compileWith Build.writeValue) := by
  cases s with
  | select query => exact query.alike
  | insert table rows => exact alike_insert table rows
  | update table assignments filter => exact alike_update table assignments filter
  | delete table filter => exact alike_delete table filter
  | raw fragment => exact Build.fills_expand fragment

/-- What a compiler refuses, it refuses in compiling. -/
theorem Compiler.isCompileError_of_compile {c : Compiler} {s : Statement} {x : Error}
    (h : (c.compile s).1 = .error x) : x.isCompileError := by
  have halike := s.alike c.quoter { next := c.next } {}
  rw [compile] at h
  rcases hexec : s.compile.exec c.quoter { next := c.next } with ⟨y | ts, d⟩
  · rw [hexec] at h halike
    obtain rfl := Except.error.inj h
    generalize ((s.compileWith Build.writeValue).exec c.quoter {}).1 = r at halike
    cases halike with
    | error hcompiling => exact hcompiling
  · rw [hexec] at h
    cases h

/-- In a compiled statement without fragments each value is bound under the name of its
parameter. -/
theorem Emits.get?_of_values {q : Sql.Quoter} {d : Draft} {vs : List Value} {ts : Tokens}
    {next : Nat} (h : Emits q { next } (vs.map .value) ts d) :
    ∀ pair ∈ (ts.filterMap Token.label?).zip (vs.map Value.bind),
      Keyed.get? pair.1 d.binds = some pair.2 := by
  have hlabels := h.labels
  rw [madeFor_map_value] at hlabels
  have hlength : (Sql.labels next vs.length).length = (vs.map Value.bind).length := by
    rw [Sql.labels, List.length_map, List.length_range', List.length_map]
  rw [h.draft, Draft.takeAll_binds, bindingsFrom_values, hlabels]
  -- No name is made twice, so that no value takes the place of another one.
  refine (Keyed.get?_putAll_iff _).2 fun a ha b hb hkey => ?_
  have hnodup : (((Sql.labels next vs.length).zip (vs.map Value.bind)).map Prod.fst).Nodup := by
    rw [List.map_fst_zip hlength.le]
    exact Sql.nodup_labels next vs.length
  exact congrArg Prod.snd (List.inj_on_of_nodup_map hnodup ha hb hkey)

/-- How a statement is shown when it compiles: its text with the bound values written into it. -/
def Compiler.shown (c : Compiler) (s : Statement) : Except Error String :=
  (c.compile s).1.map fun out => Sql.literalSql out.sql out.binds .ansi

/-- What is shown of a statement without fragments is what is built with values in place. -/
theorem Compiler.shown_eq_inlined {c : Compiler} {s : Statement}
    (hq : '"' ∉ c.quoter.tablePrefix.toList) (hraw : s.isRawFree) :
    c.shown s = s.inlined c.quoter := by
  have halike := s.alike c.quoter { next := c.next } {}
  rw [shown, compile, Statement.inlined]
  rcases hexec : s.compile.exec c.quoter { next := c.next } with ⟨r, d⟩
  rw [hexec] at halike
  generalize ((s.compileWith Build.writeValue).exec c.quoter {}).1 = r' at halike ⊢
  cases halike with
  | error he => rfl
  | @ok ts us hfilled =>
    -- Without fragments the values are all that the statement binds.
    have hvalues := Statement.bindables_of_isRawFree hraw
    have hemits := Statement.emits hexec
    rw [eq_map_value_madeFor hvalues, ← Statement.values] at hemits
    have hshown := Sql.literalSql_render (hemits.sound_of_values hq) hfilled hemits.get?_of_values
    simp only [Except.map, hshown]

/-- A statement without fragments is shown as it is built with every value written in its place, and
is refused for the same reasons, whatever the numbers of its placeholders are. Building it in this
way differs from compiling it in nothing but how values are written. -/
theorem Compiler.literal_eq_inlined {c : Compiler} {s : Statement}
    (hq : '"' ∉ c.quoter.tablePrefix.toList) (hraw : s.isRawFree) :
    s.compileWith Build.pushValue = s.compile ∧ c.shown s = s.inlined c.quoter ∧
      ∀ n, ({ c with next := n } : Compiler).shown s = c.shown s := by
  have hshown := shown_eq_inlined hq hraw
  refine ⟨s.compileWith_pushValue, hshown, fun n => ?_⟩
  have hother := shown_eq_inlined (c := { c with next := n }) hq hraw
  exact hother.trans hshown.symm

/-- Values that look like placeholders, literals and comments are written once, as they are. -/
theorem Compiler.literal_of_update :
    let c : Compiler := { quoter := ⟨"p_"⟩, next := 1 }
    let s : Statement := .update "t"
      [("a", .value (.str ":ph2_b")), ("b", .value (.str "it's -- $$ \":ph1_b"))]
      (some { conditions := [.equals "t.id" (.int 5)] })
    '"' ∉ c.quoter.tablePrefix.toList ∧ s.isRawFree ∧
      c.shown s = .ok ("UPDATE \"p_t\" SET \"a\" = ':ph2_b', " ++
        "\"b\" = 'it''s -- $$ \":ph1_b' WHERE \"p_t\".\"id\" = 5") := by
  intro c s
  have hall := Compiler.literal_eq_inlined (c := c) (s := s) (by decide) (by decide)
  exact ⟨by decide, by decide, hall.2.1.trans (by decide +kernel)⟩

end BoundSql
