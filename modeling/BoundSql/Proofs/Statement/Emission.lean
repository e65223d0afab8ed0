import BoundSql.Proofs.Filter.Emission
import BoundSql.Proofs.Join.Emission
import BoundSql.Proofs.Projection.Emission
import BoundSql.Statement.Compiler

/-!
# What a statement emits

A statement binds what is met when it is read from left to right: the columns of a query before its
filter, the rows of an insertion one after the other and in each row one column after the other, the
assignments of an update before its filter.

* `Statement.bindables`: what a statement binds, in this order;
* `Statement.emits`: that a statement which compiles binds exactly this;
* `Compiler.compile_ok`: the same as seen from outside, in the result of a compiler.
-/

namespace BoundSql

open Sql (Led Quoter Sound Token Tokens Word)

/-- The values of a filter that may be missing. -/
def Filter.optionValues (f : Option Filter) : List Value := (f.map Filter.values).getD []

namespace Assignment

/-- What an assignment of an update binds. -/
def bindable : Assignment → Bindable
  | value v => .value v
  | fragment f => .fragment f

/-- What an item of an inserted row binds. A missing item and a null are written out. -/
def itemBindables : Option Assignment → List Bindable
  | none => []
  | some (value v) => if v.isNull then [] else [.value v]
  | some (fragment f) => [.fragment f]

/-- Whether an assignment is a value. -/
def isValue : Assignment → Bool
  | value _ => true
  | fragment _ => false

end Assignment

/-- What an inserted row binds, column by column. -/
def Assignments.tupleBindables (columns : List String) (row : Assignments) : List Bindable :=
  columns.flatMap fun column => Assignment.itemBindables (row.get? column)

namespace Statement

/-- What a statement binds, in reading order. -/
def bindables : Statement → List Bindable
  | select query => query.projection.bindables ++ (Filter.optionValues query.filter).map .value
  | insert _ rows => rows.flatMap (Assignments.tupleBindables (Assignments.allColumns rows))
  | update _ assignments filter =>
    assignments.map (fun assignment => assignment.2.bindable) ++
      (Filter.optionValues filter).map .value
  | delete _ filter => (Filter.optionValues filter).map .value
  | raw fragment => [.fragment fragment]

/-- The values of a statement for which names are made, in reading order. -/
def values (s : Statement) : List Value := madeFor s.bindables

end Statement

variable {q : Quoter} {d d' : Draft} {ts : Tokens}

/-- A filter that may be missing binds its values, and its tokens can stand behind anything. -/
theorem Filter.emits_option {f : Option Filter}
    (h : (Filter.compileOption f).exec q d = (.ok ts, d')) :
    Emits q d ((Filter.optionValues f).map .value) ts d' ∧ Led ts := by
  cases f with
  | none =>
    obtain ⟨rfl, rfl⟩ := Build.exec_pure_ok.1 h
    exact ⟨.of_inert ⟨rfl, fun _ => Sound.nil⟩ d, Sql.led_nil⟩
  | some f => exact Filter.emits h

/-- The clauses of a query are built from left to right once its table is quoted. -/
theorem Query.compile_ok {query : Query} (h : query.compile.exec q d = (.ok ts, d')) :
    ∃ name aliasName table base columns joined filter d₁ d₂,
      Sql.splitAlias? (Text.trim query.table.toList) = some (name, aliasName) ∧
      q.table (String.ofList name) = .ok table ∧
      q.table (String.ofList (aliasName.getD name)) = .ok base ∧
      (query.projection.compile (!(query.joins.getD []).isEmpty)).exec q d = (.ok columns, d₁) ∧
      ((query.joins.getD []).compile base).exec q d₁ = (.ok joined, d₂) ∧
      (Filter.compileOption query.filter).exec q d₂ = (.ok filter, d') ∧
      ts = Token.word .select :: columns ++ Token.word .source :: (table ++
        Sql.naming aliasName base) ++
        (if joined.isEmpty then [] else Token.word .space :: joined) ++ filter := by
  unfold Query.compile at h
  cases hname : Sql.splitAlias? (Text.trim query.table.toList) with
  | none =>
    rw [hname] at h
    simp only [Build.exec_bind_ok, Build.exec_throw_ok, false_and, exists_false] at h
  | some parts =>
    obtain ⟨name, aliasName⟩ := parts
    rw [hname] at h
    simp only [Build.exec_bind_ok, Build.exec_pure_ok, Build.exec_table_ok] at h
    obtain ⟨_, _, ⟨rfl, rfl⟩, table, _, ⟨htable, rfl⟩, h⟩ := h
    cases aliasName with
    | none =>
      simp only [Build.exec_bind_ok, Build.exec_pure_ok] at h
      obtain ⟨_, _, ⟨rfl, rfl⟩, columns, d₁, hcolumns, joined, d₂, hjoined, filter, d₃, hfilter,
        rfl, rfl⟩ := h
      refine ⟨name, none, table, table, columns, joined, filter, d₁, d₂, rfl, htable, htable,
        hcolumns, hjoined, hfilter, ?_⟩
      rw [Sql.naming, List.append_nil]
    | some aliasName =>
      simp only [Build.exec_bind_ok, Build.exec_pure_ok, Build.exec_table_ok] at h
      obtain ⟨base, _, ⟨hbase, rfl⟩, _, _, ⟨rfl, rfl⟩, columns, d₁, hcolumns, joined, d₂, hjoined,
        filter, d₃, hfilter, rfl, rfl⟩ := h
      exact ⟨name, some aliasName, table, base, columns, joined, filter, d₁, d₂, rfl, htable, hbase,
        hcolumns, hjoined, hfilter, rfl⟩

/-- What follows the columns of a query binds the values of its filter. -/
theorem Query.emits_tail {name baseName : String} {α : Type} (aliasName : Option α)
    {table base joined filter : Tokens} {joins : Joins} {f : Option Filter} {d₁ : Draft}
    (htable : q.table name = .ok table) (hbase : q.table baseName = .ok base)
    (hjoined : (joins.compile base).exec q d = (.ok joined, d₁))
    (hfilter : (Filter.compileOption f).exec q d₁ = (.ok filter, d')) :
    Emits q d ((Filter.optionValues f).map .value)
      (Token.word .source :: (table ++ Sql.naming aliasName base) ++
        (if joined.isEmpty then [] else Token.word .space :: joined) ++ filter) d' := by
  have htable := Emits.of_inert (Sql.Inert.table htable) d
  have hnaming := Emits.of_inert (Sql.Inert.naming aliasName (.table hbase)) d
  have hsource := (htable.append hnaming fun _ => Sql.led_naming _ _).cons (w := .source)
    (by decide)
  have hjoined := Joins.emits (.table hbase) hjoined
  obtain ⟨hfilter, hled⟩ := Filter.emits_option hfilter
  -- Without joins there is no blank either.
  have hjoins : Emits q d [] (if joined.isEmpty then [] else Token.word .space :: joined) d₁ ∧
      Led (if joined.isEmpty then [] else Token.word .space :: joined) := by
    obtain rfl := hjoined.draft_eq
    split
    · exact ⟨.of_inert ⟨rfl, fun _ => Sound.nil⟩ d₁, Sql.led_nil⟩
    · exact ⟨hjoined.cons (by decide), Sql.led_cons.2 (by decide)⟩
  exact (hsource.append hjoins.1 fun _ => hjoins.2).append hfilter fun _ => hled

/-- A query binds the parameters of its columns and the values of its filter. -/
theorem Query.emits {query : Query} (h : query.compile.exec q d = (.ok ts, d')) :
    Emits q d (Statement.select query).bindables ts d' := by
  obtain ⟨name, aliasName, table, base, columns, joined, filter, d₁, d₂, -, htable, hbase, hcolumns,
    hjoined, hfilter, rfl⟩ := Query.compile_ok h
  have hcolumns := (Projection.emits hcolumns).cons (w := .select) (by decide)
  have htail := Query.emits_tail aliasName htable hbase hjoined hfilter
  have hall := hcolumns.append htail fun _ => Sql.led_cons.2 (by decide)
  rwa [← List.append_assoc, ← List.append_assoc] at hall

/-- An item of an inserted row binds what it has. -/
theorem Assignment.emits_item {item : Option Assignment}
    (h : (Assignment.compileItem item).exec q d = (.ok ts, d')) :
    Emits q d (Assignment.itemBindables item) ts d' := by
  -- A null is written out where an update would bind it.
  rcases item with _ | v | f
  · obtain ⟨rfl, rfl⟩ := Build.exec_pure_ok.1 h
    exact .word .null d
  · rw [Assignment.compileItem] at h
    rw [Assignment.itemBindables]
    split at h
    · next hnull =>
      obtain ⟨rfl, rfl⟩ := Build.exec_pure_ok.1 h
      rw [if_pos hnull]
      exact .word .null d
    · next hnull =>
      simp only [Build.exec_bind_ok, Build.exec_pure_ok] at h
      obtain ⟨parameter, d₁, hparameter, rfl, rfl⟩ := h
      rw [if_neg hnull]
      exact .pushValue hparameter
  · exact .expand h

/-- An inserted row binds its items, column by column. -/
theorem Assignments.emits_tuple {columns : List String} {row : Assignments}
    (h : (Assignments.compileTuple columns row).exec q d = (.ok ts, d')) :
    Emits q d (Assignments.tupleBindables columns row) ts d' := by
  simp only [Assignments.compileTuple, Build.exec_bind_ok, Build.exec_pure_ok] at h
  obtain ⟨items, d₁, hitems, rfl, rfl⟩ := h
  have heach := EmitsEach.of_mapM (fun _ _ {_ _ _} hitem => Assignment.emits_item hitem) hitems
  exact (heach.joinWith (by decide) (by decide)).parenthesized

/-- An insertion binds its rows, one after the other. -/
theorem emits_insert {table : String} {rows : List Assignments}
    (h : (compileInsert table rows).exec q d = (.ok ts, d')) :
    Emits q d (Statement.insert table rows).bindables ts d' := by
  rw [compileInsert] at h
  split at h
  · exact absurd h (by simp)
  · simp only [Build.exec_bind_ok, Build.exec_pure_ok] at h
    obtain ⟨table, d₁, htable, names, d₂, hnames, tuples, d₃, htuples, rfl, rfl⟩ := h
    have htable := (Emits.table htable).cons (w := .insertInto) (by decide)
    have heach := EmitsEach.of_mapM_nil (fun _ _ {_ _ _} hname => .column hname) hnames
    have hnames := (heach.joinWith (w := .commaSpace) (by decide) (by decide)).parenthesized
    have hnames := hnames.cons (w := .space) (by decide)
    have heach := EmitsEach.of_mapM (fun _ _ {_ _ _} htuple => Assignments.emits_tuple htuple)
      htuples
    have htuples := (heach.joinWith (w := .commaSpace) (by decide) (by decide)).cons (w := .values)
      (by decide)
    have hhead := htable.append hnames fun _ => Sql.led_cons.2 (by decide)
    have hall := hhead.append htuples fun _ => Sql.led_cons.2 (by decide)
    simpa [Statement.bindables] using hall

/-- An assignment of an update binds what the column is set to. -/
theorem Assignment.emits {column : String} {a : Assignment}
    (h : (a.compile column).exec q d = (.ok ts, d')) : Emits q d [a.bindable] ts d' := by
  rw [Assignment.compile, Build.exec_bind_ok] at h
  obtain ⟨name, d₁, hname, h⟩ := h
  cases a with
  | value v =>
    simp only [Build.exec_bind_ok, Build.exec_pure_ok] at h
    obtain ⟨parameter, d₂, hparameter, _, _, ⟨rfl, rfl⟩, rfl, rfl⟩ := h
    exact (Emits.column hname).comparison .equal (.pushValue hparameter)
  | fragment f =>
    simp only [Build.exec_bind_ok, Build.exec_pure_ok] at h
    obtain ⟨expanded, d₂, hexpanded, rfl, rfl⟩ := h
    exact (Emits.column hname).comparison .equal (.expand hexpanded)

/-- An update binds its assignments and then the values of its filter. -/
theorem emits_update {table : String} {assignments : Assignments} {filter : Option Filter}
    (h : (compileUpdate table assignments filter).exec q d = (.ok ts, d')) :
    Emits q d (Statement.update table assignments filter).bindables ts d' := by
  rw [compileUpdate] at h
  split at h
  · exact absurd h (by simp)
  · simp only [Build.exec_bind_ok, Build.exec_pure_ok] at h
    obtain ⟨table, d₁, htable, sets, d₂, hsets, filter, d₃, hfilter, rfl, rfl⟩ := h
    have htable := (Emits.table htable).cons (w := .update) (by decide)
    have heach := EmitsEach.of_mapM (g := fun a => [a.2.bindable])
      (fun _ _ {_ _ _} hset => Assignment.emits hset) hsets
    have hsets := (heach.joinWith (w := .commaSpace) (by decide) (by decide)).cons
      (w := .assignments) (by decide)
    obtain ⟨hfilter, hled⟩ := Filter.emits_option hfilter
    have hhead := htable.append hsets fun _ => Sql.led_cons.2 (by decide)
    have hall := hhead.append hfilter fun _ => hled
    rwa [List.nil_append, ← List.map_eq_flatMap] at hall

/-- A deletion binds the values of its filter. -/
theorem emits_delete {table : String} {filter : Option Filter}
    (h : (compileDelete table filter).exec q d = (.ok ts, d')) :
    Emits q d (Statement.delete table filter).bindables ts d' := by
  simp only [compileDelete, Build.exec_bind_ok, Build.exec_pure_ok] at h
  obtain ⟨table, d₁, htable, filter, d₂, hfilter, rfl, rfl⟩ := h
  have htable := (Emits.table htable).cons (w := .deleteFrom) (by decide)
  obtain ⟨hfilter, hled⟩ := Filter.emits_option hfilter
  exact htable.append hfilter fun _ => hled

/-- A statement that compiles binds what it has to bind, in reading order. -/
theorem Statement.emits {s : Statement} (h : s.compile.exec q d = (.ok ts, d')) :
    Emits q d s.bindables ts d' := by
  cases s with
  | select query => exact Query.emits h
  | insert table rows => exact emits_insert h
  | update table assignments filter => exact emits_update h
  | delete table filter => exact emits_delete h
  | raw fragment => exact .expand h

/-- The result of a compiler is the text of tokens that are built from its next number on. -/
theorem Compiler.exec_of_compile {c c' : Compiler} {s : Statement} {out : Compiled}
    (h : c.compile s = (.ok out, c')) :
    ∃ ts, s.compile.exec c.quoter { next := c.next } = (.ok ts, ⟨out.binds, c'.next⟩) ∧
      out.sql = Sql.render ts ∧ c'.quoter = c.quoter := by
  rw [Compiler.compile] at h
  split at h
  · next ts draft hdraft =>
    simp only [Prod.mk.injEq, Except.ok.injEq] at h
    obtain ⟨rfl, rfl⟩ := h
    exact ⟨ts, hdraft, rfl, rfl⟩
  · simp at h

/-- The result of a compiler: the text of what the statement emits, and a compiler that has counted
the names made for its values. -/
theorem Compiler.compile_ok {c c' : Compiler} {s : Statement} {out : Compiled}
    (h : c.compile s = (.ok out, c')) :
    ∃ ts, Emits c.quoter { next := c.next } s.bindables ts ⟨out.binds, c'.next⟩ ∧
      out.sql = Sql.render ts ∧ c'.quoter = c.quoter := by
  obtain ⟨ts, hexec, hsql, hquoter⟩ := Compiler.exec_of_compile h
  exact ⟨ts, Statement.emits hexec, hsql, hquoter⟩

end BoundSql
