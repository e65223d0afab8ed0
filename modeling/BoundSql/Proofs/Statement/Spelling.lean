import BoundSql.Proofs.Join.Spelling
import BoundSql.Proofs.Projection.Spelling

/-!
# What a statement spells out

Nothing of a specification gets into the text of a statement but checked names, in quotation marks,
and the numbers of a limit. The rest of the text is made of fixed words and of parameters with names
that the compiler makes.

* `Statement.names` and `Statement.numbers`: the names and numbers that a statement asks for, in the
  order in which they are written;
* `Statement.spells`: that a statement without fragments is made of these;
* `Compiler.spelling_of_isRawFree`: the same as seen from outside, in the segments of the text.
-/

namespace BoundSql

open Sql (Quoter Token Tokens)

/-- The names that a filter asks for that may be missing. -/
def Filter.optionNames (q : Quoter) (f : Option Filter) : List String := (f.map (names q)).getD []

/-- The numbers that a filter asks for that may be missing. -/
def Filter.optionNumbers (f : Option Filter) : List String := (f.map numbers).getD []

/-- The names that a query asks for: those of its columns, its table and alias, its joins and its
filter. Columns of joins without a table of their own belong to the alias, if there is one. -/
def Query.names (q : Quoter) (query : Query) : List String :=
  match Sql.splitAlias? (Text.trim query.table.toList) with
  | none => []
  | some (table, aliasName) =>
    let base := q.tablePrefix ++ String.ofList (aliasName.getD table)
    query.projection.names q ++
      ([q.tablePrefix ++ String.ofList table] ++ (aliasName.map fun _ => base).toList) ++
      Joins.names q base (query.joins.getD []) ++ Filter.optionNames q query.filter

namespace Statement

/-- The names that a statement asks for, in the order in which they are written. -/
def names (q : Quoter) : Statement → List String
  | select query => query.names q
  | insert table rows =>
    [q.tablePrefix ++ table] ++
      (Assignments.allColumns rows).flatMap fun column => (q.columnReference column).names
  | update table assignments filter =>
    [q.tablePrefix ++ table] ++
      assignments.flatMap (fun assignment => (q.columnReference assignment.1).names) ++
      Filter.optionNames q filter
  | delete table filter => [q.tablePrefix ++ table] ++ Filter.optionNames q filter
  | raw _ => []

/-- The numbers that a statement asks for: those of the limit of its filter. -/
def numbers : Statement → List String
  | select query => Filter.optionNumbers query.filter
  | insert _ _ => []
  | update _ _ filter => Filter.optionNumbers filter
  | delete _ filter => Filter.optionNumbers filter
  | raw _ => []

end Statement

variable {q : Quoter} {d d' : Draft} {ts : Tokens}

/-- A filter that may be missing spells its names and numbers. -/
theorem Filter.spells_option {f : Option Filter}
    (h : (Filter.compileOption f).exec q d = (.ok ts, d')) :
    Spells q (Filter.optionNames q f) (Filter.optionNumbers f) ts := by
  cases f with
  | none =>
    obtain ⟨rfl, rfl⟩ := Build.exec_pure_ok.1 h
    exact .nil
  | some f => exact Filter.spells h

/-- The numbers of a filter that may be missing are made of the characters of numbers. -/
theorem Filter.isPlainNumber_of_mem {f : Option Filter} {digits : String}
    (h : digits ∈ Filter.optionNumbers f) : Sql.IsPlainNumber digits.toList := by
  cases f with
  | none => cases h
  | some f =>
    rw [optionNumbers, Option.map_some, Option.getD_some, numbers] at h
    cases hlimit : f.limit with
    | none =>
      rw [hlimit] at h
      cases h
    | some limit =>
      rw [hlimit] at h
      exact Limit.isPlainNumber_of_mem h

/-- A query without fragments spells its names and numbers. -/
theorem Query.spells {query : Query} (hraw : query.projection.isRawFree)
    (h : query.compile.exec q d = (.ok ts, d')) :
    Spells q (query.names q) (Filter.optionNumbers query.filter) ts := by
  obtain ⟨name, aliasName, table, base, columns, joined, filter, d₁, d₂, hname, htable, hbase,
    hcolumns, hjoined, hfilter, rfl⟩ := Query.compile_ok h
  have hcolumns := (Projection.spells hraw hcolumns).cons .select
  have hbase := Spells.table hbase
  have hsource := (Spells.table htable).append (hbase.naming aliasName)
  have hhead := hcolumns.append (hsource.cons .source)
  have hall := (hhead.append (Joins.spells hbase hjoined)).append (Filter.spells_option hfilter)
  rw [Query.names, hname]
  exact hall

/-- An item of an inserted row that is a value spells nothing. -/
theorem Assignment.spells_item {item : Option Assignment} (hvalue : ∀ a ∈ item, a.isValue)
    (h : (Assignment.compileItem item).exec q d = (.ok ts, d')) : Spells q [] [] ts := by
  rcases item with _ | v | f
  · obtain ⟨rfl, rfl⟩ := Build.exec_pure_ok.1 h
    exact .word .null
  · rw [Assignment.compileItem] at h
    split at h
    · obtain ⟨rfl, rfl⟩ := Build.exec_pure_ok.1 h
      exact .word .null
    · simp only [Build.exec_bind_ok, Build.exec_pure_ok] at h
      obtain ⟨parameter, d₁, hparameter, rfl, rfl⟩ := h
      exact .of_pushValue hparameter
  · exact absurd (hvalue _ rfl) (by simp [Assignment.isValue])

/-- An inserted row of values spells nothing. -/
theorem Assignments.spells_tuple {columns : List String} {row : Assignments}
    (hvalue : ∀ item ∈ row, item.2.isValue)
    (h : (Assignments.compileTuple columns row).exec q d = (.ok ts, d')) : Spells q [] [] ts := by
  simp only [Assignments.compileTuple, Build.exec_bind_ok, Build.exec_pure_ok] at h
  obtain ⟨items, d₁, hitems, rfl, rfl⟩ := h
  have heach := SpellsEach.of_mapM_nil (fun column _ {_ _ _} hitem => ?_) hitems
  · exact (heach.joinWith .commaSpace).parenthesized
  · refine Assignment.spells_item (fun a ha => ?_) hitem
    obtain ⟨item, hmem, -, rfl⟩ := Keyed.exists_mem_of_get? ha
    exact hvalue item hmem

/-- An insertion of values spells its table and its columns. -/
theorem spells_insert {table : String} {rows : List Assignments}
    (hraw : (Statement.insert table rows).isRawFree)
    (h : (compileInsert table rows).exec q d = (.ok ts, d')) :
    Spells q ((Statement.insert table rows).names q) [] ts := by
  rw [Statement.isRawFree, List.all_eq_true] at hraw
  rw [compileInsert] at h
  split at h
  · exact absurd h (by simp)
  · simp only [Build.exec_bind_ok, Build.exec_table_ok, Build.exec_pure_ok] at h
    obtain ⟨tokens, _, ⟨htable, rfl⟩, names, d₁, hnames, tuples, d₂, htuples, rfl, rfl⟩ := h
    have hnames := (SpellsEach.of_mapM (fun _ _ {_ _ _} hname => .of_column hname) hnames).joinWith
      .commaSpace
    -- The rows bring parameters only, so that no names come behind those of the columns.
    have heach := SpellsEach.of_mapM_nil (fun row hrow {_ _ _} htuple =>
      Assignments.spells_tuple (List.all_eq_true.1 (hraw row hrow)) htuple) htuples
    have htuples := (heach.joinWith .commaSpace).cons .values
    have hhead := ((Spells.table htable).cons .insertInto).append (hnames.parenthesized.cons .space)
    have hall := hhead.append htuples
    simpa [Statement.names] using hall

/-- An assignment of a value spells its column. -/
theorem Assignment.spells {column : String} {a : Assignment} (hvalue : a.isValue)
    (h : (a.compile column).exec q d = (.ok ts, d')) :
    Spells q (q.columnReference column).names [] ts := by
  rw [Assignment.compile, Build.exec_bind_ok] at h
  obtain ⟨name, d₁, hname, h⟩ := h
  cases a with
  | value v =>
    simp only [Build.exec_bind_ok, Build.exec_pure_ok] at h
    obtain ⟨parameter, d₂, hparameter, _, _, ⟨rfl, rfl⟩, rfl, rfl⟩ := h
    have hall := (Spells.of_column hname).infixed (.compare .equal) (.of_pushValue hparameter)
    rwa [List.append_nil] at hall
  | fragment f => exact absurd hvalue (by simp [Assignment.isValue])

/-- An update with values spells its table, its columns and its filter. -/
theorem spells_update {table : String} {assignments : Assignments} {filter : Option Filter}
    (hraw : (Statement.update table assignments filter).isRawFree)
    (h : (compileUpdate table assignments filter).exec q d = (.ok ts, d')) :
    Spells q ((Statement.update table assignments filter).names q)
      (Filter.optionNumbers filter) ts := by
  rw [Statement.isRawFree, List.all_eq_true] at hraw
  rw [compileUpdate] at h
  split at h
  · exact absurd h (by simp)
  · simp only [Build.exec_bind_ok, Build.exec_table_ok, Build.exec_pure_ok] at h
    obtain ⟨tokens, _, ⟨htable, rfl⟩, sets, d₁, hsets, filter, d₂, hfilter, rfl, rfl⟩ := h
    have hsets := (SpellsEach.of_mapM (fun a ha {_ _ _} hset =>
      Assignment.spells (hraw a ha) hset) hsets).joinWith .commaSpace
    have hhead := ((Spells.table htable).cons .update).append (hsets.cons .assignments)
    exact hhead.append (Filter.spells_option hfilter)

/-- A deletion spells its table and its filter. -/
theorem spells_delete {table : String} {filter : Option Filter}
    (h : (compileDelete table filter).exec q d = (.ok ts, d')) :
    Spells q ((Statement.delete table filter).names q) (Filter.optionNumbers filter) ts := by
  simp only [compileDelete, Build.exec_bind_ok, Build.exec_table_ok, Build.exec_pure_ok] at h
  obtain ⟨tokens, _, ⟨htable, rfl⟩, filter, d₁, hfilter, rfl, rfl⟩ := h
  exact ((Spells.table htable).cons .deleteFrom).append (Filter.spells_option hfilter)

/-- A statement without fragments spells its names and numbers. -/
theorem Statement.spells {s : Statement} (hraw : s.isRawFree)
    (h : s.compile.exec q d = (.ok ts, d')) : Spells q (s.names q) s.numbers ts := by
  cases s with
  | select query => exact Query.spells hraw h
  | insert table rows => exact spells_insert hraw h
  | update table assignments filter => exact spells_update hraw h
  | delete table filter => exact spells_delete h
  | raw fragment => cases hraw

/-- The numbers of a statement are made of the characters of numbers. -/
theorem Statement.isPlainNumber_of_mem {s : Statement} {digits : String} (h : digits ∈ s.numbers) :
    Sql.IsPlainNumber digits.toList := by
  cases s with
  | select query => exact Filter.isPlainNumber_of_mem h
  | insert table rows => cases h
  | update table assignments filter => exact Filter.isPlainNumber_of_mem h
  | delete table filter => exact Filter.isPlainNumber_of_mem h
  | raw fragment => cases h

/-- The text of a compiled statement without fragments is made of four kinds of pieces only: the
names that the statement asks for, in its order and each let through by the quoter, in quotation
marks; parameters with names that the compiler makes; fixed words; and the numbers of the limit. -/
theorem Compiler.spelling_of_isRawFree {c c' : Compiler} {s : Statement} {out : Compiled}
    (hq : '"' ∉ c.quoter.tablePrefix.toList) (hraw : s.isRawFree)
    (h : c.compile s = (.ok out, c')) :
    Sql.quotedNames out.sql = s.names c.quoter ∧
      (∀ name ∈ Sql.quotedNames out.sql, c.quoter.Allows name) ∧
      (∀ chars, .text chars ∈ Sql.segments out.sql → Sql.InVocabulary s.numbers chars) ∧
      (∀ digits ∈ s.numbers, Sql.IsPlainNumber digits.toList) ∧
      ∀ label ∈ Sql.placeholders out.sql, ∃ n, label = Sql.placeholderName n := by
  obtain ⟨ts, hexec, hsql, -⟩ := Compiler.exec_of_compile h
  -- What the tokens spell is found again in their text because they are sound.
  have hspells := Statement.spells hraw hexec
  have hemits := Statement.emits hexec
  have hsound := hemits.sound hq (Statement.bindables_of_isRawFree hraw)
  rw [hsql, Sql.quotedNames_render hsound, hspells.names_eq]
  refine ⟨rfl, hspells.allowed, fun chars hmem => ?text, fun _ => Statement.isPlainNumber_of_mem,
    fun label hmem => ?label⟩
  case text =>
    rw [← hspells.numbers_eq]
    exact Sql.inVocabulary_of_mem_segments hsound hmem
  case label =>
    rw [Sql.placeholders_render hsound, hemits.labels] at hmem
    obtain ⟨n, -, rfl⟩ := List.mem_map.1 hmem
    exact ⟨n, rfl⟩

/-- A query with an alias, a join, an empty list, marks in names and quotation marks in a value. -/
theorem Compiler.spelling_of_query :
    let c : Compiler := { quoter := ⟨"p_"⟩ }
    let s : Statement := .select
      { table := " users (u)",
        joins := some [("posts", .shared ["x"]), ("[>]posts(p)", .on [.pair "id" "user_id"])],
        projection := .columns [.name "u.id", .group none [.name "p.title(head$line)"]],
        filter := some
          { conditions := [.among "gone" [], .equals "u.na@me" (.str "a\"'--b")],
            order := [⟨"u.id", some .descending⟩],
            limit := some (.range (.int 5) (.str " 10 ")) } }
    let sql := "SELECT \"p_u\".\"id\",\"p_p\".\"title\" AS \"head$line\" FROM \"p_users\" AS " ++
      "\"p_u\" LEFT JOIN \"p_posts\" AS \"p_p\" ON \"p_u\".\"id\" = \"p_p\".\"user_id\" WHERE " ++
      "1=0 AND \"p_u\".\"na@me\" = :ph0_b ORDER BY \"p_u\".\"id\" DESC LIMIT 10 OFFSET 5"
    c.compile s = (.ok ⟨sql, [(":ph0_b", ⟨.str, .str "a\"'--b"⟩)]⟩, { c with next := 1 }) ∧
      Sql.quotedNames sql =
        ["p_u", "id", "p_p", "title", "head$line", "p_users", "p_u", "p_posts", "p_p", "p_u", "id",
          "p_p", "user_id", "p_u", "na@me", "p_u", "id"] ∧
      ∀ chars, .text chars ∈ Sql.segments sql → Sql.InVocabulary ["10", "5"] chars := by
  intro c s sql
  have h : c.compile s =
      (.ok ⟨sql, [(":ph0_b", ⟨.str, .str "a\"'--b"⟩)]⟩, { c with next := 1 }) := by decide +kernel
  have hall := Compiler.spelling_of_isRawFree (by decide) (by decide) h
  exact ⟨h, hall.1.trans (by decide +kernel), hall.2.2.1⟩

end BoundSql
