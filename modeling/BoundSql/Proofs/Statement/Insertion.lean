import BoundSql.Proofs.Fragment.Expansion
import BoundSql.Proofs.Statement.Emission

/-!
# The rows of an insertion

The rows of an insertion may have different columns in different orders. The statement lists all
columns once, and in each row one item for each of them, which is what the row has in this column:
nothing, a value under a name of its own, or what a fragment computes.

* `Keeps`: that later parts of a statement displace no value for which a name was made;
* `exists_tuple_texts`: the items of a row;
* `insert_aligned`: when an insertion compiles, and what its text then is.
-/

namespace BoundSql

open Sql (Token Tokens)

/-- Whether no parameter of a fragment has a name that could be made for a value. -/
def Fragment.AvoidsMade (f : Fragment) : Prop :=
  ∀ param ∈ f.params, ∀ n, param.1 ≠ Sql.placeholderName n

/-- Whether no parameter of a fragment among the rows has a name that could be made for a value. -/
def Assignments.AvoidMade (rows : List Assignments) : Prop :=
  ∀ row ∈ rows, ∀ column f, row.get? column = some (.fragment f) → f.AvoidsMade

namespace Assignment

/-- Whether a name is made for what an inserted row has in a column. -/
def isBound : Option Assignment → Bool
  | some (value v) => !v.isNull
  | _ => false

/-- Whether a text is what an inserted row has in a column: no value if the column is missing or
null, a name under which the value is bound, or an expanded fragment. -/
def IsItem (q : Sql.Quoter) (binds : BindMap) : Option Assignment → String → Prop
  | none, text => text = "NULL"
  | some (value v), text => if v.isNull then text = "NULL" else binds.get? text = some v.bind
  | some (fragment f), text => (f.expand q).map Sql.render = .ok text

end Assignment

/-- The items of an inserted row for which names are made. -/
def Assignments.madeTexts (columns : List String) (row : Assignments) (texts : List String) :
    List String :=
  ((columns.zip texts).filter fun item => Assignment.isBound (row.get? item.1)).map Prod.snd

/-- The text of an inserted row. -/
def tupleText (texts : List String) : String := "(" ++ ", ".intercalate texts ++ ")"

/-- The columns of rows, each where it first comes up. -/
def Assignments.columnNames (rows : List Assignments) : List String :=
  (rows.flatMap Keyed.keys).eraseDups

/-- The text of an insertion, by its table, its columns and its rows. -/
structure IsInsertion (c c' : Compiler) (table : String) (rows : List Assignments) (out : Compiled)
    (target : String) (names : List String) (tuples : List (List String)) : Prop where
  /-- The text lists the columns and the rows. -/
  text : out.sql = "INSERT INTO " ++ target ++ " (" ++ ", ".intercalate names ++ ") VALUES " ++
    ", ".intercalate (tuples.map tupleText)
  /-- The table is quoted. -/
  head : (c.quoter.table table).map Sql.render = .ok target
  /-- The columns are those of the rows, quoted. -/
  columns : List.Forall₂ (fun column name => (c.quoter.column column).map Sql.render = .ok name)
    (Assignments.columnNames rows) names
  /-- There is one tuple for each row, and in it one item for each column. -/
  items : List.Forall₂ (fun row => List.Forall₂ (fun column =>
      Assignment.IsItem c.quoter out.binds (row.get? column)) (Assignments.columnNames rows))
    rows tuples
  /-- The names that are made are new, and each stands in one place. -/
  made : (rows.zip tuples).flatMap (fun pair =>
      pair.1.madeTexts (Assignments.columnNames rows) pair.2) =
    Sql.labels c.next (c'.next - c.next)

/-! ### Columns -/

/-- The columns of a statement are those of its rows. -/
theorem Assignments.allColumns_eq (rows : List Assignments) :
    allColumns rows = columnNames rows := by
  rw [allColumns, columnNames]
  generalize rows.flatMap Keyed.keys = keys
  -- A column is added at the end unless it is there.
  induction keys using List.reverseRecOn with
  | nil => rfl
  | append_singleton keys column ih =>
    rw [List.foldl_append, ih, List.eraseDups_append]
    by_cases h : column ∈ keys
    · simp [h, List.removeAll]
    · simp [h, List.removeAll, List.eraseDups_cons]

/-! ### Texts -/

/-- A word has no label. -/
theorem Sql.filterMap_label?_word (w : Word) (ts : Tokens) :
    (Token.word w :: ts).filterMap Token.label? = ts.filterMap Token.label? :=
  List.filterMap_cons_none rfl

/-- The labels of parts with a word between them. -/
theorem Sql.filterMap_label?_joinWith (w : Word) (parts : List Tokens) :
    (joinWith w parts).filterMap Token.label? =
      parts.flatMap fun part => part.filterMap Token.label? := by
  fun_induction joinWith w parts with
  | case1 => rfl
  | case2 part => simp
  | case3 part rest hrest ih =>
    rw [List.filterMap_append, List.flatMap_cons, filterMap_label?_word, ← ih]

/-! ### Values keep their names -/

/-- A draft that has grown without displacing a value for which a name was made. -/
structure Draft.Keeps (d d' : Draft) : Prop where
  /-- The numbers go on. -/
  next : d.next ≤ d'.next
  /-- What was bound under a name that was made is still bound under it. -/
  binds : ∀ k < d.next, d'.binds.get? (Sql.placeholderName k) = d.binds.get? (Sql.placeholderName k)

namespace Draft.Keeps

variable {d d₁ d₂ : Draft}

theorem refl (d : Draft) : d.Keeps d := ⟨Nat.le_refl _, fun _ _ => rfl⟩

theorem trans (h : d.Keeps d₁) (h' : d₁.Keeps d₂) : d.Keeps d₂ :=
  ⟨h.next.trans h'.next, fun k hk => (h'.binds k (hk.trans_le h.next)).trans (h.binds k hk)⟩

/-- Names that are made are new, and no fragment has one of them. -/
theorem ne_of_mem_bindingsFrom {bs : List Bindable} (h : ∀ f, .fragment f ∈ bs → f.AvoidsMade)
    {n k : Nat} (hk : k < n) : ∀ pair ∈ bindingsFrom n bs, pair.1 ≠ Sql.placeholderName k := by
  induction bs generalizing n with
  | nil => simp [bindingsFrom]
  | cons b bs ih =>
    intro pair hpair
    rcases List.mem_append.1 hpair with hfirst | hrest
    · cases b with
      | value v =>
        obtain rfl := List.mem_singleton.1 hfirst
        exact fun heq => hk.ne (Sql.placeholderName_injective heq).symm
      | fragment f =>
        obtain ⟨param, hparam, rfl⟩ := List.mem_map.1 hfirst
        exact h f (by simp) param hparam k
    · exact ih (fun f hf => h f (List.mem_cons_of_mem b hf)) (Nat.lt_add_right _ hk) pair hrest

/-- Binding things keeps the values for which names were made. -/
theorem takeAll {bs : List Bindable} (h : ∀ f, .fragment f ∈ bs → f.AvoidsMade) (d : Draft) :
    d.Keeps (d.takeAll bs) := by
  refine ⟨by rw [d.takeAll_next]; exact Nat.le_add_right _ _, fun k hk => ?_⟩
  have hnone : Keyed.get? (Sql.placeholderName k) (bindingsFrom d.next bs).reverse = none := by
    rw [Option.eq_none_iff_forall_not_mem]
    intro value hvalue
    obtain ⟨pair, hpair, hname, -⟩ := Keyed.exists_mem_of_get? hvalue
    exact ne_of_mem_bindingsFrom h hk pair (List.mem_reverse.1 hpair) hname
  rw [d.takeAll_binds, Keyed.get?_putAll, hnone, Option.none_or]

end Draft.Keeps

/-! ### Rows -/

variable {q : Sql.Quoter} {d d' d₁ : Draft} {ts : Tokens}

/-- What a run over parts gives, one by one, when each part keeps what was bound before it. -/
theorem Build.forall₂_of_mapM {α β : Type} {f : α → Build β} {as : List α} {bs : List β}
    (hf : ∀ a ∈ as, ∀ d b d₁, (f a).exec q d = (.ok b, d₁) → d.Keeps d₁)
    (h : (as.mapM f).exec q d = (.ok bs, d')) :
    d.Keeps d' ∧
      List.Forall₂ (fun a b => ∃ d₁ d₂, (f a).exec q d₁ = (.ok b, d₂) ∧ d₂.Keeps d') as bs := by
  induction as generalizing d bs with
  | nil =>
    obtain ⟨rfl, rfl⟩ := Build.exec_mapM_nil_ok.1 h
    exact ⟨.refl d, .nil⟩
  | cons a as ih =>
    obtain ⟨b, d₁, hb, rest, hrest, rfl⟩ := Build.exec_mapM_cons_ok.1 h
    obtain ⟨hkeeps, hall⟩ := ih (fun a ha => hf a (List.mem_cons_of_mem _ ha)) hrest
    exact ⟨(hf a (by simp) d b d₁ hb).trans hkeeps, .cons ⟨d, d₁, hb, hkeeps⟩ hall⟩

/-- An item is what the row has in the column, and has a label if a name is made for it. -/
theorem Assignment.isItem {item : Option Assignment}
    (h : (compileItem item).exec q d = (.ok ts, d₁)) (hkeeps : d₁.Keeps d') :
    IsItem q d'.binds item (Sql.render ts) ∧
      ts.filterMap Token.label? = if isBound item then [Sql.render ts] else [] := by
  rcases item with _ | v | f
  · obtain ⟨rfl, rfl⟩ := Build.exec_pure_ok.1 h
    exact ⟨rfl, rfl⟩
  · rw [compileItem] at h
    rw [IsItem, isBound]
    split at h
    · next hnull =>
      obtain ⟨rfl, rfl⟩ := Build.exec_pure_ok.1 h
      rw [if_pos hnull]
      exact ⟨rfl, by simp [hnull, Token.label?]⟩
    · next hnull =>
      simp only [Build.exec_bind_ok, Build.exec_pure_ok, Build.exec_pushValue_ok] at h
      obtain ⟨_, _, ⟨rfl, rfl⟩, rfl, rfl⟩ := h
      have htext : Sql.render [.parameter (Sql.placeholderName d.next)] =
          Sql.placeholderName d.next := by simp [Sql.render_cons, Token.text]
      -- The value is bound under the name here, and nothing displaces it later.
      have hbound := hkeeps.binds d.next (Nat.lt_succ_self _)
      rw [if_neg hnull, htext, hbound]
      exact ⟨Keyed.get?_put_self _ _ _, by simp [hnull, Token.label?]⟩
  · obtain ⟨hexpand, rfl⟩ := Build.exec_expand_ok.1 h
    refine ⟨?_, Fragment.filterMap_label?_expandPieces hexpand⟩
    rw [IsItem, hexpand]
    rfl

/-- Only what a fragment computes binds a fragment. -/
theorem Assignment.eq_of_fragment_mem {item : Option Assignment} {f : Fragment}
    (h : .fragment f ∈ itemBindables item) : item = some (.fragment f) := by
  rcases item with _ | v | g
  · cases h
  · rw [itemBindables] at h
    split at h
    · cases h
    · simp at h
  · simp only [itemBindables, List.mem_singleton, Bindable.fragment.injEq] at h
    rw [h]

/-- An inserted row keeps the values for which names were made. -/
theorem Assignments.keeps_tuple {columns : List String} {row : Assignments}
    (havoid : ∀ column f, row.get? column = some (.fragment f) → f.AvoidsMade)
    (h : (compileTuple columns row).exec q d = (.ok ts, d₁)) : d.Keeps d₁ := by
  rw [(emits_tuple h).draft]
  refine .takeAll (fun f hf => ?_) d
  obtain ⟨column, -, hcolumn⟩ := List.mem_flatMap.1 hf
  exact havoid column f (Assignment.eq_of_fragment_mem hcolumn)

/-- The labels among items are those for which names are made. -/
theorem Assignments.flatMap_label?_items {columns : List String} {row : Assignments}
    {items : List Tokens}
    (h : List.Forall₂ (fun column item => item.filterMap Token.label? =
      if Assignment.isBound (row.get? column) then [Sql.render item] else []) columns items) :
    (items.flatMap fun item => item.filterMap Token.label?) =
      row.madeTexts columns (items.map Sql.render) := by
  induction h with
  | nil => rfl
  | @cons column item columns items hitem hall ih =>
    rw [List.flatMap_cons, hitem, ih, madeTexts, madeTexts, List.map_cons, List.zip_cons_cons,
      List.filter_cons]
    split <;> rfl

/-- A row has one item for each column, and its labels are the items for which names are made. -/
theorem Assignments.exists_tuple_texts {columns : List String} {row : Assignments}
    (havoid : ∀ column f, row.get? column = some (.fragment f) → f.AvoidsMade)
    (h : (compileTuple columns row).exec q d = (.ok ts, d₁)) (hkeeps : d₁.Keeps d') :
    ∃ texts, Sql.render ts = tupleText texts ∧
      List.Forall₂ (fun column => Assignment.IsItem q d'.binds (row.get? column)) columns texts ∧
      ts.filterMap Token.label? = row.madeTexts columns texts := by
  simp only [compileTuple, Build.exec_bind_ok, Build.exec_pure_ok] at h
  obtain ⟨items, _, hitems, rfl, rfl⟩ := h
  have hkeep : ∀ column ∈ columns, ∀ d b d₁,
      (Assignment.compileItem (row.get? column)).exec q d = (.ok b, d₁) → d.Keeps d₁ := by
    intro column _ d b d₁ hb
    rw [(Assignment.emits_item hb).draft]
    exact .takeAll (fun f hf => havoid column f (Assignment.eq_of_fragment_mem hf)) d
  have hall : List.Forall₂ (fun column item =>
      Assignment.IsItem q d'.binds (row.get? column) (Sql.render item) ∧
        item.filterMap Token.label? =
          if Assignment.isBound (row.get? column) then [Sql.render item] else []) columns items :=
    (Build.forall₂_of_mapM hkeep hitems).2.imp fun column item ⟨_, _, hitem, hlater⟩ =>
      Assignment.isItem hitem (hlater.trans hkeeps)
  refine ⟨items.map Sql.render, ?text, ?items, ?labels⟩
  case text =>
    rw [Sql.render_append, Sql.render_cons, Sql.render_joinWith, tupleText]
    rfl
  case items => exact List.forall₂_map_right_iff.2 (hall.imp fun _ _ h => h.1)
  case labels =>
    have hclose : [Token.word .closeParen].filterMap Token.label? = [] := rfl
    rw [List.filterMap_append, Sql.filterMap_label?_word, Sql.filterMap_label?_joinWith, hclose,
      List.append_nil]
    exact flatMap_label?_items (hall.imp fun _ _ h => h.2)

/-- The rows of an insertion have one tuple each, and its labels are the items for which names are
made, row by row. -/
theorem Assignments.exists_texts {columns : List String} {rows : List Assignments}
    {parts : List Tokens} (havoid : AvoidMade rows)
    (h : (rows.mapM (compileTuple columns)).exec q d = (.ok parts, d')) :
    ∃ tuples : List (List String), parts.map Sql.render = tuples.map tupleText ∧
      List.Forall₂ (fun row => List.Forall₂ (fun column =>
        Assignment.IsItem q d'.binds (row.get? column)) columns) rows tuples ∧
      (parts.flatMap fun part => part.filterMap Token.label?) =
        (rows.zip tuples).flatMap fun pair => pair.1.madeTexts columns pair.2 := by
  have hall := (Build.forall₂_of_mapM (fun row hrow _ _ _ => keeps_tuple (havoid row hrow)) h).2
  clear h
  induction hall with
  | nil => exact ⟨[], rfl, .nil, rfl⟩
  | @cons row part rows parts htuple hall ih =>
    obtain ⟨d₁, d₂, htuple, hkeeps⟩ := htuple
    obtain ⟨texts, htext, hitems, hlabels⟩ :=
      exists_tuple_texts (havoid row (by simp)) htuple hkeeps
    obtain ⟨tuples, htexts, htuples, hmade⟩ := ih fun row hrow => havoid row (by simp [hrow])
    refine ⟨texts :: tuples, ?_, .cons hitems htuples, ?_⟩
    · rw [List.map_cons, List.map_cons, htext, htexts]
    · rw [List.flatMap_cons, hlabels, hmade]
      rfl

/-- The text of an insertion that compiles. -/
theorem exists_isInsertion {c c' : Compiler} {table : String} {rows : List Assignments}
    {out : Compiled} (havoid : Assignments.AvoidMade rows)
    (h : c.compile (.insert table rows) = (.ok out, c')) :
    ∃ target names tuples, IsInsertion c c' table rows out target names tuples := by
  obtain ⟨ts, hexec, hsql, -⟩ := Compiler.exec_of_compile h
  have hemits := Statement.emits hexec
  have hcount : c'.next - c.next =
      (madeFor (Statement.insert table rows).bindables).length := by
    have hnext := congrArg Draft.next hemits.draft
    rw [Draft.takeAll_next] at hnext
    dsimp only at hnext
    omega
  have hlabels := hemits.labels
  rw [← hcount] at hlabels
  rw [Statement.compile, compileInsert] at hexec
  split at hexec
  · simp at hexec
  simp only [Build.exec_bind_ok, Build.exec_pure_ok, Build.exec_table_ok,
    Assignments.allColumns_eq] at hexec
  obtain ⟨target, _, ⟨htarget, rfl⟩, names, d₁, hnames, parts, d₂, hparts, rfl, rfl⟩ := hexec
  have hcolumns := (Build.forall₂_of_mapM (fun column _ d b d₁ hcolumn => by
    obtain ⟨-, rfl⟩ := Build.exec_column_ok.1 hcolumn
    exact .refl d) hnames).2
  obtain ⟨tuples, htexts, htuples, hmade⟩ := Assignments.exists_texts havoid hparts
  refine ⟨Sql.render target, names.map Sql.render, tuples, ⟨?text, ?head, ?columns, htuples, ?made⟩⟩
  case text =>
    rw [hsql, ← String.toList_inj]
    simp [Sql.render_append, Sql.render_cons, Sql.render_joinWith, htexts, Token.text,
      Sql.Word.text]
  case head => rw [htarget]; rfl
  case columns =>
    refine List.forall₂_map_right_iff.2 (hcolumns.imp ?_)
    rintro column name ⟨_, _, hname, -⟩
    rw [(Build.exec_column_ok.1 hname).1]
    rfl
  case made =>
    -- Labels stand in the rows only.
    have hhead : target.filterMap Token.label? = [] := (Sql.Inert.table htarget).labels
    have hnone : (names.flatMap fun name => name.filterMap Token.label?) = [] := by
      refine List.flatMap_eq_nil_iff.2 fun name hname => ?_
      obtain ⟨column, -, _, _, hcolumn⟩ := Build.exists_of_mem_mapM hnames hname
      exact (Sql.Inert.column (Build.exec_column_ok.1 hcolumn).1).labels
    rw [← hmade, ← hlabels]
    simp only [List.cons_append, List.append_assoc, List.filterMap_append,
      Sql.filterMap_label?_word, Sql.filterMap_label?_joinWith, hhead, hnone, List.nil_append]

/-! ### Insertions that compile -/

/-- An item can be built unless it is a fragment that is refused. -/
theorem Assignment.succeeds_item (item : Option Assignment) (d : Draft) :
    (compileItem item).Succeeds q d ↔ ∀ f, item = some (.fragment f) → ¬f.IsRefused q := by
  rcases item with _ | v | f
  · exact iff_of_true (Build.succeeds_pure _ d) (by simp)
  · refine iff_of_true ?_ (by simp)
    by_cases hnull : v.isNull
    · rw [compileItem, if_pos hnull]
      exact Build.succeeds_pure _ d
    · rw [compileItem, if_neg hnull]
      exact Build.succeeds_bind.2
        ⟨_, _, Build.exec_pushValue_ok.2 ⟨rfl, rfl⟩, Build.succeeds_pure _ _⟩
  · have hitem : (∀ g, some (fragment f) = some (.fragment g) → ¬g.IsRefused q) ↔
        ¬f.IsRefused q := by simp
    rw [hitem, ← Fragment.isOk_expand, Bool.not_eq_false, isOk_iff_exists]
    constructor
    · rintro ⟨ts, d', h⟩
      exact ⟨ts, (Build.exec_expand_ok.1 h).1⟩
    · rintro ⟨ts, h⟩
      exact ⟨ts, _, Build.exec_expand_ok.2 ⟨h, rfl⟩⟩

/-- A row can be built unless a fragment in one of the columns is refused. -/
theorem Assignments.succeeds_tuple (columns : List String) (row : Assignments) (d : Draft) :
    (compileTuple columns row).Succeeds q d ↔
      ∀ column ∈ columns, ∀ f, row.get? column = some (.fragment f) → ¬f.IsRefused q := by
  rw [← Build.succeeds_mapM (fun column _ => Assignment.succeeds_item (row.get? column)) d,
    compileTuple, Build.succeeds_bind]
  constructor
  · rintro ⟨items, d₁, hitems, -⟩
    exact ⟨items, d₁, hitems⟩
  · rintro ⟨items, d₁, hitems⟩
    exact ⟨items, d₁, hitems, Build.succeeds_pure _ d₁⟩

/-- A statement compiles exactly if it can be built. -/
theorem Compiler.isOk_compile {c : Compiler} {s : Statement} :
    (c.compile s).1.isOk ↔ s.compile.Succeeds c.quoter { next := c.next } := by
  rw [Compiler.compile, Build.Succeeds]
  rcases s.compile.exec c.quoter { next := c.next } with ⟨_ | ts, d⟩
  · exact iff_of_false (by simp [Except.isOk, Except.toBool]) (by simp)
  · exact iff_of_true rfl ⟨ts, d, rfl⟩

/-- An insertion compiles exactly if there is a column and no name is rejected. -/
theorem isOk_compile_insert {c : Compiler} {table : String} {rows : List Assignments} :
    (c.compile (.insert table rows)).1.isOk ↔
      Assignments.columnNames rows ≠ [] ∧ (c.quoter.table table).isOk ∧
      (∀ column ∈ Assignments.columnNames rows, (c.quoter.column column).isOk) ∧
      ∀ row ∈ rows, ∀ column ∈ Assignments.columnNames rows, ∀ f,
        row.get? column = some (.fragment f) → ¬f.IsRefused c.quoter := by
  rw [Compiler.isOk_compile, Statement.compile, compileInsert]
  simp only [Assignments.allColumns_eq]
  generalize Assignments.columnNames rows = columns
  have hcolumns := Build.succeeds_mapM fun column (_ : column ∈ columns) =>
    Build.succeeds_column (q := c.quoter) column
  have hrows := Build.succeeds_mapM fun row (_ : row ∈ rows) =>
    Assignments.succeeds_tuple (q := c.quoter) columns row
  split
  · next hempty =>
    refine iff_of_false ?_ fun h => h.1 (List.isEmpty_iff.1 hempty)
    rintro ⟨ts, d, h⟩
    simp at h
  · next hne =>
    rw [List.isEmpty_iff] at hne
    constructor
    · rintro ⟨ts, d, h⟩
      simp only [Build.exec_bind_ok, Build.exec_table_ok] at h
      obtain ⟨target, _, ⟨htarget, rfl⟩, names, d₁, hnames, parts, d₂, hparts, -⟩ := h
      exact ⟨hne, isOk_iff_exists.2 ⟨target, htarget⟩, (hcolumns _).1 ⟨names, d₁, hnames⟩,
        (hrows _).1 ⟨parts, d₂, hparts⟩⟩
    · rintro ⟨-, htable, hnames, hparts⟩
      obtain ⟨target, htarget⟩ := isOk_iff_exists.1 htable
      obtain ⟨names, d₁, hnames⟩ := (hcolumns { next := c.next }).2 hnames
      obtain ⟨parts, d₂, hparts⟩ := (hrows d₁).2 hparts
      exact Build.succeeds_bind.2 ⟨target, _, Build.exec_table_ok.2 ⟨htarget, rfl⟩,
        Build.succeeds_bind.2 ⟨names, d₁, hnames,
          Build.succeeds_bind.2 ⟨parts, d₂, hparts, Build.succeeds_pure _ d₂⟩⟩⟩

/-- The columns of rows are those of one of the rows. -/
theorem Assignments.mem_columnNames {rows : List Assignments} {column : String} :
    column ∈ columnNames rows ↔ ∃ row ∈ rows, column ∈ Keyed.keys row := by
  rw [columnNames, List.mem_eraseDups, List.mem_flatMap]

/-- Rows have no columns exactly if they are empty. -/
theorem Assignments.columnNames_eq_nil_iff {rows : List Assignments} :
    columnNames rows = [] ↔ ∀ row ∈ rows, row = [] := by
  simp only [List.eq_nil_iff_forall_not_mem, mem_columnNames, not_exists, not_and]
  constructor
  · rintro h row hrow entry hentry
    exact h entry.1 row hrow (List.mem_map_of_mem hentry)
  · rintro h column row hrow hcolumn
    obtain ⟨entry, hentry, -⟩ := List.mem_map.1 hcolumn
    exact h row hrow entry hentry

/-- An insertion fails exactly if no row has a column or a name is rejected, be it that of the
table, that of a column or one at a marker of a fragment. If it succeeds, it lists the columns of
the rows, each once, and for each row one tuple with one item for each column: no value where the
row has none, the expanded fragment, or else a new name under which this value is bound. -/
theorem insert_aligned {c : Compiler} {table : String} {rows : List Assignments}
    (havoid : Assignments.AvoidMade rows) :
    ((c.compile (.insert table rows)).1.isOk = false ↔
      (∀ row ∈ rows, row = []) ∨ (c.quoter.table table).isOk = false ∨
      (∃ row ∈ rows, ∃ column ∈ Keyed.keys row, (c.quoter.column column).isOk = false) ∨
      ∃ row ∈ rows, ∃ column f, row.get? column = some (.fragment f) ∧ f.IsRefused c.quoter) ∧
    ∀ out c', c.compile (.insert table rows) = (.ok out, c') →
      ∃ target names tuples, IsInsertion c c' table rows out target names tuples := by
  refine ⟨?failure, fun out c' => exists_isInsertion havoid⟩
  rw [← Bool.not_eq_true, isOk_compile_insert]
  simp only [ne_eq, not_and_or, not_forall, not_not, Bool.not_eq_true, exists_prop,
    Assignments.columnNames_eq_nil_iff, Assignments.mem_columnNames]
  refine or_congr ?empty (or_congr Iff.rfl (or_congr ?columns ?fragments))
  case empty => simp only [not_exists, not_and, not_not]
  case columns =>
    constructor
    · rintro ⟨column, ⟨row, hrow, hcolumn⟩, hname⟩
      exact ⟨row, hrow, column, hcolumn, hname⟩
    · rintro ⟨row, hrow, column, hcolumn, hname⟩
      exact ⟨column, ⟨row, hrow, hcolumn⟩, hname⟩
  case fragments =>
    constructor
    · rintro ⟨row, hrow, column, -, f, hf, hrefused⟩
      exact ⟨row, hrow, column, f, hf, hrefused⟩
    · rintro ⟨row, hrow, column, f, hf, hrefused⟩
      obtain ⟨entry, hentry, rfl, -⟩ := Keyed.exists_mem_of_get? hf
      exact ⟨row, hrow, entry.1, ⟨row, hrow, List.mem_map_of_mem hentry⟩, f, hf, hrefused⟩

/-- Two rows that share one column and have no value in it. -/
theorem insert_aligned_ragged :
    let c : Compiler := { quoter := { tablePrefix := "app_" }, next := 3 }
    let rows : List Assignments :=
      [[("a", .value (.int 1)), ("b", .value .null)],
       [("b", .fragment ⟨"<a> + :x", [(":x", .int 7)]⟩), ("c", .value (.int 2))]]
    let out : Compiled :=
      ⟨"INSERT INTO \"app_t\" (\"a\", \"b\", \"c\") VALUES " ++
        "(:ph3_b, NULL, NULL), (NULL, \"a\" + :x, :ph4_b)",
        [(":ph3_b", ⟨.int, .int 1⟩), (":x", ⟨.int, .int 7⟩), (":ph4_b", ⟨.int, .int 2⟩)]⟩
    Assignments.AvoidMade rows ∧
      c.compile (.insert "t" rows) = (.ok out, { c with next := 5 }) ∧
      ∃ target names tuples,
        IsInsertion c { c with next := 5 } "t" rows out target names tuples := by
  intro c rows out
  have havoid : Assignments.AvoidMade rows := by
    intro row hrow column f hf
    obtain ⟨entry, hentry, -, hvalue⟩ := Keyed.exists_mem_of_get? hf
    have hfragment : f = ⟨"<a> + :x", [(":x", .int 7)]⟩ := by
      simp only [rows, List.mem_cons, List.not_mem_nil, or_false] at hrow
      rcases hrow with rfl | rfl
      all_goals
        simp only [List.mem_cons, List.not_mem_nil, or_false] at hentry
        rcases hentry with rfl | rfl <;> simp_all
    intro param hparam n hname
    rw [hfragment, List.mem_singleton] at hparam
    rw [hparam] at hname
    have hletters := congrArg String.toList hname
    simp [Sql.placeholderName] at hletters
  have h : c.compile (.insert "t" rows) = (.ok out, { c with next := 5 }) := by decide +kernel
  exact ⟨havoid, h, (insert_aligned havoid).2 out _ h⟩

end BoundSql
