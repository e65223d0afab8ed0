import BoundSql.Proofs.Building.Blind
import BoundSql.Proofs.Statement.Emission
import BoundSql.Proofs.Statement.Steady

/-!
# Values that are out of sight

The text of a statement must not depend on the values that are bound in it. What is left of a
statement when its values are hidden is its mask: where a null is written out and not bound, in an
equality and in an inserted row, the mask still tells nulls from other values, and everywhere else
it tells nothing of a value at all. Compiling sees no more of a statement than its mask.

* `Statement.masked`: a statement with its values hidden;
* `Statement.blind`: a statement is built like its mask;
* `Compiler.compile_of_masked_eq`: statements of one mask are refused alike or have the same text,
  the same names and the same next number.
-/

namespace BoundSql

open Build (Blind)
open Sql (Token Tokens Word)

/-- A value of which nothing is left but whether it is null. -/
def Value.nullness (v : Value) : Value := if v.isNull then .null else .int 0

/-- A fragment with the values of its parameters hidden. -/
def Fragment.masked (f : Fragment) : Fragment :=
  { f with params := f.params.map fun param => (param.1, .null) }

mutual

/-- A condition with its values hidden. Equality with null is another test than with a value. -/
def Condition.masked : Condition → Condition
  | .equals column value => .equals column value.nullness
  | .among column values => .among column (values.map fun _ => .null)
  | .compares column op _ => .compares column op .null
  | .columns left op right => .columns left op right
  | .group connective label conditions =>
    .group connective label (Condition.allMasked conditions)

/-- Conditions with their values hidden. -/
def Condition.allMasked : List Condition → List Condition
  | [] => []
  | condition :: rest => condition.masked :: Condition.allMasked rest

end

/-- A filter with the values of its conditions hidden. The limit is written out and stays. -/
def Filter.masked (f : Filter) : Filter :=
  { f with
    conditions := Condition.allMasked f.conditions, having := Condition.allMasked f.having }

mutual

/-- A column with the values of its fragments hidden. -/
def Column.masked : Column → Column
  | .name written => .name written
  | .expression aliasName fragment => .expression aliasName fragment.masked
  | .group key columns => .group key (Column.allMasked columns)

/-- Columns with the values of their fragments hidden. -/
def Column.allMasked : List Column → List Column
  | [] => []
  | column :: rest => column.masked :: Column.allMasked rest

end

/-- A projection with the values of its fragments hidden. -/
def Projection.masked : Projection → Projection
  | .all => .all
  | .columns items => .columns (Column.allMasked items)

namespace Assignment

/-- An assignment of an update with its values hidden. A null is bound like any other value. -/
def masked : Assignment → Assignment
  | value _ => .value .null
  | fragment f => .fragment f.masked

/-- An item of an inserted row with its values hidden. A null is written out. -/
def itemMasked : Assignment → Assignment
  | value v => .value v.nullness
  | fragment f => .fragment f.masked

end Assignment

/-- An inserted row with its values hidden. -/
def Assignments.rowMasked (row : Assignments) : Assignments :=
  row.map fun item => (item.1, item.2.itemMasked)

/-- A statement with all its values hidden. -/
def Statement.masked : Statement → Statement
  | .select query =>
    .select { query with
      projection := query.projection.masked, filter := query.filter.map Filter.masked }
  | .insert table rows => .insert table (rows.map Assignments.rowMasked)
  | .update table assignments filter =>
    .update table (assignments.map fun item => (item.1, item.2.masked))
      (filter.map Filter.masked)
  | .delete table filter => .delete table (filter.map Filter.masked)
  | .raw fragment => .raw fragment.masked

variable {q : Sql.Quoter}

theorem Value.isNull_nullness (v : Value) : v.nullness.isNull = v.isNull := by
  rw [nullness]
  split
  · next h => rw [h]; rfl
  · next h => simpa [isNull] using h

/-- A fragment is expanded like its mask. -/
theorem Fragment.blind (f : Fragment) : Blind q (Build.expand f) (Build.expand f.masked) :=
  Build.blind_expand rfl (Keyed.keys_map (fun _ => Value.null) f.params).symm

namespace Build.Blind

/-- Runs over one list are blind if they are at each place. -/
theorem mapM_same {α β : Type} {f f' : α → Build β} {as : List α}
    (h : ∀ a ∈ as, Blind q (f a) (f' a)) : Blind q (as.mapM f) (as.mapM f') := by
  have hall := Blind.mapM (g := id) h
  rwa [List.map_id] at hall

/-- A clause is blind if its body is, and if both sides have it or lack it. -/
theorem clause {α : Type} {items items' : List α} {body body' : List α → Build Tokens}
    (head : Word) (hempty : items.isEmpty = items'.isEmpty)
    (h : Blind q (body items) (body' items')) :
    Blind q (BoundSql.clause head items body) (BoundSql.clause head items' body') := by
  rw [BoundSql.clause, BoundSql.clause, hempty]
  split
  · exact .pure []
  · exact h.bind fun ts _ _ _ => .pure _

end Build.Blind

mutual

/-- A condition is built like its mask. -/
theorem Condition.blind : ∀ c : Condition, Blind q c.compile c.masked.compile
  | .group connective label conditions => by
    rw [Condition.masked, Condition.compile, Condition.compile]
    exact .bind (Condition.allBlind connective conditions) fun _ _ _ _ => .pure _
  | .columns left op right => by
    rw [Condition.masked, Condition.compile]
    refine .bind (Build.blind_column left) fun _ _ _ _ => ?_
    exact .bind (Build.blind_column right) fun _ _ _ _ => .pure _
  | .equals column value => by
    rw [Condition.masked, Condition.compile, Condition.compile, Value.isNull_nullness]
    refine .bind (Build.blind_column column) fun _ _ _ _ => ?_
    -- Both sides test for null, or both bind a value.
    split
    · exact .pure _
    · exact .bind (Build.blind_pushValue _ _) fun _ _ _ _ => .pure _
  | .compares column op value => by
    rw [Condition.masked, Condition.compile, Condition.compile]
    refine .bind (Build.blind_column column) fun _ _ _ _ => ?_
    exact .bind (Build.blind_pushValue _ _) fun _ _ _ _ => .pure _
  | .among column [] => by
    rw [Condition.masked, List.map_nil, Condition.compile]
    exact .bind (Build.blind_column column) fun _ _ _ _ => .pure _
  | .among column (v :: values) => by
    rw [Condition.masked, Condition.compile, Condition.compile]
    refine .bind (Build.blind_column column) fun _ _ _ _ => ?_
    -- A name is made for each value, so that nothing but their number is seen.
    refine .bind (Blind.mapM fun v _ => Build.blind_pushValue v _) fun _ _ _ _ => ?_
    exact .pure _

/-- Sibling conditions are built like their masks. -/
theorem Condition.allBlind (connective : Sql.Connective) : ∀ cs : List Condition,
    Blind q (Condition.compileAll connective cs)
      (Condition.compileAll connective (Condition.allMasked cs))
  | [] => .pure []
  | [c] => by
    rw [Condition.allMasked, Condition.allMasked, Condition.compileAll, Condition.compileAll]
    exact c.blind
  | c :: next :: rest => by
    have hrest := Condition.allBlind connective (next :: rest)
    refine .bind c.blind fun _ _ _ _ => ?_
    exact .bind hrest fun _ _ _ _ => .pure _

end

/-- A column to order by is seen. -/
theorem OrderItem.blind (item : OrderItem) : Blind q item.compile item.compile := by
  obtain ⟨column, direction⟩ := item
  refine .bind (Build.blind_column column) fun _ _ _ _ => ?_
  cases direction with
  | none => exact .pure _
  | some direction => exact .pure _

/-- A filter is built like its mask. -/
theorem Filter.blind (f : Filter) : Blind q f.compile f.masked.compile := by
  have hempty : ∀ cs : List Condition, cs.isEmpty = (Condition.allMasked cs).isEmpty := by
    intro cs
    cases cs with
    | nil => rfl
    | cons c cs => rfl
  have hconditions : ∀ (head : Word) (cs : List Condition),
      Blind q (clause head cs (Condition.compileAll .and))
        (clause head (Condition.allMasked cs) (Condition.compileAll .and)) :=
    fun head cs => .clause head (hempty cs) (Condition.allBlind .and cs)
  have hcolumns : ∀ {α : Type} (head : Word) (items : List α) (g : α → Build Tokens),
      (∀ a, Blind q (g a) (g a)) →
        Blind q (clause head items fun items => do return Sql.joinWith .comma (← items.mapM g))
          (clause head items fun items => do return Sql.joinWith .comma (← items.mapM g)) :=
    fun head items g hg => .clause head rfl <|
      .bind (.mapM_same fun a _ => hg a) fun _ _ _ _ => .pure _
  refine .bind (hconditions .conditions f.conditions) fun _ _ _ _ => ?_
  refine .bind (hcolumns .groupBy f.grouping _ Build.blind_column) fun _ _ _ _ => ?_
  refine .bind (hconditions .having f.having) fun _ _ _ _ => ?_
  refine .bind (hcolumns .orderBy f.order _ OrderItem.blind) fun _ _ _ _ => ?_
  exact .pure _

/-- A filter that may be missing is built like its mask. -/
theorem Filter.optionBlind (f : Option Filter) :
    Blind q (Filter.compileOption f) (Filter.compileOption (f.map Filter.masked)) := by
  cases f with
  | none => exact .pure []
  | some f => exact f.blind

/-- A name with an alias is seen. -/
theorem blind_withAlias (column : Tokens) (aliasName : Option String) :
    Blind q (withAlias column aliasName) (withAlias column aliasName) := by
  cases aliasName with
  | none => exact .pure column
  | some aliasName => exact .bind (Build.blind_column aliasName) fun _ _ _ _ => .pure _

mutual

/-- A column is built like its mask. -/
theorem Column.blind (inJoin : Bool) :
    ∀ c : Column, Blind q (c.compile inJoin) (c.masked.compile inJoin)
  | .name written => by
    rw [Column.masked, Column.compile]
    exact .of_steady (Column.steady_name inJoin written) [] Column.emits_name
  | .expression aliasName fragment => by
    rw [Column.masked, Column.compile, Column.compile]
    refine .bind (Build.blind_ofExcept _) fun parsed _ _ _ => ?_
    exact .bind fragment.blind fun tokens _ _ _ => blind_withAlias tokens _
  | .group key columns => by
    rw [Column.masked, Column.compile, Column.compile]
    exact .bind (Column.eachBlind inJoin columns) fun _ _ _ _ => .pure _

/-- Columns are built like their masks. -/
theorem Column.eachBlind (inJoin : Bool) : ∀ cs : List Column,
    Blind q (Column.compileEach inJoin cs) (Column.compileEach inJoin (Column.allMasked cs))
  | [] => .pure []
  | c :: rest => by
    rw [Column.allMasked, Column.compileEach, Column.compileEach]
    refine .bind (c.blind inJoin) fun _ _ _ _ => ?_
    exact .bind (Column.eachBlind inJoin rest) fun _ _ _ _ => .pure _

end

/-- Only a group with a key that stands alone has such a mask. -/
theorem Column.exists_of_allMasked_group {items inner : List Column} {key : Option String}
    (h : Column.allMasked items = [.group key inner]) : ∃ inner', items = [.group key inner'] := by
  match items with
  | [] => exact absurd h (by simp [Column.allMasked])
  | [.name written] => exact absurd h (by simp [Column.allMasked, Column.masked])
  | [.expression aliasName fragment] => exact absurd h (by simp [Column.allMasked, Column.masked])
  | [.group key' inner'] =>
    rw [Column.allMasked, Column.allMasked, Column.masked] at h
    obtain ⟨rfl, -⟩ := Column.group.inj (List.cons.inj h).1
    exact ⟨inner', rfl⟩
  | _ :: _ :: _ => exact absurd h (by simp [Column.allMasked])

/-- A list of columns is built like its mask. -/
theorem Column.listBlind (inJoin : Bool) (items : List Column) :
    Blind q (Column.compileList inJoin items)
      (Column.compileList inJoin (Column.allMasked items)) := by
  have hjoined : ∀ parts : List Tokens, Blind q
      (return Sql.joinWith .comma (parts.filter fun part => !part.isEmpty) : Build Tokens)
      (return Sql.joinWith .comma (parts.filter fun part => !part.isEmpty)) := fun _ => .pure _
  have heach : Blind q (Column.compileEach inJoin items)
      (Column.compileEach inJoin (Column.allMasked items)) := Column.eachBlind inJoin items
  unfold Column.compileList
  -- The key of a group that stands alone is seen; the mask of such a group stands alone as well.
  split
  · next key inner =>
    refine .bind (Build.blind_column key) fun _ _ _ _ => ?_
    refine .bind (Column.blind inJoin (.group none inner)) fun _ _ _ _ => ?_
    exact .bind (.pure _) fun parts _ _ _ => hjoined parts
  · next hkey =>
    split
    · next key inner hmasked =>
      obtain ⟨inner', hitems⟩ := Column.exists_of_allMasked_group hmasked
      exact absurd hitems (hkey key inner')
    · exact .bind heach fun parts _ _ _ => hjoined parts

/-- A projection is built like its mask. -/
theorem Projection.blind (inJoin : Bool) (p : Projection) :
    Blind q (p.compile inJoin) (p.masked.compile inJoin) := by
  cases p with
  | all => exact .pure _
  | columns items => exact Column.listBlind inJoin items

/-- Joined tables relate columns only and are seen. -/
theorem Joins.blind (joins : Joins) {name : String} {base : Tokens} (h : q.table name = .ok base) :
    Blind q (joins.compile base) (joins.compile base) :=
  .of_steady (Joins.steady joins) [] (Joins.emits (.table h))

/-- A query is built like its mask. -/
theorem Query.blind (query : Query) : Blind q query.compile
    ({ query with
      projection := query.projection.masked,
      filter := query.filter.map Filter.masked } : Query).compile := by
  unfold Query.compile
  dsimp only
  -- The table is read alike, so both sides stand under one name from here on.
  cases Sql.splitAlias? (Text.trim query.table.toList) with
  | none => exact Blind.throw (.incorrectTable query.table)
  | some parts =>
    refine .bind (.pure parts) fun ⟨name, aliasName⟩ _ _ _ => ?_
    refine .bind (Build.blind_table _) fun table _ _ htable => ?_
    have htable := (Build.exec_table_ok.1 htable).1
    cases aliasName with
    | none =>
      -- The joins stand under the table itself, which has been quoted.
      refine .bind (.pure _) fun ⟨source, base⟩ _ _ hbase => ?_
      obtain ⟨-, rfl⟩ := Prod.mk.inj (Build.exec_pure_ok.1 hbase).1
      refine .bind (query.projection.blind _) fun columns _ _ _ => ?_
      refine .bind (Joins.blind _ htable) fun joined _ _ _ => ?_
      exact .bind (Filter.optionBlind query.filter) fun filter _ _ _ => .pure _
    | some aliasName =>
      refine .bind (Build.blind_table _) fun quoted _ _ hquoted => ?_
      have hquoted := (Build.exec_table_ok.1 hquoted).1
      -- The joins stand under the alias, which has been quoted like a table.
      refine .bind (.pure _) fun ⟨source, base⟩ _ _ hbase => ?_
      obtain ⟨-, rfl⟩ := Prod.mk.inj (Build.exec_pure_ok.1 hbase).1
      refine .bind (query.projection.blind _) fun columns _ _ _ => ?_
      refine .bind (Joins.blind _ hquoted) fun joined _ _ _ => ?_
      exact .bind (Filter.optionBlind query.filter) fun filter _ _ _ => .pure _

/-- What an inserted row has in a column is built like its mask. -/
theorem Assignment.itemBlind (item : Option Assignment) :
    Blind q (Assignment.compileItem item)
      (Assignment.compileItem (item.map Assignment.itemMasked)) := by
  rcases item with _ | v | f
  · exact .pure _
  · rw [Option.map_some, Assignment.itemMasked, Assignment.compileItem, Assignment.compileItem,
      Value.isNull_nullness]
    -- Both sides write a null out, or both bind a value.
    split
    · exact .pure _
    · exact .bind (Build.blind_pushValue v _) fun _ _ _ _ => .pure _
  · exact f.blind

/-- An inserted row is built like its mask. -/
theorem Assignments.tupleBlind (columns : List String) (row : Assignments) :
    Blind q (Assignments.compileTuple columns row)
      (Assignments.compileTuple columns row.rowMasked) := by
  refine .bind (.mapM_same fun column _ => ?_) fun _ _ _ _ => .pure _
  rw [Assignments.rowMasked, Keyed.get?_map]
  exact Assignment.itemBlind _

/-- Rows have the columns of their masks. -/
theorem Assignments.allColumns_masked (rows : List Assignments) :
    Assignments.allColumns (rows.map Assignments.rowMasked) = Assignments.allColumns rows := by
  -- Columns are gathered from the keys of the rows alone.
  have hkeys : (rows.map Assignments.rowMasked).flatMap Keyed.keys = rows.flatMap Keyed.keys := by
    rw [List.flatMap_map]
    congr 1
    funext row
    exact Keyed.keys_map Assignment.itemMasked row
  rw [Assignments.allColumns, Assignments.allColumns, hkeys]

/-- An insertion is built like its mask. -/
theorem blind_insert (table : String) (rows : List Assignments) :
    Blind q (compileInsert table rows)
      (compileInsert table (rows.map Assignments.rowMasked)) := by
  rw [compileInsert, compileInsert, Assignments.allColumns_masked]
  dsimp only
  -- Without columns there is nothing to insert.
  split
  · exact .throw _
  · refine .bind (Build.blind_table table) fun _ _ _ _ => ?_
    refine .bind (.mapM_same fun column _ => Build.blind_column column) fun _ _ _ _ => ?_
    refine .bind (.mapM fun row _ => Assignments.tupleBlind _ row) fun _ _ _ _ => ?_
    exact .pure _

/-- An assignment of an update is built like its mask. -/
theorem Assignment.blind (column : String) (a : Assignment) :
    Blind q (a.compile column) (a.masked.compile column) := by
  refine .bind (Build.blind_column column) fun _ _ _ _ => ?_
  cases a with
  | value v =>
    refine .bind (Build.blind_pushValue v _) fun _ _ _ _ => ?_
    exact .bind (.pure _) fun _ _ _ _ => .pure _
  | fragment f => exact .bind f.blind fun _ _ _ _ => .pure _

/-- An update is built like its mask. -/
theorem blind_update (table : String) (assignments : Assignments) (filter : Option Filter) :
    Blind q (compileUpdate table assignments filter)
      (compileUpdate table (assignments.map fun item => (item.1, item.2.masked))
        (filter.map Filter.masked)) := by
  rw [compileUpdate, compileUpdate, List.isEmpty_map]
  -- Without assignments there is nothing to update.
  split
  · exact .throw _
  · refine .bind (Build.blind_table table) fun _ _ _ _ => ?_
    refine .bind (.mapM fun item _ => Assignment.blind item.1 item.2) fun _ _ _ _ => ?_
    exact .bind (Filter.optionBlind filter) fun _ _ _ _ => .pure _

/-- A statement is built like its mask. -/
theorem Statement.blind (s : Statement) : Blind q s.compile s.masked.compile := by
  cases s with
  | select query => exact query.blind
  | insert table rows => exact blind_insert table rows
  | update table assignments filter => exact blind_update table assignments filter
  | delete table filter =>
    refine .bind (Build.blind_table table) fun _ _ _ _ => ?_
    exact .bind (Filter.optionBlind filter) fun _ _ _ _ => .pure _
  | raw fragment => exact fragment.blind

/-- Of statements of one mask the same is seen. -/
theorem Statement.seen_of_masked_eq {s s' : Statement} (h : s.masked = s'.masked) (d : Draft) :
    s.compile.seen q d = s'.compile.seen q d :=
  calc s.compile.seen q d
      = s.masked.compile.seen q d := s.blind d d rfl
    _ = s'.masked.compile.seen q d := by rw [h]
    _ = s'.compile.seen q d := (s'.blind d d rfl).symm

/-- Values are out of sight. Two statements that differ in nothing but the values in them, and have
nulls in the same places wherever a null is written out, are either refused by a compiler for the
same reason, or they have the same text, bind the same names in the same order and leave the same
number for the next one. -/
theorem Compiler.compile_of_masked_eq {s s' : Statement} (h : s.masked = s'.masked)
    (c : Compiler) :
    (∃ e, c.compile s = (.error e, c) ∧ c.compile s' = (.error e, c)) ∨
      ∃ out out' after, c.compile s = (.ok out, after) ∧ c.compile s' = (.ok out', after) ∧
        out.sql = out'.sql ∧ out.binds.keys = out'.binds.keys := by
  have hseen := Statement.seen_of_masked_eq (q := c.quoter) h { next := c.next }
  rw [Build.seen, Build.seen] at hseen
  rw [compile, compile]
  -- Both statements have been refused alike, or both have come to the same tokens and outline.
  rcases hexec : s.compile.exec c.quoter { next := c.next } with ⟨e | ts, d⟩ <;>
    rcases hexec' : s'.compile.exec c.quoter { next := c.next } with ⟨e' | ts', d'⟩ <;>
    rw [hexec, hexec'] at hseen
  · left
    obtain rfl := Except.error.inj hseen
    exact ⟨e, rfl, rfl⟩
  · cases hseen
  · cases hseen
  · right
    obtain ⟨rfl, houtline⟩ := Prod.mk.inj (Except.ok.inj hseen)
    obtain ⟨hkeys, hnext⟩ := Prod.mk.inj houtline
    -- The texts are written from the same tokens; only what is under the names may differ.
    refine ⟨⟨Sql.render ts, d.binds⟩, ⟨Sql.render ts, d'.binds⟩, { c with next := d.next }, rfl,
      ?_, rfl, hkeys⟩
    rw [hnext]

/-- A null that is bound cannot be told from another value, in a list, behind an operator or in an
update. -/
theorem Compiler.compile_update_of_masked_eq :
    let c : Compiler := { quoter := ⟨"p_"⟩, next := 7 }
    let s : Statement := .update "t" [("a", .value .null), ("b", .value (.str "x"))]
      (some { conditions := [.among "c" [.int 1, .null], .compares "d" .less (.int 5),
        .equals "e" .null] })
    let s' : Statement := .update "t" [("a", .value (.bool true)), ("b", .value .null)]
      (some { conditions := [.among "c" [.str "' OR 1 = 1", .int 2], .compares "d" .less .null,
        .equals "e" .null] })
    s.masked = s'.masked ∧
      ((∃ e, c.compile s = (.error e, c) ∧ c.compile s' = (.error e, c)) ∨
        ∃ out out' after, c.compile s = (.ok out, after) ∧ c.compile s' = (.ok out', after) ∧
          out.sql = out'.sql ∧ out.binds.keys = out'.binds.keys) := by
  intro c s s'
  exact ⟨rfl, Compiler.compile_of_masked_eq (show s.masked = s'.masked from rfl) c⟩

/-- In an equality a null can be told from another value, and the masks differ. -/
example :
    let text : Value → Option String := fun v =>
      let s : Statement := .delete "t" (some { conditions := [.equals "a" v] })
      ((({} : Compiler).compile s).1.map Compiled.sql).toOption
    text .null = some "DELETE FROM \"t\" WHERE \"a\" IS NULL" ∧
      text (.int 1) = some "DELETE FROM \"t\" WHERE \"a\" = :ph0_b" := by
  decide +kernel

end BoundSql
