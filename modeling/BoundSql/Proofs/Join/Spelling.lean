import BoundSql.Proofs.Filter.Spelling
import BoundSql.Proofs.Join.Structure

/-!
# What joins spell out

The names in a join are those of the table and its alias, and then the columns that relate it to the
tables before it, each under its table.
-/

namespace BoundSql

open Sql (Connective Quoter Token Tokens Word)

mutual

/-- The names that a condition between the tables with the names `base` and `joined` asks for. -/
def JoinCondition.names (q : Quoter) (base joined : String) : JoinCondition → List String
  | .pair localColumn foreignColumn =>
    (JoinCondition.reference q (JoinCondition.namesTable localColumn) base localColumn).names ++
      (JoinCondition.reference q ('.' ∈ foreignColumn.toList) joined foreignColumn).names
  | .columns left _ right => (q.columnReference left).names ++ (q.columnReference right).names
  | .group _ conditions => JoinCondition.allNames q base joined conditions

/-- The names that conditions between two tables ask for, one condition after the other. -/
def JoinCondition.allNames (q : Quoter) (base joined : String) : List JoinCondition → List String
  | [] => []
  | condition :: rest =>
    condition.names q base joined ++ JoinCondition.allNames q base joined rest

end

/-- The names that a relation asks for: the shared columns, or the columns of its conditions. -/
def Relation.names (q : Quoter) (base joined : String) : Relation → List String
  | .shared columns => columns
  | .on conditions => JoinCondition.allNames q base joined conditions

/-- The names that a joined table asks for: the table, its alias and what relates it to `base`. -/
def JoinTarget.names (q : Quoter) (base : String) (relation : Relation) (target : JoinTarget) :
    List String :=
  [q.tablePrefix ++ target.table] ++ (target.aliasName.map (q.tablePrefix ++ ·)).toList ++
    relation.names q base (q.tablePrefix ++ target.aliasName.getD target.table)

/-- The names that joins ask for; a key that names no join asks for none. -/
def Joins.names (q : Quoter) (base : String) : Joins → List String
  | [] => []
  | (key, relation) :: rest =>
    ((JoinTarget.ofKey? key).map fun target => target.names q base relation).getD [] ++
      Joins.names q base rest

variable {q : Quoter} {d d' : Draft} {base joined : String} {baseTokens joinedTokens ts : Tokens}

/-- A column under a table spells the reference for it. -/
theorem JoinCondition.spells_qualified {named : Bool} {table column : String} {tableTokens : Tokens}
    (htable : Spells q [table] [] tableTokens)
    (h : (qualified named tableTokens column).exec q d = (.ok ts, d')) :
    Spells q (JoinCondition.reference q named table column).names [] ts := by
  rw [qualified] at h
  rw [JoinCondition.reference]
  split at h
  · next hnamed =>
    rw [if_pos hnamed]
    exact .of_column h
  · next hnamed =>
    simp only [Build.exec_bind_ok, Build.exec_plainColumn_ok, Build.exec_pure_ok] at h
    obtain ⟨name, _, ⟨hname, rfl⟩, rfl, rfl⟩ := h
    rw [if_neg hnamed]
    exact htable.infixed .dot (.plainColumn hname)

mutual

/-- A condition between two tables spells its names. -/
theorem JoinCondition.spells (hbase : Spells q [base] [] baseTokens)
    (hjoined : Spells q [joined] [] joinedTokens) :
    ∀ (c : JoinCondition) {d d' : Draft} {ts : Tokens},
      (c.compile baseTokens joinedTokens).exec q d = (.ok ts, d') →
        Spells q (c.names q base joined) [] ts
  | .pair localColumn foreignColumn, d, d', ts, h => by
    simp only [JoinCondition.compile, Build.exec_bind_ok, Build.exec_pure_ok] at h
    obtain ⟨left, d₁, hleft, right, d₂, hright, rfl, rfl⟩ := h
    exact (JoinCondition.spells_qualified hbase hleft).infixed (.compare .equal)
      (JoinCondition.spells_qualified hjoined hright)
  | .columns left op right, d, d', ts, h => by
    simp only [JoinCondition.compile, Build.exec_bind_ok, Build.exec_pure_ok] at h
    obtain ⟨left, d₁, hleft, right, d₂, hright, rfl, rfl⟩ := h
    exact (Spells.of_column hleft).infixed (.compare op) (.of_column hright)
  | .group connective conditions, d, d', ts, h => by
    simp only [JoinCondition.compile, Build.exec_bind_ok, Build.exec_pure_ok] at h
    obtain ⟨inner, d₁, hinner, rfl, rfl⟩ := h
    exact (JoinCondition.spellsAll hbase hjoined connective conditions hinner).parenthesized

/-- Sibling conditions between two tables spell their names, one after the other. -/
theorem JoinCondition.spellsAll (hbase : Spells q [base] [] baseTokens)
    (hjoined : Spells q [joined] [] joinedTokens) (connective : Connective) :
    ∀ (cs : List JoinCondition) {d d' : Draft} {ts : Tokens},
      (JoinCondition.compileAll baseTokens joinedTokens connective cs).exec q d = (.ok ts, d') →
        Spells q (JoinCondition.allNames q base joined cs) [] ts
  | [], d, d', ts, h => by
    rw [JoinCondition.compileAll, Build.exec_pure_ok] at h
    obtain ⟨rfl, rfl⟩ := h
    exact .nil
  | [c], d, d', ts, h => by
    rw [JoinCondition.compileAll] at h
    rw [JoinCondition.allNames, JoinCondition.allNames, List.append_nil]
    exact c.spells hbase hjoined h
  | c :: next :: rest, d, d', ts, h => by
    simp only [JoinCondition.compileAll, Build.exec_bind_ok, Build.exec_pure_ok] at h
    obtain ⟨first, d₁, hfirst, others, d₂, hothers, rfl, rfl⟩ := h
    exact (c.spells hbase hjoined hfirst).infixed (.connect connective)
      (JoinCondition.spellsAll hbase hjoined connective (next :: rest) hothers)

end

/-- A relation spells its names. -/
theorem Relation.spells {r : Relation} (hbase : Spells q [base] [] baseTokens)
    (hjoined : Spells q [joined] [] joinedTokens)
    (h : (r.compile baseTokens joinedTokens).exec q d = (.ok ts, d')) :
    Spells q (r.names q base joined) [] ts := by
  cases r with
  | shared columns =>
    simp only [Relation.compile, Build.exec_bind_ok, Build.exec_pure_ok] at h
    obtain ⟨parts, d₁, hparts, rfl, rfl⟩ := h
    have heach := SpellsEach.of_mapM (g := fun column => [column])
      (fun _ _ {_ _ _} hname => .plainColumn (Build.exec_plainColumn_ok.1 hname).1) hparts
    rw [List.flatMap_singleton'] at heach
    exact ((heach.joinWith .commaSpace).cons .shared).concat .closeParen
  | on conditions =>
    simp only [Relation.compile, Build.exec_bind_ok, Build.exec_pure_ok] at h
    obtain ⟨inner, d₁, hinner, rfl, rfl⟩ := h
    exact (JoinCondition.spellsAll hbase hjoined .and conditions hinner).cons .on

/-- A joined table spells its names. -/
theorem JoinTarget.spells {target : JoinTarget} {relation : Relation}
    (hbase : Spells q [base] [] baseTokens)
    (h : (target.compile baseTokens relation).exec q d = (.ok ts, d')) :
    Spells q (target.names q base relation) [] ts := by
  obtain ⟨joinedTokens, related, table, hjoined, hrelated, htable, rfl⟩ := JoinTarget.compile_ok h
  have hnaming := Spells.naming target.aliasName (.table hjoined)
  -- What introduces the alias is the name under which columns of the table are qualified.
  have halias :
      target.aliasName.map (fun _ => q.tablePrefix ++ target.aliasName.getD target.table) =
      target.aliasName.map (q.tablePrefix ++ ·) := by
    cases target.aliasName <;> rfl
  rw [halias] at hnaming
  exact (((Spells.table htable).cons (.join target.kind)).append hnaming).append
    (Relation.spells hbase (.table hjoined) hrelated)

/-- Joined tables spell their names, one table after the other. -/
theorem Joins.spellsEach {joins : Joins} {parts : List Tokens}
    (hbase : Spells q [base] [] baseTokens)
    (h : (Joins.compileEach baseTokens joins).exec q d = (.ok parts, d')) :
    SpellsEach q (joins.names q base) parts := by
  induction joins generalizing d parts with
  | nil =>
    obtain ⟨rfl, rfl⟩ := Build.exec_pure_ok.1 h
    exact .nil
  | cons join joins ih =>
    obtain ⟨key, relation⟩ := join
    rw [Joins.compileEach] at h
    rw [Joins.names]
    split at h
    · next hkey =>
      -- A join whose key cannot be read is passed over.
      rw [hkey]
      exact ih h
    · next target hkey =>
      simp only [Build.exec_bind_ok, Build.exec_pure_ok] at h
      obtain ⟨first, d₁, hfirst, others, d₂, hothers, rfl, rfl⟩ := h
      rw [hkey]
      exact .cons (JoinTarget.spells hbase hfirst) (ih hothers)

/-- All joined tables spell their names, behind a blank if there are any. -/
theorem Joins.spells {joins : Joins} (hbase : Spells q [base] [] baseTokens)
    (h : (joins.compile baseTokens).exec q d = (.ok ts, d')) :
    Spells q (joins.names q base) [] (if ts.isEmpty then [] else Token.word .space :: ts) := by
  simp only [Joins.compile, Build.exec_bind_ok, Build.exec_pure_ok] at h
  obtain ⟨parts, d₁, hparts, rfl, rfl⟩ := h
  have hall := (Joins.spellsEach hbase hparts).joinWith .space
  split
  · next hnil =>
    rwa [List.isEmpty_iff.1 hnil] at hall
  · exact hall.cons .space

end BoundSql
