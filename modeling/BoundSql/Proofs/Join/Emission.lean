import BoundSql.Join.Compile
import BoundSql.Proofs.Building.Emission

/-!
# What joins emit

Joins relate columns only, so that they bind nothing, however their conditions are nested.
-/

namespace BoundSql

open Sql (Connective Inert Led Quoter Sound Token Tokens Word)

variable {q : Quoter} {d d' : Draft} {base joined ts : Tokens}

/-- A column under a table binds nothing. -/
theorem JoinCondition.emits_qualified {named : Bool} {table : Tokens} {column : String}
    (htable : Inert q table) (h : (qualified named table column).exec q d = (.ok ts, d')) :
    Emits q d [] ts d' := by
  rw [qualified] at h
  split at h
  · exact .column h
  · simp only [Build.exec_bind_ok, Build.exec_pure_ok] at h
    obtain ⟨name, d₁, hname, rfl, rfl⟩ := h
    have hdot := (Emits.plainColumn hname).cons (w := .dot) (by decide)
    exact (Emits.of_inert htable d).append hdot fun _ => Sql.led_cons.2 (by decide)

mutual

/-- A condition between two tables binds nothing. -/
theorem JoinCondition.emits (hbase : Inert q base) (hjoined : Inert q joined) :
    ∀ (c : JoinCondition) {d d' : Draft} {ts : Tokens},
      (c.compile base joined).exec q d = (.ok ts, d') → Emits q d [] ts d'
  | .pair localColumn foreignColumn, d, d', ts, h => by
    simp only [JoinCondition.compile, Build.exec_bind_ok, Build.exec_pure_ok] at h
    obtain ⟨left, d₁, hleft, right, d₂, hright, rfl, rfl⟩ := h
    exact (emits_qualified hbase hleft).comparison .equal (emits_qualified hjoined hright)
  | .columns left op right, d, d', ts, h => by
    simp only [JoinCondition.compile, Build.exec_bind_ok, Build.exec_pure_ok] at h
    obtain ⟨left, d₁, hleft, right, d₂, hright, rfl, rfl⟩ := h
    exact (Emits.column hleft).comparison op (.column hright)
  | .group connective conditions, d, d', ts, h => by
    simp only [JoinCondition.compile, Build.exec_bind_ok, Build.exec_pure_ok] at h
    obtain ⟨inner, d₁, hinner, rfl, rfl⟩ := h
    exact (JoinCondition.emitsAll hbase hjoined connective conditions hinner).parenthesized

/-- Sibling conditions between two tables bind nothing. -/
theorem JoinCondition.emitsAll (hbase : Inert q base) (hjoined : Inert q joined)
    (connective : Connective) : ∀ (cs : List JoinCondition) {d d' : Draft} {ts : Tokens},
    (JoinCondition.compileAll base joined connective cs).exec q d = (.ok ts, d') →
      Emits q d [] ts d'
  | [], d, d', ts, h => by
    rw [JoinCondition.compileAll, Build.exec_pure_ok] at h
    obtain ⟨rfl, rfl⟩ := h
    exact .of_inert ⟨rfl, fun _ => Sound.nil⟩ d
  | [c], d, d', ts, h => by
    rw [JoinCondition.compileAll] at h
    exact c.emits hbase hjoined h
  | c :: next :: rest, d, d', ts, h => by
    simp only [JoinCondition.compileAll, Build.exec_bind_ok, Build.exec_pure_ok] at h
    obtain ⟨first, d₁, hfirst, others, d₂, hothers, rfl, rfl⟩ := h
    exact (c.emits hbase hjoined hfirst).connected connective
      (JoinCondition.emitsAll hbase hjoined connective (next :: rest) hothers)

end

/-- A relation binds nothing and can stand behind anything. -/
theorem Relation.emits {r : Relation} (hbase : Inert q base) (hjoined : Inert q joined)
    (h : (r.compile base joined).exec q d = (.ok ts, d')) : Emits q d [] ts d' ∧ Led ts := by
  cases r with
  | shared columns =>
    simp only [Relation.compile, Build.exec_bind_ok, Build.exec_pure_ok] at h
    obtain ⟨parts, d₁, hparts, rfl, rfl⟩ := h
    have heach := EmitsEach.of_mapM_nil (fun _ _ {_ _ _} hname => .plainColumn hname) hparts
    have hlist := heach.joinWith (w := .commaSpace) (by decide) (by decide)
    refine ⟨?_, Sql.led_cons.2 (by decide)⟩
    exact (hlist.cons (w := .shared) (by decide)).concat (by decide)
  | on conditions =>
    simp only [Relation.compile, Build.exec_bind_ok, Build.exec_pure_ok] at h
    obtain ⟨inner, d₁, hinner, rfl, rfl⟩ := h
    have hinner := JoinCondition.emitsAll hbase hjoined .and conditions hinner
    exact ⟨hinner.cons (by decide), Sql.led_cons.2 (by decide)⟩

/-- A joined table is written with its alias, if it has one, and with what relates it to the tables
before it, under the name by which it is introduced. -/
theorem JoinTarget.compile_ok {target : JoinTarget} {relation : Relation}
    (h : (target.compile base relation).exec q d = (.ok ts, d')) :
    ∃ joined related table, q.table (target.aliasName.getD target.table) = .ok joined ∧
      (relation.compile base joined).exec q d = (.ok related, d') ∧
      q.table target.table = .ok table ∧
      ts = Token.word (.join target.kind) :: table ++ Sql.naming target.aliasName joined ++
        related := by
  obtain ⟨kind, table, aliasName⟩ := target
  simp only [JoinTarget.compile, Build.exec_bind_ok, Build.exec_table_ok] at h
  -- The table is quoted after its relation, although it is written before it.
  obtain ⟨joined, _, ⟨hjoined, rfl⟩, related, d₁, hrelated, table, _, ⟨htable, rfl⟩, h⟩ := h
  cases aliasName with
  | none =>
    simp only [Build.exec_bind_ok, Build.exec_pure_ok] at h
    obtain ⟨_, _, ⟨rfl, rfl⟩, rfl, rfl⟩ := h
    exact ⟨joined, related, table, hjoined, hrelated, htable, rfl⟩
  | some aliasName =>
    simp only [Build.exec_bind_ok, Build.exec_table_ok, Build.exec_pure_ok] at h
    obtain ⟨quoted, _, ⟨hquoted, rfl⟩, _, _, ⟨rfl, rfl⟩, rfl, rfl⟩ := h
    -- The alias is quoted twice, with the same result.
    obtain rfl := Except.ok.inj (hquoted.symm.trans hjoined)
    exact ⟨quoted, related, table, hjoined, hrelated, htable, rfl⟩

/-- A joined table binds nothing. -/
theorem JoinTarget.emits {target : JoinTarget} {relation : Relation} (hbase : Inert q base)
    (h : (target.compile base relation).exec q d = (.ok ts, d')) : Emits q d [] ts d' := by
  have hkind : (Word.join target.kind).opens := by cases target.kind <;> decide
  obtain ⟨joined, related, table, hjoined, hrelated, htable, rfl⟩ := JoinTarget.compile_ok h
  obtain ⟨hrelated, hled⟩ := Relation.emits hbase (.table hjoined) hrelated
  have hhead := (Emits.of_inert (.table htable) d).cons hkind
  have hnaming := Emits.of_inert (Inert.naming target.aliasName (.table hjoined)) d
  have hnamed := hhead.append hnaming fun _ => Sql.led_naming _ _
  exact hnamed.append hrelated fun _ => hled

/-- Joined tables bind nothing. -/
theorem Joins.emitsEach {joins : Joins} {parts : List Tokens} (hbase : Inert q base)
    (h : (Joins.compileEach base joins).exec q d = (.ok parts, d')) :
    EmitsEach q d [] parts d' := by
  induction joins generalizing d parts with
  | nil =>
    obtain ⟨rfl, rfl⟩ := Build.exec_pure_ok.1 h
    exact .nil d
  | cons join joins ih =>
    obtain ⟨key, relation⟩ := join
    rw [Joins.compileEach] at h
    -- A key that names no join leaves nothing behind.
    split at h
    · exact ih h
    · simp only [Build.exec_bind_ok, Build.exec_pure_ok] at h
      obtain ⟨first, d₁, hfirst, others, d₂, hothers, rfl, rfl⟩ := h
      exact .cons (JoinTarget.emits hbase hfirst) (ih hothers)

/-- All joined tables bind nothing. -/
theorem Joins.emits {joins : Joins} (hbase : Inert q base)
    (h : (joins.compile base).exec q d = (.ok ts, d')) : Emits q d [] ts d' := by
  simp only [Joins.compile, Build.exec_bind_ok, Build.exec_pure_ok] at h
  obtain ⟨parts, d₁, hparts, rfl, rfl⟩ := h
  exact (Joins.emitsEach hbase hparts).joinWith (by decide) (by decide)

end BoundSql
