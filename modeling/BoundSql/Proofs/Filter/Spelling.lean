import BoundSql.Proofs.Building.Spelling
import BoundSql.Proofs.Filter.Emission

/-!
# What a filter spells out

The names in a filter are its columns, in the order in which the clauses name them; a column that is
compared to an empty list is checked but not written. The numbers in a filter are those of its
limit.
-/

namespace BoundSql

open Sql (Connective Quoter Token Tokens Word)

mutual

/-- The names that a condition asks for, from left to right. -/
def Condition.names (q : Quoter) : Condition → List String
  | .equals column _ => (q.columnReference column).names
  | .among _ [] => []
  | .among column (_ :: _) => (q.columnReference column).names
  | .compares column _ _ => (q.columnReference column).names
  | .columns left _ right => (q.columnReference left).names ++ (q.columnReference right).names
  | .group _ _ conditions => Condition.allNames q conditions

/-- The names that conditions ask for, one condition after the other. -/
def Condition.allNames (q : Quoter) : List Condition → List String
  | [] => []
  | condition :: rest => condition.names q ++ Condition.allNames q rest

end

/-- The digits of a value in a limit: the text of a numeric value without blanks around it. -/
def Limit.digits? (value : Value) : Option String :=
  if value.isNumeric then value.asText?.map Text.trimmed else none

/-- The numbers that a limit asks for; none if one of its values is no number. -/
def Limit.numbers : Limit → List String
  | .count most => (Limit.digits? most).toList
  | .range skipped most =>
    match Limit.digits? most, Limit.digits? skipped with
    | some most, some skipped => [most, skipped]
    | _, _ => []

namespace Filter

/-- The names that a filter asks for: those of its conditions, grouping columns, conditions on
groups and ordering columns. -/
def names (q : Quoter) (f : Filter) : List String :=
  Condition.allNames q f.conditions ++
    f.grouping.flatMap (fun column => (q.columnReference column).names) ++
    Condition.allNames q f.having ++
    f.order.flatMap fun item => (q.columnReference item.column).names

/-- The numbers that a filter asks for: those of its limit. -/
def numbers (f : Filter) : List String := (f.limit.map Limit.numbers).getD []

end Filter

variable {q : Quoter} {d d' : Draft} {ts : Tokens}

/-- A column spells its reference. -/
theorem Spells.of_column {name : String} (h : (Build.column name).exec q d = (.ok ts, d')) :
    Spells q (q.columnReference name).names [] ts :=
  .column (Build.exec_column_ok.1 h).1

/-- A value that is bound spells nothing. -/
theorem Spells.of_pushValue {value : Value} {t : Token}
    (h : (Build.pushValue value).exec q d = (.ok t, d')) : Spells q [] [] [t] := by
  obtain ⟨rfl, rfl⟩ := Build.exec_pushValue_ok.1 h
  exact .parameter _

mutual

/-- A condition spells its names. -/
theorem Condition.spells : ∀ (c : Condition) {d d' : Draft} {ts : Tokens},
    c.compile.exec q d = (.ok ts, d') → Spells q (c.names q) [] ts
  | .equals column value, d, d', ts, h => by
    rw [Condition.compile, Build.exec_bind_ok] at h
    obtain ⟨name, d₁, hname, h⟩ := h
    have hname := Spells.of_column hname
    -- Nothing equals `NULL`, so that a test is written for it.
    split at h
    · obtain ⟨rfl, rfl⟩ := Build.exec_pure_ok.1 h
      exact hname.concat .isNull
    · simp only [Build.exec_bind_ok, Build.exec_pure_ok] at h
      obtain ⟨parameter, d₂, hparameter, rfl, rfl⟩ := h
      have hall := hname.infixed (.compare .equal) (.of_pushValue hparameter)
      rwa [List.append_nil] at hall
  | .compares column op value, d, d', ts, h => by
    simp only [Condition.compile, Build.exec_bind_ok, Build.exec_pure_ok] at h
    obtain ⟨name, d₁, hname, parameter, d₂, hparameter, rfl, rfl⟩ := h
    have hall := (Spells.of_column hname).infixed (.compare op) (.of_pushValue hparameter)
    rwa [List.append_nil] at hall
  | .columns left op right, d, d', ts, h => by
    simp only [Condition.compile, Build.exec_bind_ok, Build.exec_pure_ok] at h
    obtain ⟨left, d₁, hleft, right, d₂, hright, rfl, rfl⟩ := h
    exact (Spells.of_column hleft).infixed (.compare op) (.of_column hright)
  | .among column [], d, d', ts, h => by
    -- The column of an empty list is checked and not written.
    simp only [Condition.compile, Build.exec_bind_ok, Build.exec_pure_ok] at h
    obtain ⟨name, d₁, -, rfl, rfl⟩ := h
    exact .word .never
  | .among column (v :: values), d, d', ts, h => by
    simp only [Condition.compile, Build.exec_bind_ok, Build.exec_pure_ok] at h
    obtain ⟨name, d₁, hname, parameters, d₂, hparameters, rfl, rfl⟩ := h
    have hlist := (SpellsEach.of_pushValues hparameters).joinWith .commaSpace
    have hall := ((Spells.of_column hname).infixed .among hlist).concat .closeParen
    rwa [List.append_nil] at hall
  | .group connective label conditions, d, d', ts, h => by
    simp only [Condition.compile, Build.exec_bind_ok, Build.exec_pure_ok] at h
    obtain ⟨inner, d₁, hinner, rfl, rfl⟩ := h
    exact (Condition.spellsAll connective conditions hinner).parenthesized

/-- Sibling conditions spell their names, one after the other. -/
theorem Condition.spellsAll (connective : Connective) : ∀ (cs : List Condition) {d d' : Draft}
    {ts : Tokens}, (Condition.compileAll connective cs).exec q d = (.ok ts, d') →
      Spells q (Condition.allNames q cs) [] ts
  | [], d, d', ts, h => by
    rw [Condition.compileAll, Build.exec_pure_ok] at h
    obtain ⟨rfl, rfl⟩ := h
    exact .nil
  | [c], d, d', ts, h => by
    rw [Condition.compileAll] at h
    rw [Condition.allNames, Condition.allNames, List.append_nil]
    exact c.spells h
  | c :: next :: rest, d, d', ts, h => by
    simp only [Condition.compileAll, Build.exec_bind_ok, Build.exec_pure_ok] at h
    obtain ⟨first, d₁, hfirst, others, d₂, hothers, rfl, rfl⟩ := h
    exact (c.spells hfirst).infixed (.connect connective)
      (Condition.spellsAll connective (next :: rest) hothers)

end

/-- The number of a limit is its digits. -/
theorem Limit.number?_eq_map (v : Value) : Limit.number? v = (Limit.digits? v).map .number := by
  rw [number?, digits?]
  split
  · rw [Option.map_map]
    rfl
  · rfl

/-- A limit spells its numbers. -/
theorem Limit.spells (limit : Limit) : Spells q [] limit.numbers (limit.tokens?.getD []) := by
  have hnumber : ∀ (w : Word) (digits : String), Spells q [] [digits] [.word w, .number digits] :=
    fun w digits => (Spells.number digits).cons w
  cases limit with
  | count most =>
    rw [tokens?, numbers, number?_eq_map]
    cases Limit.digits? most with
    | none => exact .nil
    | some most => exact hnumber .limit most
  | range skipped most =>
    rw [tokens?, numbers, number?_eq_map, number?_eq_map]
    -- Both are numbers, or the limit is dropped.
    cases Limit.digits? most with
    | none => exact .nil
    | some most =>
      cases Limit.digits? skipped with
      | none => exact .nil
      | some skipped => exact (hnumber .limit most).append (hnumber .offset skipped)

/-- The numbers of a limit are made of the characters of numbers. -/
theorem Limit.isPlainNumber_of_mem {limit : Limit} {digits : String} (h : digits ∈ limit.numbers) :
    Sql.IsPlainNumber digits.toList := by
  have hclean : ∀ {v : Value} {s : String}, Limit.digits? v = some s →
      Sql.IsPlainNumber s.toList := by
    intro v s hs
    have hnumber : Limit.number? v = some (.number s) := by rw [number?_eq_map, hs, Option.map_some]
    exact Limit.clean_of_number? hnumber
  cases limit with
  | count most => exact hclean (Option.mem_toList.1 h)
  | range skipped most =>
    rw [numbers] at h
    split at h
    · next hmost hskipped =>
      rcases List.mem_pair.1 h with rfl | rfl
      · exact hclean hmost
      · exact hclean hskipped
    · cases h

/-- A column to order by spells its reference. -/
theorem OrderItem.spells {item : OrderItem} (h : item.compile.exec q d = (.ok ts, d')) :
    Spells q (q.columnReference item.column).names [] ts := by
  rw [OrderItem.compile, Build.exec_bind_ok] at h
  obtain ⟨name, d₁, hname, h⟩ := h
  split at h
  · next direction _ =>
    obtain ⟨rfl, rfl⟩ := Build.exec_pure_ok.1 h
    exact (Spells.of_column hname).concat (.direction direction)
  · obtain ⟨rfl, rfl⟩ := Build.exec_pure_ok.1 h
    exact .of_column hname

/-- A clause spells what its body spells. -/
theorem spells_clause {α : Type} {head : Word} {items : List α} {body : List α → Build Tokens}
    {names : List String} (hempty : items = [] → names = [])
    (hbody : ∀ {ts}, (body items).exec q d = (.ok ts, d') → Spells q names [] ts)
    (h : (clause head items body).exec q d = (.ok ts, d')) : Spells q names [] ts := by
  rcases exec_clause_ok.1 h with ⟨hitems, rfl, rfl⟩ | ⟨-, inner, hinner, rfl⟩
  · rw [hempty hitems]
    exact .nil
  · exact (hbody hinner).cons head

/-- A clause of conditions spells the names of the conditions. -/
theorem spells_conditionClause {c : Connective} {head : Word} {cs : List Condition}
    (h : (clause head cs (Condition.compileAll c)).exec q d = (.ok ts, d')) :
    Spells q (Condition.allNames q cs) [] ts := by
  refine spells_clause ?_ (fun {_} hbody => Condition.spellsAll c cs hbody) h
  rintro rfl
  rfl

/-- A clause with a list of columns spells what its columns spell. -/
theorem spells_columnClause {α : Type} {head : Word} {items : List α} {f : α → Build Tokens}
    {g : α → List String}
    (hf : ∀ {a d ts d'}, (f a).exec q d = (.ok ts, d') → Spells q (g a) [] ts)
    (h : (clause head items fun items => do return Sql.joinWith .comma (← items.mapM f)).exec q d =
      (.ok ts, d')) : Spells q (items.flatMap g) [] ts := by
  refine spells_clause ?_ (fun {ts} hbody => ?_) h
  · rintro rfl
    rfl
  · simp only [Build.exec_bind_ok, Build.exec_pure_ok] at hbody
    obtain ⟨parts, d₁, hparts, rfl, rfl⟩ := hbody
    exact (SpellsEach.of_mapM (fun _ _ {_ _ _} hitem => hf hitem) hparts).joinWith .comma

/-- A filter spells its names, and the numbers of its limit. -/
theorem Filter.spells {f : Filter} (h : f.compile.exec q d = (.ok ts, d')) :
    Spells q (f.names q) f.numbers ts := by
  simp only [Filter.compile, Build.exec_bind_ok, Build.exec_pure_ok] at h
  obtain ⟨conditions, d₁, hconditions, grouping, d₂, hgrouping, having, d₃, hhaving, order, d₄,
    horder, rfl, rfl⟩ := h
  have hgrouping := spells_columnClause (.of_column ·) hgrouping
  have hhaving := spells_conditionClause hhaving
  have horder := spells_columnClause (OrderItem.spells ·) horder
  have hclauses := (((spells_conditionClause hconditions).append hgrouping).append hhaving).append
    horder
  have hlimit : Spells q [] f.numbers ((f.limit.bind Limit.tokens?).getD []) := by
    rw [Filter.numbers]
    cases f.limit with
    | none => exact .nil
    | some limit => exact limit.spells
  have hall := hclauses.append hlimit
  rwa [List.append_nil] at hall

end BoundSql
