import BoundSql.Proofs.Building.Emission
import BoundSql.Proofs.Filter.LimitNumber

/-!
# What a filter emits

A filter binds the values of its conditions in the order in which the conditions are read, those of
groups included, and then the values of its conditions on groups. Its tokens can stand behind those
of any statement.
-/

namespace BoundSql

open Sql (Connective Inert Led Quoter Sound Token Tokens Word)

mutual

/-- The values of a condition for which names are made, from left to right. -/
def Condition.values : Condition → List Value
  | .equals _ value => if value.isNull then [] else [value]
  | .among _ values => values
  | .compares _ _ value => [value]
  | .columns _ _ _ => []
  | .group _ _ conditions => Condition.allValues conditions

/-- The values of conditions, one condition after the other. -/
def Condition.allValues : List Condition → List Value
  | [] => []
  | condition :: rest => condition.values ++ Condition.allValues rest

end

/-- The values of a filter: those of the conditions on rows, and then of those on groups. -/
def Filter.values (f : Filter) : List Value :=
  Condition.allValues f.conditions ++ Condition.allValues f.having

variable {q : Quoter} {d d' : Draft} {ts : Tokens}

mutual

/-- A condition binds its values. -/
theorem Condition.emits : ∀ (c : Condition) {d d' : Draft} {ts : Tokens},
    c.compile.exec q d = (.ok ts, d') → Emits q d (c.values.map .value) ts d'
  | .equals column value, d, d', ts, h => by
    rw [Condition.compile, Build.exec_bind_ok] at h
    obtain ⟨name, d₁, hname, h⟩ := h
    rw [Condition.values]
    -- A null value is tested for and not bound.
    split at h
    · next hnull =>
      obtain ⟨rfl, rfl⟩ := Build.exec_pure_ok.1 h
      rw [if_pos hnull]
      exact (Emits.column hname).concat (by decide)
    · next hnull =>
      simp only [Build.exec_bind_ok, Build.exec_pure_ok] at h
      obtain ⟨parameter, d₂, hparameter, rfl, rfl⟩ := h
      rw [if_neg hnull]
      exact (Emits.column hname).comparison .equal (.pushValue hparameter)
  | .compares column op value, d, d', ts, h => by
    simp only [Condition.compile, Build.exec_bind_ok, Build.exec_pure_ok] at h
    obtain ⟨name, d₁, hname, parameter, d₂, hparameter, rfl, rfl⟩ := h
    exact (Emits.column hname).comparison op (.pushValue hparameter)
  | .columns left op right, d, d', ts, h => by
    simp only [Condition.compile, Build.exec_bind_ok, Build.exec_pure_ok] at h
    obtain ⟨left, d₁, hleft, right, d₂, hright, rfl, rfl⟩ := h
    exact (Emits.column hleft).comparison op (.column hright)
  | .among column [], d, d', ts, h => by
    simp only [Condition.compile, Build.exec_bind_ok, Build.exec_pure_ok] at h
    obtain ⟨name, d₁, hname, rfl, rfl⟩ := h
    rw [(Emits.column hname).draft_eq]
    exact .word .never d
  | .among column (v :: values), d, d', ts, h => by
    simp only [Condition.compile, Build.exec_bind_ok, Build.exec_pure_ok] at h
    obtain ⟨name, d₁, hname, parameters, d₂, hparameters, rfl, rfl⟩ := h
    have hparts := EmitsEach.of_pushValues hparameters
    have hlist := hparts.joinWith (w := .commaSpace) (by decide) (by decide)
    have hopen := hlist.cons (w := .among) (by decide)
    have hall := (Emits.column hname).append hopen fun _ => Sql.led_cons.2 (by decide)
    exact hall.concat (by decide)
  | .group connective label conditions, d, d', ts, h => by
    simp only [Condition.compile, Build.exec_bind_ok, Build.exec_pure_ok] at h
    obtain ⟨inner, d₁, hinner, rfl, rfl⟩ := h
    exact (Condition.emitsAll connective conditions hinner).parenthesized

/-- Sibling conditions bind their values, one after the other. -/
theorem Condition.emitsAll (connective : Connective) : ∀ (cs : List Condition) {d d' : Draft}
    {ts : Tokens}, (Condition.compileAll connective cs).exec q d = (.ok ts, d') →
      Emits q d ((Condition.allValues cs).map .value) ts d'
  | [], d, d', ts, h => by
    rw [Condition.compileAll, Build.exec_pure_ok] at h
    obtain ⟨rfl, rfl⟩ := h
    exact .of_inert ⟨rfl, fun _ => Sound.nil⟩ d
  | [c], d, d', ts, h => by
    rw [Condition.compileAll] at h
    rw [Condition.allValues, Condition.allValues, List.append_nil]
    exact c.emits h
  | c :: next :: rest, d, d', ts, h => by
    simp only [Condition.compileAll, Build.exec_bind_ok, Build.exec_pure_ok] at h
    obtain ⟨first, d₁, hfirst, others, d₂, hothers, rfl, rfl⟩ := h
    rw [Condition.allValues, List.map_append]
    exact (c.emits hfirst).connected connective
      (Condition.emitsAll connective (next :: rest) hothers)

end

/-- A number of a limit behind a word is inert. -/
theorem Limit.inert_number? {v : Value} {t : Token} {w : Word} (hw : w.opens)
    (h : Limit.number? v = some t) : Inert q [.word w, t] := by
  have hclean : t.Clean := Limit.clean_of_number? h
  rw [Limit.number?] at h
  split at h
  · obtain ⟨text, -, rfl⟩ := Option.map_eq_some_iff.1 h
    exact ⟨rfl, fun _ => (Sound.singleton hclean).cons hw⟩
  · cases h

/-- A limit binds nothing and can stand behind anything. -/
theorem Limit.emits {limit : Limit} (h : limit.tokens? = some ts) (d : Draft) :
    Emits q d [] ts d ∧ Led ts := by
  obtain ⟨_, t, ht, rfl | ⟨_, u, hu, rfl⟩⟩ := Limit.exists_of_tokens? h
  · exact ⟨.of_inert (Limit.inert_number? (by decide) ht) d, Sql.led_cons.2 (by decide)⟩
  · have hmost : Emits q d [] [.word .limit, t] d :=
      .of_inert (Limit.inert_number? (by decide) ht) d
    have hskipped : Emits q d [] [.word .offset, u] d :=
      .of_inert (Limit.inert_number? (by decide) hu) d
    exact ⟨hmost.append hskipped fun _ => Sql.led_cons.2 (by decide), Sql.led_cons.2 (by decide)⟩

/-- A column to order by binds nothing. -/
theorem OrderItem.emits {item : OrderItem} (h : item.compile.exec q d = (.ok ts, d')) :
    Emits q d [] ts d' := by
  obtain ⟨column, direction⟩ := item
  rw [OrderItem.compile, Build.exec_bind_ok] at h
  obtain ⟨name, d₁, hname, h⟩ := h
  cases direction with
  | none =>
    obtain ⟨rfl, rfl⟩ := Build.exec_pure_ok.1 h
    exact .column hname
  | some direction =>
    obtain ⟨rfl, rfl⟩ := Build.exec_pure_ok.1 h
    exact (Emits.column hname).concat (by cases direction <;> decide)

/-- A clause is its body behind its head, unless there is nothing in it. -/
theorem exec_clause_ok {α : Type} {head : Word} {items : List α} {body : List α → Build Tokens} :
    (clause head items body).exec q d = (.ok ts, d') ↔
      (items = [] ∧ ts = [] ∧ d = d') ∨
        (items ≠ [] ∧
          ∃ inner, (body items).exec q d = (.ok inner, d') ∧ ts = Token.word head :: inner) := by
  rw [clause]
  -- The head is written only if there is something to put behind it.
  cases items with
  | nil =>
    rw [List.isEmpty_nil, if_pos rfl, Build.exec_pure_ok]
    constructor
    · rintro ⟨rfl, rfl⟩
      exact .inl ⟨rfl, rfl, rfl⟩
    · rintro (⟨-, rfl, rfl⟩ | ⟨hne, -⟩)
      · exact ⟨rfl, rfl⟩
      · exact absurd rfl hne
  | cons item items =>
    simp only [List.isEmpty_cons, Bool.false_eq_true, if_false, Build.exec_bind_ok,
      Build.exec_pure_ok]
    constructor
    · rintro ⟨inner, d₁, hinner, rfl, rfl⟩
      exact .inr ⟨List.cons_ne_nil _ _, inner, hinner, rfl⟩
    · rintro (⟨hnil, -⟩ | ⟨-, inner, hinner, rfl⟩)
      · cases hnil
      · exact ⟨inner, d', hinner, rfl, rfl⟩

/-- A clause binds what its body binds, and its head can stand behind anything. -/
theorem emits_clause {α : Type} {head : Word} {items : List α} {body : List α → Build Tokens}
    {bs : List Bindable} (hopens : head.opens) (hseparates : head.separates)
    (hempty : items = [] → bs = [])
    (hbody : ∀ {ts d'}, (body items).exec q d = (.ok ts, d') → Emits q d bs ts d')
    (h : (clause head items body).exec q d = (.ok ts, d')) : Emits q d bs ts d' ∧ Led ts := by
  rcases exec_clause_ok.1 h with ⟨hitems, rfl, rfl⟩ | ⟨-, inner, hinner, rfl⟩
  · rw [hempty hitems]
    exact ⟨.of_inert ⟨rfl, fun _ => Sound.nil⟩ d, Sql.led_nil⟩
  · exact ⟨(hbody hinner).cons hopens, Sql.led_cons.2 hseparates⟩

/-- A clause of conditions binds the values of the conditions. -/
theorem emits_conditionClause {c : Connective} {head : Word} {cs : List Condition}
    (hopens : head.opens) (hseparates : head.separates)
    (h : (clause head cs (Condition.compileAll c)).exec q d = (.ok ts, d')) :
    Emits q d ((Condition.allValues cs).map .value) ts d' ∧ Led ts := by
  refine emits_clause hopens hseparates ?_ (fun {_ _} hbody => Condition.emitsAll c cs hbody) h
  rintro rfl
  rfl

/-- A clause with a list of columns binds nothing. -/
theorem emits_columnClause {α : Type} {head : Word} {items : List α} {f : α → Build Tokens}
    (hopens : head.opens) (hseparates : head.separates)
    (hf : ∀ {a d ts d'}, (f a).exec q d = (.ok ts, d') → Emits q d [] ts d')
    (h : (clause head items fun items => do return Sql.joinWith .comma (← items.mapM f)).exec q d =
      (.ok ts, d')) : Emits q d [] ts d' ∧ Led ts := by
  refine emits_clause hopens hseparates (fun _ => rfl) (fun {ts d'} hbody => ?_) h
  simp only [Build.exec_bind_ok, Build.exec_pure_ok] at hbody
  obtain ⟨parts, d₁, hparts, rfl, rfl⟩ := hbody
  have heach := EmitsEach.of_mapM_nil (fun _ _ {_ _ _} hitem => hf hitem) hparts
  exact heach.joinWith (by decide) (by decide)

/-- A filter binds its values, and its tokens can stand behind anything. -/
theorem Filter.emits {f : Filter} (h : f.compile.exec q d = (.ok ts, d')) :
    Emits q d (f.values.map .value) ts d' ∧ Led ts := by
  simp only [Filter.compile, Build.exec_bind_ok, Build.exec_pure_ok] at h
  obtain ⟨conditions, d₁, hconditions, grouping, d₂, hgrouping, having, d₃, hhaving, order, d₄,
    horder, rfl, rfl⟩ := h
  obtain ⟨hconditions, hled⟩ := emits_conditionClause (by decide) (by decide) hconditions
  obtain ⟨hgrouping, hled₁⟩ := emits_columnClause (by decide) (by decide) (.column ·) hgrouping
  obtain ⟨hhaving, hled₂⟩ := emits_conditionClause (by decide) (by decide) hhaving
  obtain ⟨horder, hled₃⟩ := emits_columnClause (by decide) (by decide) (OrderItem.emits ·) horder
  -- The limit is written at the end of the draft; its numbers are text and no values.
  have hlimit : Emits q d₄ [] ((f.limit.bind Limit.tokens?).getD []) d₄ ∧
      Led ((f.limit.bind Limit.tokens?).getD []) := by
    cases htokens : f.limit.bind Limit.tokens? with
    | none => exact ⟨.of_inert ⟨rfl, fun _ => Sound.nil⟩ d₄, Sql.led_nil⟩
    | some tokens =>
      obtain ⟨limit, -, hlimit⟩ := Option.bind_eq_some_iff.1 htokens
      exact Limit.emits hlimit d₄
  have hclauses := ((hconditions.append hgrouping fun _ => hled₁).append hhaving
    fun _ => hled₂).append horder fun _ => hled₃
  refine ⟨?_, (((hled.append hled₁).append hled₂).append hled₃).append hlimit.2⟩
  have hall := hclauses.append hlimit.1 fun _ => hlimit.2
  rwa [List.append_nil, List.append_nil, List.append_nil, ← List.map_append] at hall

end BoundSql
