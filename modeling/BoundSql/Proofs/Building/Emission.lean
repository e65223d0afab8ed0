import BoundSql.Proofs.Building.Bindable
import BoundSql.Proofs.Building.Success
import BoundSql.Proofs.Sql.Quoted

/-!
# What building a part emits

A part of a statement that is built successfully binds certain things and gives certain tokens.
`Emits q d bs ts d'` relates the two: the draft grows by what is bound and by nothing else, the
parameters among the tokens are the names made for it, in the same order, and the tokens are sound
unless a fragment is among it.

The relation is kept when parts are put together in the ways in which the compilers do it, so that
it holds of a whole statement as soon as it holds of what the statement is made of.
-/

namespace BoundSql

open Sql (Inert Led Quoter Sound Token Tokens Word)

/-- Building from the draft `d` has bound `bs` and given the tokens `ts`, which leaves `d'`. -/
structure Emits (q : Quoter) (d : Draft) (bs : List Bindable) (ts : Tokens) (d' : Draft) :
    Prop where
  /-- The draft has taken what is bound. -/
  draft : d' = d.takeAll bs
  /-- The parameters are the names made for the values, in order. -/
  labels : ts.filterMap Token.label? = Sql.labels d.next (madeFor bs).length
  /-- Without fragments the tokens are sound. -/
  sound : '"' ∉ q.tablePrefix.toList → (∀ b ∈ bs, b.value?.isSome) → Sound ts

namespace Emits

variable {q : Quoter} {d d₁ d₂ : Draft} {as bs : List Bindable} {part ts us : Tokens} {w : Word}

/-- Inert tokens are emitted without binding anything. -/
theorem of_inert (h : Inert q ts) (d : Draft) : Emits q d [] ts d :=
  ⟨rfl, h.labels, fun hq _ => h.sound hq⟩

/-- A single word is emitted without binding anything. -/
theorem word (w : Word) (d : Draft) : Emits q d [] [.word w] d :=
  of_inert ⟨rfl, fun _ => Sound.singleton (t := .word w) trivial⟩ d

/-- What binds nothing leaves the draft alone. -/
theorem draft_eq (h : Emits q d [] ts d₁) : d₁ = d := h.draft

/-- What binds nothing is inert. -/
theorem inert (h : Emits q d [] ts d₁) : Inert q ts :=
  ⟨h.labels, fun hq => h.sound hq (by simp)⟩

/-- What binds values only is sound. -/
theorem sound_of_values {vs : List Value} (h : Emits q d (vs.map .value) ts d₁)
    (hq : '"' ∉ q.tablePrefix.toList) : Sound ts :=
  h.sound hq fun _ => Bindable.isSome_value?_of_mem_map

/-- One part after another, unless their texts would run into each other. -/
theorem append (ha : Emits q d as ts d₁) (hb : Emits q d₁ bs us d₂) (hled : ts ≠ [] → Led us) :
    Emits q d (as ++ bs) (ts ++ us) d₂ := by
  -- The second part counts on from the names of the first one.
  refine ⟨?_, ?_, ?_⟩
  · rw [hb.draft, ha.draft, Draft.takeAll_append]
  · rw [List.filterMap_append, ha.labels, hb.labels, ha.draft, Draft.takeAll_next, ← Sql.labels_add,
      madeFor, madeFor, madeFor, List.filterMap_append, List.length_append]
  · intro hq hvalues
    have hts : Sound ts := ha.sound hq fun b hb => hvalues b (List.mem_append_left bs hb)
    have hus : Sound us := hb.sound hq fun b hb => hvalues b (List.mem_append_right as hb)
    -- An empty first part needs no separating word behind it.
    by_cases hne : ts = []
    · rwa [hne, List.nil_append]
    · exact hts.append hus (hled hne)

/-- A part with a word before it. -/
theorem cons (hw : w.opens) (h : Emits q d bs ts d₁) : Emits q d bs (.word w :: ts) d₁ :=
  ⟨h.draft, h.labels, fun hq hvalues => (h.sound hq hvalues).cons hw⟩

/-- A part with a word behind it. -/
theorem concat (hw : w.separates) (h : Emits q d bs ts d₁) : Emits q d bs (ts ++ [.word w]) d₁ := by
  have hall := h.append (word w d₁) fun _ => Sql.led_cons.2 hw
  rwa [List.append_nil] at hall

/-- Something in parentheses binds what it binds without them. -/
theorem parenthesized (h : Emits q d bs ts d₁) :
    Emits q d bs (Token.word .openParen :: ts ++ [Token.word .closeParen]) d₁ :=
  (h.cons (w := .openParen) (by decide)).concat (by decide)

/-- A comparison binds what its two sides bind. -/
theorem comparison (op : Sql.Comparison) (ha : Emits q d as ts d₁) (hb : Emits q d₁ bs us d₂) :
    Emits q d (as ++ bs) (ts ++ Token.word (.compare op) :: us) d₂ := by
  have hopens : Word.opens (.compare op) := by cases op <;> decide
  have hseparates : Word.separates (.compare op) := by cases op <;> decide
  exact ha.append (hb.cons hopens) fun _ => Sql.led_cons.2 hseparates

/-- Two conditions under a connective bind what each of them binds. -/
theorem connected (c : Sql.Connective) (ha : Emits q d as ts d₁) (hb : Emits q d₁ bs us d₂) :
    Emits q d (as ++ bs) (ts ++ Token.word (.connect c) :: us) d₂ := by
  have hopens : Word.opens (.connect c) := by cases c <;> decide
  have hseparates : Word.separates (.connect c) := by cases c <;> decide
  exact ha.append (hb.cons hopens) fun _ => Sql.led_cons.2 hseparates

/-- A quoted table binds nothing. -/
theorem table {name : String} (h : (Build.table name).exec q d = (.ok ts, d₁)) :
    Emits q d [] ts d₁ := by
  obtain ⟨hname, rfl⟩ := Build.exec_table_ok.1 h
  exact of_inert (.table hname) d

/-- A quoted column binds nothing. -/
theorem column {name : String} (h : (Build.column name).exec q d = (.ok ts, d₁)) :
    Emits q d [] ts d₁ := by
  obtain ⟨hname, rfl⟩ := Build.exec_column_ok.1 h
  exact of_inert (.column hname) d

/-- A quoted column without qualification binds nothing. -/
theorem plainColumn {name : String} (h : (Build.plainColumn name).exec q d = (.ok ts, d₁)) :
    Emits q d [] ts d₁ := by
  obtain ⟨hname, rfl⟩ := Build.exec_plainColumn_ok.1 h
  exact of_inert (.plainColumn hname) d

/-- A value for which a name is made is bound under it. -/
theorem pushValue {v : Value} {t : Token} (h : (Build.pushValue v).exec q d = (.ok t, d₁)) :
    Emits q d [.value v] [t] d₁ := by
  obtain ⟨rfl, rfl⟩ := Build.exec_pushValue_ok.1 h
  refine ⟨rfl, rfl, fun _ _ => Sound.singleton ?_⟩
  exact Sql.isLabel_placeholderName d.next

end Emits

/-- Parts that are built one after the other, each from the draft of the one before. -/
inductive EmitsEach (q : Quoter) : Draft → List Bindable → List Tokens → Draft → Prop where
  /-- There are no parts. -/
  | nil (d : Draft) : EmitsEach q d [] [] d
  /-- There is a first part, and others behind it. -/
  | cons {d d₁ d₂ : Draft} {as bs : List Bindable} {part : Tokens} {parts : List Tokens}
      (first : Emits q d as part d₁) (others : EmitsEach q d₁ bs parts d₂) :
      EmitsEach q d (as ++ bs) (part :: parts) d₂

namespace EmitsEach

variable {q : Quoter} {d d' : Draft} {bs : List Bindable} {parts : List Tokens} {w : Word}

/-- Parts built over a list, when each of them emits what its item has to bind. -/
theorem of_mapM {α : Type} {f : α → Build Tokens} {g : α → List Bindable} {items : List α}
    (hf : ∀ a ∈ items, ∀ {d ts d'}, (f a).exec q d = (.ok ts, d') → Emits q d (g a) ts d')
    (h : (items.mapM f).exec q d = (.ok parts, d')) :
    EmitsEach q d (items.flatMap g) parts d' := by
  -- The draft changes with every item, so it is general in the induction.
  induction items generalizing d parts with
  | nil =>
    obtain ⟨rfl, rfl⟩ := Build.exec_mapM_nil_ok.1 h
    exact nil d
  | cons a items ih =>
    obtain ⟨part, d₁, hpart, rest, hrest, rfl⟩ := Build.exec_mapM_cons_ok.1 h
    rw [List.flatMap_cons]
    exact cons (hf a (by simp) hpart) (ih (fun b hb => hf b (by simp [hb])) hrest)

/-- Parts that bind nothing over a list. -/
theorem of_mapM_nil {α : Type} {f : α → Build Tokens} {items : List α}
    (hf : ∀ a ∈ items, ∀ {d ts d'}, (f a).exec q d = (.ok ts, d') → Emits q d [] ts d')
    (h : (items.mapM f).exec q d = (.ok parts, d')) : EmitsEach q d [] parts d' := by
  have heach := of_mapM (g := fun _ => []) hf h
  rwa [List.flatMap_eq_nil_iff.2 fun _ _ => rfl] at heach

/-- The parameters made for a list of values. -/
theorem of_pushValues {values : List Value} {parameters : List Token}
    (h : (values.mapM Build.pushValue).exec q d = (.ok parameters, d')) :
    EmitsEach q d (values.map .value) (parameters.map fun p => [p]) d' := by
  induction values generalizing d parameters with
  | nil =>
    obtain ⟨rfl, rfl⟩ := Build.exec_mapM_nil_ok.1 h
    exact nil d
  | cons v values ih =>
    obtain ⟨parameter, d₁, hparameter, rest, hrest, rfl⟩ := Build.exec_mapM_cons_ok.1 h
    exact cons (.pushValue hparameter) (ih hrest)

/-- Parts with a word between each two of those that are kept, when only empty ones are not. -/
theorem joinWith_filter {p : Tokens → Bool} (hopens : w.opens) (hseparates : w.separates)
    (hkeep : ∀ part ∈ parts, p part = false → part = []) (h : EmitsEach q d bs parts d') :
    Emits q d bs (Sql.joinWith w (parts.filter p)) d' := by
  induction h with
  | nil d => exact Emits.of_inert ⟨rfl, fun _ => Sound.nil⟩ d
  | @cons d d₁ d₂ as bs part parts first others ih =>
    have hothers := ih fun part hpart => hkeep part (by simp [hpart])
    -- The separating word stands only between parts that are kept.
    by_cases hpart : p part
    · rw [List.filter_cons_of_pos hpart]
      cases hrest : parts.filter p with
      | nil =>
        rw [hrest] at hothers
        simpa [Sql.joinWith] using first.append hothers (by simp [Sql.joinWith])
      | cons next rest =>
        rw [hrest] at hothers
        exact first.append (hothers.cons hopens) fun _ => Sql.led_cons.2 hseparates
    · -- A part that is left out is empty, but what it has bound stays.
      obtain rfl := hkeep part (by simp) (by simpa using hpart)
      rw [List.filter_cons_of_neg hpart]
      exact first.append hothers (by simp)

/-- Parts with a word between each two of them. -/
theorem joinWith (hopens : w.opens) (hseparates : w.separates) (h : EmitsEach q d bs parts d') :
    Emits q d bs (Sql.joinWith w parts) d' := by
  have hall := h.joinWith_filter (p := fun _ => true) hopens hseparates (by simp)
  rwa [List.filter_true] at hall

end EmitsEach

end BoundSql
