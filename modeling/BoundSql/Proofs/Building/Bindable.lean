import BoundSql.Build
import BoundSql.Proofs.Keyed
import BoundSql.Proofs.Sql.Sound
import Mathlib.Data.List.Nodup

/-!
# What a statement binds

A statement brings two kinds of things into its bind map: values, for each of which a name is made,
and fragments, whose parameters come with names of their own. A list of them, in the order in which
they are met, says what becomes of a draft (`Draft.takeAll`) and which pairs of a name and a bound
value are put into the bind map one after the other (`bindingsFrom`).
-/

namespace BoundSql

/-- Something that a statement binds. -/
inductive Bindable where
  /-- A value; a name is made for it. -/
  | value (v : Value)
  /-- A fragment; its parameters have names. -/
  | fragment (f : Fragment)

namespace Bindable

/-- The value for which a name is made. -/
def value? : Bindable → Option Value
  | value v => some v
  | fragment _ => none

/-- Names are made for values. -/
theorem isSome_value?_of_mem_map {vs : List Value} {b : Bindable} (h : b ∈ vs.map value) :
    b.value?.isSome := by
  obtain ⟨v, -, rfl⟩ := List.mem_map.1 h
  rfl

/-- The pairs that are put into the bind map; `n` is the number of the next placeholder. -/
def bindings (n : Nat) : Bindable → List (String × Bound)
  | value v => [(Sql.placeholderName n, v.bind)]
  | fragment f => f.params.map fun param => (param.1, param.2.bind)

end Bindable

/-- The values for which names are made. -/
def madeFor (bs : List Bindable) : List Value := bs.filterMap Bindable.value?

/-- Names are made for all values among values. -/
theorem madeFor_map_value (vs : List Value) : madeFor (vs.map .value) = vs := by
  rw [madeFor, List.filterMap_map]
  exact List.filterMap_some

/-- The pairs that are put into the bind map, from the placeholder with the number `n` on. -/
def bindingsFrom (n : Nat) : List Bindable → List (String × Bound)
  | [] => []
  | b :: bs => b.bindings n ++ bindingsFrom (n + b.value?.toList.length) bs

/-- The names that are made for `count` values. -/
def Sql.labels (n count : Nat) : List String := (List.range' n count).map Sql.placeholderName

namespace Draft

/-- The draft after binding something. -/
def take (d : Draft) : Bindable → Draft
  | .value v => ⟨d.binds.bind (Sql.placeholderName d.next) v, d.next + 1⟩
  | .fragment f => ⟨d.binds.bindAll f.params, d.next⟩

/-- The draft after binding things one after the other. -/
def takeAll (d : Draft) (bs : List Bindable) : Draft := bs.foldl take d

/-- Binding things after others. -/
theorem takeAll_append (d : Draft) (as bs : List Bindable) :
    d.takeAll (as ++ bs) = (d.takeAll as).takeAll bs := by
  simp only [takeAll, List.foldl_append]

/-- A draft counts the values for which it has made names. -/
theorem takeAll_next (d : Draft) (bs : List Bindable) :
    (d.takeAll bs).next = d.next + (madeFor bs).length := by
  -- Only values move the counter.
  induction bs generalizing d with
  | nil => rfl
  | cons b bs ih =>
    change ((d.take b).takeAll bs).next = _
    rw [ih]
    cases b with
    | value v =>
      simp only [take, madeFor, List.filterMap_cons, Bindable.value?, List.length_cons]
      omega
    | fragment f => simp only [take, madeFor, List.filterMap_cons, Bindable.value?]

/-- A draft has put all pairs into its bind map, one after the other. -/
theorem takeAll_binds (d : Draft) (bs : List Bindable) :
    (d.takeAll bs).binds = Keyed.putAll (bindingsFrom d.next bs) d.binds := by
  induction bs generalizing d with
  | nil => rfl
  | cons b bs ih =>
    change ((d.take b).takeAll bs).binds = _
    rw [ih, bindingsFrom, Keyed.putAll_append]
    cases b with
    | value v => rfl
    | fragment f =>
      have hall : d.binds.bindAll f.params =
          Keyed.putAll ((Bindable.fragment f).bindings d.next) d.binds := by
        rw [Keyed.putAll, Bindable.bindings, List.foldl_map]
        rfl
      rw [← hall]
      rfl

end Draft

namespace Sql

/-- The names that are made for two lists of values. -/
theorem labels_add (n a b : Nat) : labels n (a + b) = labels n a ++ labels (n + a) b := by
  rw [labels, labels, labels, ← List.map_append, List.range'_append_1]

/-- Different numbers make different names. -/
theorem placeholderName_injective : Function.Injective placeholderName := by
  intro m n h
  have hlist := congrArg String.toList h
  simp only [placeholderName, String.toList_append, List.append_cancel_left_eq,
    List.append_cancel_right_eq] at hlist
  have hdigits : Nat.toDigits 10 m = Nat.toDigits 10 n := by simpa [toString] using hlist
  rw [← Nat.ofDigitChars_ten_toDigits (n := m), hdigits, Nat.ofDigitChars_ten_toDigits]

/-- No name is made twice. -/
theorem nodup_labels (n count : Nat) : (labels n count).Nodup :=
  List.Nodup.map placeholderName_injective List.nodup_range'

/-- The names that are made are names of parameters. -/
theorem isLabel_placeholderName (n : Nat) : IsLabel (placeholderName n).toList := by
  refine ⟨'p', 'h' :: Nat.toDigits 10 n ++ ['_', 'b'], ?_, by decide, ?_⟩
  · simp [placeholderName, toString]
  · intro c hc
    have hdigits : ∀ c ∈ Nat.toDigits 10 n, Text.isAsciiWord c := fun c hc => by
      have := Nat.isDigit_of_mem_toDigits (by decide) (by decide) hc
      simp [Text.isAsciiWord, Char.isAlphanum, this]
    rcases List.mem_append.1 hc with hc | hc
    · rcases List.mem_cons.1 hc with rfl | hc
      · decide
      · exact hdigits c hc
    · have hend : ∀ c ∈ ['_', 'b'], Text.isAsciiWord c := List.all_eq_true.1 (by decide)
      exact hend c hc

end Sql

/-- What is bound by values alone: the name that is made for each, with its bound form. -/
theorem bindingsFrom_values (n : Nat) (vs : List Value) :
    bindingsFrom n (vs.map .value) = (Sql.labels n vs.length).zip (vs.map Value.bind) := by
  induction vs generalizing n with
  | nil => rfl
  | cons v vs ih =>
    rw [List.map_cons, bindingsFrom, ih]
    rfl

end BoundSql
