import BoundSql.Proofs.Keyed
import BoundSql.Row

/-!
# Rows as mappings

A row is asked for the first column of a name, and a mapping keeps the value that was put last. So a
row and its mapping agree exactly if the first and the last column of each name show the same value,
and they always do if no name is repeated (`toJson_agrees_iff`).
-/

namespace BoundSql.Row

variable {row : Row} {column : String}

/-- The columns of a row with their values. -/
def entries (row : Row) : List (String × Value) := row.columns.zip row.values

/-- The values of the columns of a name, in their order. -/
def valuesOf (row : Row) (column : String) : List Value :=
  (row.entries.filter fun entry => entry.1 = column).map Prod.snd

/-- Asking for a column finds the first one of its name. -/
theorem get?_eq_head? (row : Row) (column : String) :
    row.get? column = (row.valuesOf column).head? := by
  rw [valuesOf, ← Keyed.get?_eq_head?, entries, get?]
  obtain ⟨columns, values⟩ := row
  change ((columns.idxOf? column).bind fun i => values[i]?) = Keyed.get? column (columns.zip values)
  induction columns generalizing values with
  | nil => rfl
  | cons first columns ih =>
    rw [List.idxOf?_cons]
    cases values with
    | nil => simp [Keyed.get?]
    | cons value values =>
      rw [List.zip_cons_cons, Keyed.get?, ← ih]
      by_cases hfirst : first = column
      · simp [hfirst]
      · rw [if_neg (by simpa using hfirst), if_neg hfirst, Option.bind_map]
        rfl

/-- The mapping of a row has the value of the last column of a name. -/
theorem member?_toJson (row : Row) (column : String) :
    row.toJson.member? column = (row.valuesOf column).getLast?.map Value.toJson := by
  have hentries : row.columns.zip (row.values.map Value.toJson) =
      row.entries.map fun entry => (entry.1, entry.2.toJson) := List.zip_map_right ..
  rw [toJson, Json.member?, Keyed.get?_putAll, hentries, ← List.map_reverse, Keyed.get?_map,
    Keyed.get?_eq_head?, List.filter_reverse, List.map_reverse, List.head?_reverse, valuesOf]
  exact Option.or_none

/-- The names of the columns that have values stand in the order of the columns. -/
theorem sublist_keys_entries (row : Row) : (Keyed.keys row.entries).Sublist row.columns := by
  obtain ⟨columns, values⟩ := row
  rw [Keyed.keys, entries]
  dsimp only
  induction columns generalizing values with
  | nil => exact List.nil_sublist _
  | cons first columns ih =>
    cases values with
    | nil => exact List.nil_sublist _
    | cons value values => exact (ih values).cons_cons first

/-- Columns of different names have one value each. -/
theorem length_valuesOf_le_one (h : row.columns.Nodup) : (row.valuesOf column).length ≤ 1 := by
  have hnames : (Keyed.keys (row.entries.filter fun entry => entry.1 = column)).Nodup :=
    (h.sublist row.sublist_keys_entries).sublist (List.filter_sublist.map Prod.fst)
  -- All these names are the same.
  have hsame : Keyed.keys (row.entries.filter fun entry => entry.1 = column) =
      List.replicate (row.valuesOf column).length column := by
    rw [valuesOf, List.length_map, List.eq_replicate_iff, Keyed.keys, List.length_map]
    exact ⟨rfl, by simp⟩
  rwa [hsame, List.nodup_replicate] at hnames

/-- A row and its mapping show the same under each of its columns exactly if the first and the last
column of each name show the same. Rows whose columns have different names agree with their
mappings. -/
theorem toJson_agrees_iff (row : Row) :
    ((∀ column ∈ row.columns,
        row.toJson.member? column = (row.get? column).map Value.toJson) ↔
      ∀ column ∈ row.columns, (row.valuesOf column).head?.map Value.toJson =
        (row.valuesOf column).getLast?.map Value.toJson) ∧
    (row.columns.Nodup → ∀ column,
      row.toJson.member? column = (row.get? column).map Value.toJson) := by
  simp only [member?_toJson, get?_eq_head?]
  refine ⟨forall₂_congr fun _ _ => eq_comm, fun hnodup column => ?_⟩
  have hone : (row.valuesOf column).length ≤ 1 := length_valuesOf_le_one hnodup
  match row.valuesOf column, hone with
  | [], _ => rfl
  | [_], _ => rfl

/-- Two columns of one name, as a join has them: the row has the first value and its mapping the
second. -/
theorem toJson_disagrees_on_repeated_name :
    let row : Row := ⟨["id", "id"], [.int 1, .int 2]⟩
    row.columns.length = row.values.length ∧ "id" ∈ row.columns ∧
      (row.get? "id").map Value.toJson = some (.number (.natural 1)) ∧
      row.toJson.member? "id" = some (.number (.natural 2)) := by
  intro row
  exact ⟨rfl, by decide, rfl, rfl⟩

end BoundSql.Row
