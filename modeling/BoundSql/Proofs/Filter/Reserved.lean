import BoundSql.Filter.OfJson
import BoundSql.Proofs.Building.Success
import BoundSql.Proofs.Filter.Rejection
import BoundSql.Proofs.Keyed

/-!
# Reserved words as columns

The words that have a meaning of their own in a mapping of conditions are looked for in the mapping
itself and not in the mappings inside of it: under a tag and in `HAVING` they are names of columns
like all others. So the columns of a filter that is read are those that its mapping names besides
the reserved words, and those that the mapping under the last `HAVING` names.

* `Condition.Names`: the columns that a mapping of conditions names;
* `Filter.reserved_columns_iff`: the mappings from which filters without reserved words as columns
  are read.
-/

namespace BoundSql

variable {members inner : List (String × Json)} {key column : String} {json : Json}

/-- Whether a mapping of conditions names a column, at any depth. -/
inductive Condition.Names : List (String × Json) → String → Prop where
  /-- The name of a member is a column, unless it is a number or the tag of a mapping. -/
  | key {members : List (String × Json)} {column : String} {json : Json}
      (hmem : (column, json) ∈ members) (hposition : Json.isPosition column = false)
      (htag : ∀ inner, json = .object inner → Sql.Connective.ofTag? column = none) :
      Names members column
  /-- Both sides of a comparison under a number are columns. -/
  | compared {members : List (String × Json)} {key left right column : String} {json : Json}
      {op : Sql.Comparison} (hmem : (key, json) ∈ members) (hposition : Json.isPosition key)
      (hcomparison : json.columnComparison? = some (left, op, right))
      (hside : column = left ∨ column = right) : Names members column
  /-- A mapping under a tag names columns of its own. -/
  | nested {members inner : List (String × Json)} {key column : String}
      (hmem : (key, .object inner) ∈ members) (htag : (Sql.Connective.ofTag? key).isSome)
      (hinner : Names inner column) : Names members column

namespace Condition

/-! ### Columns of a mapping -/

/-- Each member names columns for itself. -/
theorem names_iff_exists (members : List (String × Json)) :
    Names members column ↔ ∃ member ∈ members, Names [member] column := by
  constructor
  · rintro (⟨hmem, hposition, htag⟩ | ⟨hmem, hposition, hcomparison, hside⟩ | ⟨hmem, htag, hinner⟩)
    · exact ⟨_, hmem, .key (List.mem_singleton_self _) hposition htag⟩
    · exact ⟨_, hmem, .compared (List.mem_singleton_self _) hposition hcomparison hside⟩
    · exact ⟨_, hmem, .nested (List.mem_singleton_self _) htag hinner⟩
  · rintro ⟨member, hmember, hnames⟩
    cases hnames with
    | key hmem hposition htag =>
      exact .key (List.mem_singleton.1 hmem ▸ hmember) hposition htag
    | compared hmem hposition hcomparison hside =>
      exact .compared (List.mem_singleton.1 hmem ▸ hmember) hposition hcomparison hside
    | nested hmem htag hinner =>
      exact .nested (List.mem_singleton.1 hmem ▸ hmember) htag hinner

theorem not_names_nil : ¬Names [] column := by
  rw [names_iff_exists]
  simp only [List.not_mem_nil, false_and, exists_false, not_false_eq_true]

theorem names_append_iff {first second : List (String × Json)} :
    Names (first ++ second) column ↔ Names first column ∨ Names second column := by
  rw [names_iff_exists (first ++ second), names_iff_exists first, names_iff_exists second]
  simp only [List.mem_append, or_and_right, exists_or]

/-- A mapping under a tag names what it names for itself. -/
theorem names_nested_iff (htag : (Sql.Connective.ofTag? key).isSome) :
    Names [(key, .object inner)] column ↔ Names inner column := by
  constructor
  · intro hnames
    cases hnames with
    | key hmem _ hno =>
      obtain ⟨rfl, rfl⟩ := Prod.mk.inj (List.mem_singleton.1 hmem)
      rw [hno inner rfl] at htag
      cases htag
    | compared hmem _ hcomparison _ =>
      obtain ⟨rfl, rfl⟩ := Prod.mk.inj (List.mem_singleton.1 hmem)
      cases hcomparison
    | nested hmem _ hinner =>
      obtain ⟨rfl, hjson⟩ := Prod.mk.inj (List.mem_singleton.1 hmem)
      exact Json.object.inj hjson ▸ hinner
  · exact .nested (List.mem_singleton_self _) htag

/-- A member under a number names the sides of its comparison. -/
theorem names_compared_iff {left right : String} {op : Sql.Comparison}
    (hposition : Json.isPosition key)
    (hcomparison : json.columnComparison? = some (left, op, right)) :
    Names [(key, json)] column ↔ column = left ∨ column = right := by
  constructor
  · intro hnames
    cases hnames with
    | key hmem hno _ =>
      obtain ⟨rfl, -⟩ := Prod.mk.inj (List.mem_singleton.1 hmem)
      rw [hposition] at hno
      cases hno
    | compared hmem _ hother hside =>
      obtain ⟨rfl, rfl⟩ := Prod.mk.inj (List.mem_singleton.1 hmem)
      obtain ⟨rfl, -, rfl⟩ : _ ∧ _ ∧ _ := by simpa [hcomparison] using hother
      exact hside
    | nested hmem _ _ =>
      obtain ⟨rfl, rfl⟩ := Prod.mk.inj (List.mem_singleton.1 hmem)
      cases hcomparison
  · exact .compared (List.mem_singleton_self _) hposition hcomparison

/-- Any other member names the column of its own name. -/
theorem names_key_iff (hposition : Json.isPosition key = false)
    (htag : ∀ inner, json = .object inner → Sql.Connective.ofTag? key = none) :
    Names [(key, json)] column ↔ column = key := by
  constructor
  · intro hnames
    cases hnames with
    | key hmem _ _ => exact (Prod.mk.inj (List.mem_singleton.1 hmem)).1
    | compared hmem hyes _ _ =>
      obtain ⟨rfl, rfl⟩ := Prod.mk.inj (List.mem_singleton.1 hmem)
      rw [hposition] at hyes
      cases hyes
    | nested hmem hsome _ =>
      obtain ⟨rfl, rfl⟩ := Prod.mk.inj (List.mem_singleton.1 hmem)
      rw [htag _ rfl] at hsome
      cases hsome
  · rintro rfl
    exact .key (List.mem_singleton_self _) hposition htag

/-! ### Columns of the conditions that are read -/

/-- A member that is not nested is read as a condition on the columns that it names. -/
theorem mem_columnsRead_ofPlain_iff {c : Condition} (h : ofPlain key json = .ok c)
    (htag : ∀ inner, json = .object inner → Sql.Connective.ofTag? key = none) :
    column ∈ c.columnsRead ↔ Names [(key, json)] column := by
  unfold ofPlain at h
  split at h
  · next hposition =>
    obtain ⟨⟨left, op, right⟩, hread, rfl⟩ := exists_of_map_ok h
    have hcomparison : json.columnComparison? = some (left, op, right) := by
      unfold Json.columnComparison at hread
      split at hread
      · next hsome => rw [hsome, Except.ok.inj hread]
      · cases hread
    rw [names_compared_iff hposition hcomparison]
    simp [columnsRead]
  · next hposition =>
    have hcolumns : c.columnsRead = [key] := by
      split at h
      · split at h
        · split at h <;> exact Except.ok.inj h ▸ rfl
        · exact Except.ok.inj h ▸ rfl
      · exact Except.ok.inj h ▸ rfl
    rw [hcolumns, List.mem_singleton, names_key_iff (Bool.eq_false_iff.2 hposition) htag]

mutual

/-- The columns of a condition are those that its member names. -/
theorem mem_columnsRead_iff (key column : String) : ∀ {json : Json} {c : Condition},
    ofMember key json = .ok c → (column ∈ c.columnsRead ↔ Names [(key, json)] column)
  | .object inner, c, h => by
    rw [ofMember] at h
    split at h
    · next htag =>
      obtain ⟨conditions, hconditions, rfl⟩ := exists_of_map_ok h
      rw [columnsRead, names_nested_iff (Option.isSome_iff_exists.2 ⟨_, htag⟩)]
      exact mem_allColumnsRead_iff column hconditions
    · next htag => exact mem_columnsRead_ofPlain_iff h fun _ _ => htag
  | .null, c, h | .bool _, c, h | .number _, c, h | .string _, c, h | .array _, c, h => by
    rw [ofMember] at h
    · exact mem_columnsRead_ofPlain_iff h nofun
    · exact nofun

/-- The columns of conditions are those that their mapping names. -/
theorem mem_allColumnsRead_iff (column : String) : ∀ {members : List (String × Json)}
    {cs : List Condition}, ofMembers members = .ok cs →
      (column ∈ allColumnsRead cs ↔ Names members column)
  | [], cs, h => by
    rw [ofMembers] at h
    obtain rfl := Except.ok.inj h
    exact iff_of_false List.not_mem_nil not_names_nil
  | (key, json) :: rest, cs, h => by
    rw [ofMembers] at h
    obtain ⟨c, hc, h⟩ := exists_of_bind_ok h
    obtain ⟨others, hothers, h⟩ := exists_of_bind_ok h
    obtain rfl := Except.ok.inj h
    rw [allColumnsRead, List.mem_append, mem_columnsRead_iff key column hc,
      mem_allColumnsRead_iff column hothers]
    exact names_append_iff.symm

end

/-- The columns of conditions with one more behind them. -/
theorem mem_allColumnsRead_concat {cs : List Condition} {c : Condition} :
    column ∈ allColumnsRead (cs ++ [c]) ↔ column ∈ allColumnsRead cs ∨ column ∈ c.columnsRead := by
  induction cs with
  | nil => simp [allColumnsRead]
  | cons first cs ih => simp only [List.cons_append, allColumnsRead, List.mem_append, ih, or_assoc]

end Condition

namespace Filter

/-- The members of a mapping that stand for conditions. -/
def conditionMembers (members : List (String × Json)) : List (String × Json) :=
  members.filter fun member => !Json.reservedKeys.contains member.1

theorem conditionMembers_append_of_mem (hkey : key ∈ Json.reservedKeys) :
    conditionMembers (members ++ [(key, json)]) = conditionMembers members := by
  simp [conditionMembers, hkey]

theorem conditionMembers_append_of_not_mem (hkey : key ∉ Json.reservedKeys) :
    conditionMembers (members ++ [(key, json)]) = conditionMembers members ++ [(key, json)] := by
  simp [conditionMembers, hkey]

/-- What a member of a mapping changes of the conditions of a filter. -/
theorem takeMember_cases {f f' : Filter} (h : f.takeMember key json = .ok f') :
    (key ∉ Json.reservedKeys ∧ f'.having = f.having ∧
      ∃ c, Condition.ofMember key json = .ok c ∧ f'.conditions = f.conditions ++ [c]) ∨
    (key = "HAVING" ∧ f'.conditions = f.conditions ∧
      ∃ inner, json = .object inner ∧ Condition.ofMembers inner = .ok f'.having) ∨
    (key ∈ Json.reservedKeys ∧ key ≠ "HAVING" ∧ f'.conditions = f.conditions ∧
      f'.having = f.having) := by
  unfold takeMember at h
  split at h
  case h_1 | h_3 =>
    obtain ⟨_, -, rfl⟩ := exists_of_map_ok h
    exact .inr (.inr ⟨by decide, by decide, rfl, rfl⟩)
  case h_2 =>
    obtain ⟨inner, hmapping, h⟩ := exists_of_bind_ok h
    obtain ⟨conditions, hconditions, h⟩ := exists_of_bind_ok h
    obtain rfl := Except.ok.inj h
    refine .inr (.inl ⟨rfl, rfl, inner, ?_, hconditions⟩)
    cases json <;> cases hmapping
    rfl
  case h_4 | h_5 | h_6 =>
    obtain rfl := Except.ok.inj h
    exact .inr (.inr ⟨by decide, by decide, rfl, rfl⟩)
  case h_7 hgroup hhaving horder hlimit hlike hmatch =>
    obtain ⟨c, hc, rfl⟩ := exists_of_map_ok h
    refine .inl ⟨?_, rfl, c, hc, rfl⟩
    simp only [Json.reservedKeys, List.mem_cons, List.not_mem_nil, or_false, not_or]
    exact ⟨hgroup, hhaving, horder, hlimit, hlike, hmatch⟩

/-- The columns of the conditions of a filter are those that its mapping names besides the reserved
words; those of its conditions on groups are those that the last mapping under `HAVING` names. -/
theorem mem_columns_iff (column : String) {f : Filter}
    (h : Filter.ofJson (.object members) = .ok f) :
    (column ∈ Condition.allColumnsRead f.conditions ↔
      Condition.Names (conditionMembers members) column) ∧
    (column ∈ Condition.allColumnsRead f.having ↔
      ∃ inner, Keyed.get? "HAVING" members.reverse = some (.object inner) ∧
        Condition.Names inner column) := by
  change members.foldlM (fun (f : Filter) member => f.takeMember member.1 member.2) {} = .ok f at h
  -- The last `HAVING` is the one that counts, so the members are taken off at their end.
  induction members using List.reverseRecOn generalizing f with
  | nil =>
    obtain rfl := Except.ok.inj h
    exact ⟨iff_of_false List.not_mem_nil Condition.not_names_nil,
      iff_of_false List.not_mem_nil (by simp [Keyed.get?])⟩
  | append_singleton members member ih =>
    rw [List.foldlM_append] at h
    obtain ⟨start, hstart, h⟩ := exists_of_bind_ok h
    obtain ⟨next, htake, h⟩ := exists_of_bind_ok h
    obtain rfl := Except.ok.inj h
    obtain ⟨hconditions, hhaving⟩ := ih hstart
    obtain ⟨key, json⟩ := member
    change start.takeMember key json = _ at htake
    rw [List.reverse_append, List.reverse_singleton, List.singleton_append, Keyed.get?]
    obtain ⟨hkey, hsame, c, hc, hnext⟩ | ⟨rfl, hsame, inner, rfl, hinner⟩ |
      ⟨hkey, hother, hsame, hsame'⟩ := takeMember_cases htake
    · have hother : key ≠ "HAVING" := by
        rintro rfl
        exact hkey (by decide)
      rw [conditionMembers_append_of_not_mem hkey, Condition.names_append_iff, ← hconditions,
        ← Condition.mem_columnsRead_iff key column hc, hnext, hsame, if_neg hother]
      exact ⟨by rw [Condition.mem_allColumnsRead_concat], hhaving⟩
    · rw [conditionMembers_append_of_mem (by decide), hsame, if_pos rfl,
        Condition.mem_allColumnsRead_iff column hinner]
      exact ⟨hconditions, by simp⟩
    · rw [conditionMembers_append_of_mem hkey, hsame, hsame', if_neg hother]
      exact ⟨hconditions, hhaving⟩

/-- A filter that is read has no reserved word as a column, in its conditions and in its conditions
on groups at any depth, exactly if its mapping names none besides its own reserved members and the
mapping under its last `HAVING` names none. A reserved word that is the name of a member of the
mapping itself is never a column; further inside it is a column like all others. -/
theorem reserved_columns_iff {f : Filter} (h : Filter.ofJson (.object members) = .ok f) :
    (∀ column ∈ Condition.allColumnsRead f.conditions ++ Condition.allColumnsRead f.having,
      column ∉ Json.reservedKeys) ↔
    ∀ word ∈ Json.reservedKeys, ¬Condition.Names (conditionMembers members) word ∧
      ∀ inner, Keyed.get? "HAVING" members.reverse = some (.object inner) →
        ¬Condition.Names inner word := by
  constructor
  · intro hcolumns word hword
    obtain ⟨hconditions, hhaving⟩ := mem_columns_iff word h
    refine ⟨fun hnames => ?_, fun inner hinner hnames => ?_⟩
    · exact hcolumns word (List.mem_append_left _ (hconditions.2 hnames)) hword
    · exact hcolumns word (List.mem_append_right _ (hhaving.2 ⟨inner, hinner, hnames⟩)) hword
  · intro hnone column hcolumn hword
    obtain ⟨hconditions, hhaving⟩ := mem_columns_iff column h
    obtain ⟨htop, hgroups⟩ := hnone column hword
    rcases List.mem_append.1 hcolumn with hmem | hmem
    · exact htop (hconditions.1 hmem)
    · obtain ⟨inner, hinner, hnames⟩ := hhaving.1 hmem
      exact hgroups inner hinner hnames

/-- Alternatives, a condition on groups, and reserved words where they have their own meaning. -/
theorem reserved_columns_iff_alternatives :
    let alternatives : List (String × Json) :=
      [("age", .array [.string ">", .number (.natural 18)]), ("vip", .bool true)]
    let groups : List (String × Json) := [("total", .array [.string ">", .number (.natural 3)])]
    let members : List (String × Json) :=
      [("OR", .object alternatives), ("LIKE", .object [("name", .string "x")]),
       ("GROUP", .string "team"), ("HAVING", .object groups)]
    ∃ f, Filter.ofJson (.object members) = .ok f ∧
      ∀ word ∈ Json.reservedKeys, ¬Condition.Names (conditionMembers members) word ∧
        ¬Condition.Names groups word := by
  intro alternatives groups members
  have hread : Filter.ofJson (.object members) = .ok _ := rfl
  refine ⟨_, hread, fun word hword => ?_⟩
  obtain ⟨htop, hgroups⟩ := (reserved_columns_iff hread).1 (by decide) word hword
  exact ⟨htop, hgroups groups rfl⟩

/-- A reserved word in a mapping under a tag, and one in the mapping under `HAVING`: both are
columns. -/
theorem reserved_word_as_column :
    let alternatives : Json := .object [("a", .number (.natural 1)),
      ("LIKE", .object [("x", .bool true)])]
    let groups : Json := .object [("LIMIT", .number (.natural 3))]
    let condition : Condition :=
      .group .or none [.equals "a" (.int 1), .equals "LIKE" (.str "\x7b\"x\":true\x7d")]
    let having : Condition := .equals "LIMIT" (.int 3)
    Filter.ofJson (.object [("OR", alternatives), ("HAVING", groups)]) =
        .ok { conditions := [condition], having := [having] } ∧
      "LIKE" ∈ Json.reservedKeys ∧ "LIKE" ∈ condition.columnsRead ∧
      "LIMIT" ∈ Json.reservedKeys ∧ "LIMIT" ∈ having.columnsRead := by
  refine ⟨rfl, by decide, by decide, by decide, by decide⟩

end Filter

end BoundSql
