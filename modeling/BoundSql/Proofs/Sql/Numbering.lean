import BoundSql.Proofs.Sql.Scanning
import BoundSql.Sql.Positional

/-!
# Numbers for names

In a statement with numbered parameters the numbers stand for the placeholders of the text, each
name once and in the order in which the names first come up.

* `positional_names`: the names, in the order of their numbers;
* `positional_sql`: the text, with the number of its name in the place of each placeholder.
-/

namespace BoundSql.Sql

/-- The characters of a segment when the placeholders are numbered from one by their names. -/
def Segment.numbered (names : List String) : Segment → List Char
  | placeholder chars => '$' :: Nat.toDigits 10 (names.idxOf (String.ofList chars) + 1)
  | segment => segment.source

/-- Names are found in the same place as texts and as characters. -/
theorem idxOf_map_ofList (name : List Char) (names : List (List Char)) :
    (names.map String.ofList).idxOf (String.ofList name) = names.idxOf name := by
  induction names with
  | nil => rfl
  | cons first names ih => simp only [List.map_cons, List.idxOf_cons, ih, beq_iff_eq, cond_eq_ite,
      String.ofList_inj]

/-- A name that has a number keeps it, and a new one gets the next number. -/
theorem numberName_eq (names : List (List Char)) (name : List Char) :
    numberName names name =
      (if name ∈ names then names else names ++ [name],
        (names ++ [name]).idxOf name + 1) := by
  rw [numberName]
  by_cases h : name ∈ names
  · have hfound : names.idxOf? name ≠ none := mt List.idxOf?_eq_none_iff.1 (not_not.2 h)
    obtain ⟨index, hindex⟩ := Option.ne_none_iff_exists'.1 hfound
    rw [hindex, if_pos h, List.idxOf_append_of_mem h, List.idxOf_eq_getD_idxOf?, hindex]
    rfl
  · rw [List.idxOf?_eq_none_iff.2 h, if_neg h, List.idxOf_append_of_notMem h]
    simp

/-- The names that segments add to others are those of their placeholders that are not among them,
each where it first comes up. -/
theorem positionalFrom_names (names : List (List Char)) (segments : List Segment) :
    (positionalFrom names segments).2.map String.ofList =
      names.map String.ofList ++ ((segments.filterMap Segment.label?).filter
        fun label => label ∉ names.map String.ofList).eraseDups := by
  induction segments generalizing names with
  | nil => simp [positionalFrom]
  | cons segment segments ih =>
    cases segment with
    | placeholder name =>
      have hmem : String.ofList name ∈ names.map String.ofList ↔ name ∈ names := by
        simp [String.ofList_inj]
      have hlabel : (Segment.placeholder name :: segments).filterMap Segment.label? =
          String.ofList name :: segments.filterMap Segment.label? := rfl
      rw [positionalFrom, numberName_eq, hlabel]
      dsimp only
      rw [ih]
      -- Only a name that is new is added, and behind it no second time.
      by_cases h : name ∈ names
      · rw [if_pos h, List.filter_cons_of_neg (by simpa using hmem.2 h)]
      · rw [if_neg h, List.filter_cons_of_pos (by simpa using mt hmem.1 h), List.eraseDups_cons,
          List.filter_filter, List.map_append, List.append_assoc]
        have hfilter : (segments.filterMap Segment.label?).filter
              (fun label => label ∉ names.map String.ofList ++ [String.ofList name]) =
            (segments.filterMap Segment.label?).filter
              (fun label => !label == String.ofList name && label ∉ names.map String.ofList) := by
          refine List.filter_congr fun label _ => ?_
          rw [Bool.eq_iff_iff]
          simp [and_comm]
        rw [List.map_singleton, hfilter]
        rfl
    | text chars => exact ih names
    | quotedName content => exact ih names

/-- The names before come first among the names afterwards. -/
theorem prefix_positionalFrom (names : List (List Char)) (segments : List Segment) :
    names.map String.ofList <+: (positionalFrom names segments).2.map String.ofList := by
  rw [positionalFrom_names]
  exact List.prefix_append _ _

/-- The text of segments has the number of its name in the place of each placeholder. -/
theorem positionalFrom_text (names : List (List Char)) (segments : List Segment) :
    (positionalFrom names segments).1 = segments.flatMap
      (Segment.numbered ((positionalFrom names segments).2.map String.ofList)) := by
  induction segments generalizing names with
  | nil => rfl
  | cons segment segments ih =>
    cases segment with
    | placeholder name =>
      rw [positionalFrom, List.flatMap_cons, numberName_eq]
      dsimp only
      generalize hnamed : (if name ∈ names then names else names ++ [name]) = named
      have hname : name ∈ named := by
        rw [← hnamed]
        split <;> simp [*]
      -- The number stays the same, whatever names come behind it.
      have hnumber : (names ++ [name]).idxOf name = named.idxOf name := by
        rw [← hnamed]
        split
        · next h => exact List.idxOf_append_of_mem h
        · rfl
      obtain ⟨later, hlater⟩ := prefix_positionalFrom named segments
      rw [Segment.numbered, ← hlater, List.idxOf_append_of_mem (List.mem_map_of_mem hname),
        idxOf_map_ofList, hnumber, hlater, ← ih]
    | text chars => exact congrArg (chars ++ ·) (ih names)
    | quotedName content => exact congrArg ((Segment.quotedName content).source ++ ·) (ih names)

/-- The numbered names are the placeholders of the text, each where it first comes up. -/
theorem positional_names (sql : String) :
    (positional sql).names = (placeholders sql).eraseDups := by
  have hnames := positionalFrom_names [] (segments sql)
  simp only [List.map_nil, List.nil_append, List.not_mem_nil, not_false_eq_true, decide_true,
    List.filter_true] at hnames
  exact hnames

/-- In the numbered text each placeholder is replaced by the number of its name. -/
theorem positional_sql (sql : String) :
    (positional sql).sql = String.ofList ((segments sql).flatMap
      (Segment.numbered (placeholders sql).eraseDups)) := by
  rw [← positional_names]
  exact congrArg String.ofList (positionalFrom_text [] (segments sql))

end BoundSql.Sql
