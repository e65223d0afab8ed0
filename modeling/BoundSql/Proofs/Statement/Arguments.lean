import BoundSql.Statement.OfJson

/-!
# A mapping that stands alone

A query is given by its columns and its filter. A single mapping can be either: it is taken for the
columns by its looks, which are those of its members only, and for the filter otherwise. What a
member holds further down is not looked at, so that a mapping can look like columns without being
any. Such a mapping is a filter, and it is refused.

* `Projection.RulesOut`: the members by which a mapping does not look like columns;
* `Filter.exists_ofJson`: a mapping that looks like columns is a filter as well;
* `Query.ofArguments_filter_iff`: the filters that are read as filters when they stand alone.
-/

namespace BoundSql

variable {members : List (String × Json)}

/-- Whether a value holds no others: it is neither a list nor a mapping. -/
def Json.IsScalar : Json → Prop
  | .array _ | .object _ => False
  | _ => True

/-- Whether a member shows that its mapping is none of columns: its name has a meaning of its own, as
a reserved word, a tag or a number, or its value is neither a list nor a mapping. -/
def Projection.RulesOut (member : String × Json) : Prop :=
  member.1 ∈ Json.reservedKeys ∨ (Sql.Connective.ofTag? member.1).isSome ∨
    (∀ c ∈ member.1.toList, c.isDigit) ∨ member.2.IsScalar

/-- The members that rule columns out are those that do not look like columns. -/
theorem Projection.rulesOut_iff {member : String × Json} :
    RulesOut member ↔ isColumnMember member = false := by
  obtain ⟨key, json⟩ := member
  simp only [RulesOut, isColumnMember, Bool.and_eq_false_iff, Bool.not_eq_eq_eq_not, Bool.not_false,
    List.contains_iff_mem, List.all_eq_true, or_assoc]
  refine or_congr Iff.rfl (or_congr ?tag (or_congr Iff.rfl ?value))
  case tag => cases Sql.Connective.ofTag? key <;> simp
  case value => cases json <;> simp [Json.IsScalar]

/-- A mapping looks like columns unless one of its members rules them out. -/
theorem Projection.exists_rulesOut_iff :
    (∃ member ∈ members, RulesOut member) ↔ isColumnMapping (.object members) = false := by
  simp only [isColumnMapping, List.all_eq_false, rulesOut_iff, Bool.not_eq_true]

/-! ### Mappings that look like columns -/

/-- Any value stands for a condition on the column under whose name it is found. -/
theorem Condition.exists_ofPlain {key : String} (h : Json.isPosition key = false) (json : Json) :
    ∃ c, Condition.ofPlain key json = .ok c := by
  unfold Condition.ofPlain
  rw [if_neg (Bool.eq_false_iff.1 h)]
  -- A list is a comparison and an operand, or else alternatives.
  split
  · split
    · split <;> exact ⟨_, rfl⟩
    · exact ⟨_, rfl⟩
  · exact ⟨_, rfl⟩

/-- A member that does not rule columns out is a condition on a column. -/
theorem Condition.exists_ofMember {key : String} {json : Json}
    (h : ¬Projection.RulesOut (key, json)) : ∃ c, Condition.ofMember key json = .ok c := by
  simp only [Projection.RulesOut, not_or] at h
  obtain ⟨-, htag, hdigits, hscalar⟩ := h
  have hposition : Json.isPosition key = false := by
    rw [Json.isPosition, Bool.and_eq_false_iff]
    exact .inr (List.all_eq_false.2 (by simpa using hdigits))
  cases json with
  | array items =>
    rw [Condition.ofMember]
    · exact exists_ofPlain hposition _
    · simp
  | object members =>
    rw [Condition.ofMember, Option.not_isSome_iff_eq_none.1 htag]
    exact exists_ofPlain hposition _
  | _ => exact absurd trivial hscalar

/-- A member that does not rule columns out is taken into every filter. -/
theorem Filter.exists_takeMember {key : String} {json : Json}
    (h : ¬Projection.RulesOut (key, json)) (f : Filter) :
    ∃ f', f.takeMember key json = .ok f' := by
  obtain ⟨c, hc⟩ := Condition.exists_ofMember h
  have hkey : key ∉ Json.reservedKeys := fun hkey => h (.inl hkey)
  unfold takeMember
  split
  case h_7 => exact ⟨_, congrArg (Except.map _) hc⟩
  all_goals exact absurd (by decide) hkey

/-- A mapping that looks like columns is a filter as well. -/
theorem Filter.exists_ofJson (h : ∀ member ∈ members, ¬Projection.RulesOut member) :
    ∃ f, Filter.ofJson (.object members) = .ok f := by
  have hread : ∀ start : Filter, ∃ f,
      members.foldlM (fun f (member : String × Json) => f.takeMember member.1 member.2) start =
        Except.ok f := by
    induction members with
    | nil => exact fun start => ⟨start, rfl⟩
    | cons member members ih =>
      intro start
      obtain ⟨next, hnext⟩ := exists_takeMember (h member (by simp)) start
      obtain ⟨f, hf⟩ := ih (fun other hother => h other (by simp [hother])) next
      refine ⟨f, ?_⟩
      rw [List.foldlM_cons, hnext]
      exact hf
  exact hread {}

/-! ### Mappings that stand alone -/

namespace Query

/-- A last mapping that does not look like columns is read as the filter. -/
theorem withArguments_of_rulesOut (h : ∃ member ∈ members, Projection.RulesOut member) (q : Query) :
    q.withArguments [.object members] =
      (Filter.ofJson (.object members)).map fun filter => { q with filter := some filter } := by
  rw [withArguments, if_neg (Bool.eq_false_iff.1 (Projection.exists_rulesOut_iff.1 h))]

/-- A last mapping that looks like columns is read as the columns. -/
theorem withArguments_of_looks (h : ∀ member ∈ members, ¬Projection.RulesOut member) (q : Query) :
    q.withArguments [.object members] =
      (Projection.ofJson (.object members)).map fun projection => { q with projection } := by
  have hlooks : Projection.isColumnMapping (.object members) = true := by
    rw [← Bool.not_eq_false, ← Projection.exists_rulesOut_iff]
    simpa using h
  rw [withArguments, if_pos hlooks]

/-- A mapping that is no columns is read as the filter exactly if one of its members rules columns
out. -/
theorem withArguments_filter_iff {e : Error} {filter : Filter} (q : Query)
    (hcolumns : Projection.ofJson (.object members) = .error e)
    (hfilter : Filter.ofJson (.object members) = .ok filter) :
    q.withArguments [.object members] = .ok { q with filter := some filter } ↔
      ∃ member ∈ members, Projection.RulesOut member := by
  constructor
  · intro hread
    refine Classical.byContradiction fun hnone => ?_
    simp only [not_exists, not_and] at hnone
    rw [withArguments_of_looks hnone, hcolumns] at hread
    cases hread
  · intro hsome
    rw [withArguments_of_rulesOut hsome, hfilter]
    rfl

/-- Arguments without joins are read as columns and filter. -/
theorem ofArguments_of_not_isJson {table : String} {first : Json} {rest : List Json}
    (h : Joins.isJson first = false) :
    ofArguments table (first :: rest) = withArguments { table } (first :: rest) := by
  rw [ofArguments, if_neg (Bool.eq_false_iff.1 h)]

/-- Arguments behind joins are read as columns and filter. -/
theorem ofArguments_of_isJson {table : String} {first : Json} {rest : List Json} {joins : Joins}
    (h : Joins.isJson first) (hjoins : Joins.ofJson first = .ok joins) :
    ofArguments table (first :: rest) = withArguments { table, joins := some joins } rest := by
  rw [ofArguments, if_pos h, hjoins]
  rfl

/-- A mapping that is no columns and is a filter is read as the filter of its query, be it alone or
behind joins, exactly if one of its members rules columns out. If none does, it is a filter all the
same, and it is refused with the failure of reading it as columns. -/
theorem ofArguments_filter_iff {table : String} {e : Error}
    (hfirst : Joins.isJson (.object members) = false)
    (hcolumns : Projection.ofJson (.object members) = .error e) :
    (∀ filter, Filter.ofJson (.object members) = .ok filter →
      (ofArguments table [.object members] = .ok { table, filter := some filter } ↔
        ∃ member ∈ members, Projection.RulesOut member) ∧
      ∀ first joins, Joins.isJson first → Joins.ofJson first = .ok joins →
        (ofArguments table [first, .object members] =
            .ok { table, joins := some joins, filter := some filter } ↔
          ∃ member ∈ members, Projection.RulesOut member)) ∧
    ((∀ member ∈ members, ¬Projection.RulesOut member) →
      (∃ filter, Filter.ofJson (.object members) = .ok filter) ∧
      ofArguments table [.object members] = .error e ∧
      ∀ first joins, Joins.isJson first → Joins.ofJson first = .ok joins →
        ofArguments table [first, .object members] = .error e) := by
  constructor
  · intro filter hfilter
    constructor
    · rw [ofArguments_of_not_isJson hfirst]
      exact withArguments_filter_iff _ hcolumns hfilter
    · intro first joins hjoined hjoins
      rw [ofArguments_of_isJson hjoined hjoins]
      exact withArguments_filter_iff _ hcolumns hfilter
  · intro hlooks
    refine ⟨Filter.exists_ofJson hlooks, ?alone, fun first joins hjoined hjoins => ?behind⟩
    case alone =>
      rw [ofArguments_of_not_isJson hfirst, withArguments_of_looks hlooks, hcolumns]
      rfl
    case behind =>
      rw [ofArguments_of_isJson hjoined hjoins, withArguments_of_looks hlooks, hcolumns]
      rfl

/-- A comparison, a group under a tag and a limit, alone and behind a join. -/
theorem ofArguments_filter_tagged :
    let members : List (String × Json) :=
      [("age", .array [.string ">", .number (.natural 18)]),
       ("OR #flags", .object [("vip", .bool true), ("banned", .null)]),
       ("LIMIT", .number (.natural 3))]
    let joined : Json := .object [("[>]posts", .string "uid")]
    let filter : Filter :=
      { conditions := [.compares "age" .greater (.int 18),
          .group .or (some "#flags") [.equals "vip" (.bool true), .equals "banned" .null]]
        limit := some (.count (.int 3)) }
    Joins.isJson (.object members) = false ∧
      Projection.ofJson (.object members) = .error (.invalidArgument "invalid column: 18") ∧
      Filter.ofJson (.object members) = .ok filter ∧
      ofArguments "users" [.object members] = .ok { table := "users", filter := some filter } ∧
      ofArguments "users" [joined, .object members] =
        .ok { table := "users", joins := some [("[>]posts", .shared ["uid"])],
              filter := some filter } := by
  intro members joined filter
  have hcolumns : Projection.ofJson (.object members) =
      .error (.invalidArgument "invalid column: 18") := by
    rfl
  have hfilter : Filter.ofJson (.object members) = .ok filter := by
    rfl
  have hmember : ∃ member ∈ members, Projection.RulesOut member :=
    ⟨("LIMIT", .number (.natural 3)), by simp [members], .inl (by decide)⟩
  obtain ⟨halone, hbehind⟩ := (ofArguments_filter_iff rfl hcolumns).1 filter hfilter
  exact ⟨rfl, hcolumns, hfilter, halone.2 hmember, (hbehind joined _ rfl rfl).2 hmember⟩

/-- A comparison of one column: it is no columns and a filter, and is read as the filter where the
columns stand before it, but alone it is refused as columns. -/
theorem ofArguments_refuses_comparison :
    let m : Json := .object [("age", .array [.string ">", .number (.natural 18)])]
    let filter : Filter := { conditions := [.compares "age" .greater (.int 18)] }
    Joins.isJson m = false ∧
      Projection.ofJson m = .error (.invalidArgument "invalid column: 18") ∧
      Filter.ofJson m = .ok filter ∧
      ofArguments "t" [.null, m] = .ok { table := "t", filter := some filter } ∧
      ofArguments "t" [m] = .error (.invalidArgument "invalid column: 18") := by
  refine ⟨rfl, ?_, ?_, ?_, ?_⟩
  all_goals rfl

end Query

end BoundSql
