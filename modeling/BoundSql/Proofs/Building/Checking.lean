import BoundSql.Proofs.Building.Failure
import BoundSql.Proofs.Projection.Notation

/-!
# Parts that check columns

A part that names columns quotes them one after the other and stops at the first one that is
malformed. What such a part fails with is told by the list of its columns alone: the values that it
binds, the draft and the text before the names of tables make no difference.

* `FirstMalformed`: the first malformed one among columns;
* `Sql.Quoter.column_error_iff`: when a column is rejected;
* `Build.Checks`: a part that fails for the first malformed one among its columns, and not
  otherwise.
-/

namespace BoundSql

/-- The first column that is neither a name nor two names with a point between them. -/
inductive FirstMalformed : List String → String → Prop where
  /-- It is the first column. -/
  | head {column : String} {rest : List String} (malformed : ¬Fragment.IsQualified column.toList) :
    FirstMalformed (column :: rest) column
  /-- The first column is well-formed, and the malformed one stands behind it. -/
  | tail {first column : String} {rest : List String} (formed : Fragment.IsQualified first.toList)
    (later : FirstMalformed rest column) : FirstMalformed (first :: rest) column

namespace FirstMalformed

variable {columns others : List String} {column : String}

/-- Among no columns there is none. -/
theorem not_nil : ¬FirstMalformed [] column := nofun

/-- There is no malformed column exactly if all are well-formed. -/
theorem forall_not_iff :
    (∀ column, ¬FirstMalformed columns column) ↔
      ∀ column ∈ columns, Fragment.IsQualified column.toList := by
  induction columns with
  | nil => exact iff_of_true (fun _ => not_nil) (by simp)
  | cons first rest ih =>
    rw [List.forall_mem_cons, ← ih]
    constructor
    · intro h
      have hfirst : Fragment.IsQualified first.toList := not_not.1 fun hfirst => h _ (.head hfirst)
      exact ⟨hfirst, fun column hcolumn => h column (.tail hfirst hcolumn)⟩
    · rintro ⟨hfirst, hrest⟩ column (hcolumn | ⟨-, hcolumn⟩)
      · exact hcolumn hfirst
      · exact hrest column hcolumn

/-- The first malformed column stands among the first columns, or these are well-formed and it stands
among the others. -/
theorem append_iff :
    FirstMalformed (columns ++ others) column ↔
      FirstMalformed columns column ∨
        (∀ column, ¬FirstMalformed columns column) ∧ FirstMalformed others column := by
  induction columns with
  | nil => simp [not_nil]
  | cons first rest ih =>
    rw [List.cons_append]
    constructor
    · rintro (hfirst | ⟨hfirst, hlater⟩)
      · exact .inl (.head hfirst)
      · rcases ih.1 hlater with hrest | ⟨hrest, hothers⟩
        · exact .inl (.tail hfirst hrest)
        · refine .inr ⟨fun column hcolumn => ?_, hothers⟩
          cases hcolumn with
          | head hmalformed => exact hmalformed hfirst
          | tail _ hcolumn => exact hrest column hcolumn
    · rintro ((hfirst | ⟨hfirst, hrest⟩) | ⟨hnone, hothers⟩)
      · exact .head hfirst
      · exact .tail hfirst (ih.2 (.inl hrest))
      · have hfirst : Fragment.IsQualified first.toList :=
          not_not.1 fun hfirst => hnone _ (.head hfirst)
        exact .tail hfirst (ih.2 (.inr ⟨fun column h => hnone column (.tail hfirst h), hothers⟩))

end FirstMalformed

/-- A column is rejected, with its name in the message, exactly if it is malformed. -/
theorem Sql.Quoter.column_error_iff {q : Quoter} {column : String} {e : Error} :
    q.column column = .error e ↔
      ¬Fragment.IsQualified column.toList ∧ e = .incorrectColumn column := by
  have hpoint : ∀ {name : List Char}, isName name → '.' ∉ name := fun h hmem =>
    absurd (Fragment.isNameChar_of_mem h '.' hmem) (by decide)
  rw [Quoter.column]
  cases hsplit : Text.splitAtFirst? '.' column.toList with
  | none =>
    have hundotted := Text.splitAtFirst?_eq_none_iff.1 hsplit
    have hname : Fragment.IsQualified column.toList ↔ isName column.toList := by
      refine ⟨fun h => h.resolve_right ?_, .inl⟩
      rintro ⟨table, rest, heq, -⟩
      simp [heq] at hundotted
    rw [hname]
    dsimp only
    rw [plainColumn]
    split
    · next h => exact iff_of_false (by simp) fun hbad => hbad.1 h
    · next h => exact ⟨fun he => ⟨h, (Except.error.inj he).symm⟩, fun hbad => hbad.2 ▸ rfl⟩
  | some parts =>
    obtain ⟨qualifier, rest⟩ := parts
    obtain ⟨hqualifier, heq⟩ := Text.splitAtFirst?_eq_some_iff.1 hsplit
    have hnames : Fragment.IsQualified column.toList ↔ isName qualifier ∧ isName rest := by
      constructor
      · rintro (hname | ⟨table, name, heq', htable, hname⟩)
        · exact absurd (heq ▸ List.mem_append_right _ List.mem_cons_self) (hpoint hname)
        · -- The first point is the only one.
          have hsplit' : Text.splitAtFirst? '.' (table ++ '.' :: name) = some (table, name) :=
            Text.splitAtFirst?_append (hpoint htable)
          rw [← heq', hsplit] at hsplit'
          obtain ⟨rfl, rfl⟩ := Prod.mk.inj (Option.some.inj hsplit')
          exact ⟨htable, hname⟩
      · rintro ⟨hq, hr⟩
        exact .inr ⟨qualifier, rest, heq, hq, hr⟩
    rw [hnames, ← Bool.and_eq_true]
    dsimp only
    split
    · next h => exact iff_of_false (by simp) fun hbad => hbad.1 h
    · next h => exact ⟨fun he => ⟨h, (Except.error.inj he).symm⟩, fun hbad => hbad.2 ▸ rfl⟩

namespace Build

variable {α β : Type} {columns others : List String}

/-- A part that checks columns one after the other: it fails for the first malformed one, and it
fails for nothing else. -/
def Checks (columns : List String) (part : Build α) : Prop :=
  ∀ q d e, (part.exec q d).1 = .error e ↔
    ∃ column, FirstMalformed columns column ∧ e = .incorrectColumn column

namespace Checks

/-- Nothing is checked where nothing fails. -/
theorem of_never {part : Build α} (h : ∀ q d e, (part.exec q d).1 ≠ .error e) : Checks [] part :=
  fun q d e => iff_of_false (h q d e) fun ⟨_, hcolumn, _⟩ => FirstMalformed.not_nil hcolumn

/-- What is returned is not checked. -/
theorem pure (a : α) : Checks [] (pure a) := .of_never fun _ _ _ => nofun

/-- A value is not checked. -/
theorem pushValue (value : Value) : Checks [] (pushValue value) := .of_never fun _ _ _ => nofun

/-- A column is checked. -/
theorem column (name : String) : Checks [name] (column name) := by
  intro q d e
  have hexec : ((Build.column name).exec q d).1 = q.column name := by
    show ((ofExcept (q.column name)).exec q d).1 = _
    cases q.column name <;> rfl
  rw [hexec, Sql.Quoter.column_error_iff]
  constructor
  · rintro ⟨hmalformed, rfl⟩
    exact ⟨name, .head hmalformed, rfl⟩
  · rintro ⟨column, hcolumn | ⟨_, hcolumn⟩, rfl⟩
    · exact ⟨hcolumn, rfl⟩
    · exact absurd hcolumn FirstMalformed.not_nil

/-- The columns of parts that are built one after the other are checked one after the other. -/
theorem bind {part : Build α} {next : α → Build β} (h : Checks columns part)
    (hnext : ∀ a, Checks others (next a)) : Checks (columns ++ others) (part >>= next) := by
  intro q d e
  have hfirst := h q d
  rw [exec_bind]
  simp only [FirstMalformed.append_iff]
  rcases hpart : part.exec q d with ⟨x | a, d₁⟩ <;> rw [hpart] at hfirst
  · -- The first part fails, so that there is a malformed column among its own.
    obtain ⟨found, hfound, -⟩ := (hfirst x).1 rfl
    have hsome : ¬∀ column, ¬FirstMalformed columns column := fun hnone => hnone found hfound
    simpa [hsome] using hfirst e
  · have hnone : ∀ column, ¬FirstMalformed columns column := fun column hcolumn =>
      nomatch (hfirst _).2 ⟨column, hcolumn, rfl⟩
    simpa [hnone] using hnext a q d₁ e

/-- A part that is built before one that checks nothing. -/
theorem bind_unchecked {part : Build α} {next : α → Build β} (h : Checks columns part)
    (hnext : ∀ a, Checks [] (next a)) : Checks columns (part >>= next) := by
  have hall := h.bind hnext
  rwa [List.append_nil] at hall

/-- A run over parts checks their columns one part after the other. -/
theorem mapM {f : α → Build β} {named : α → List String} {as : List α}
    (h : ∀ a ∈ as, Checks (named a) (f a)) : Checks (as.flatMap named) (as.mapM f) := by
  induction as with
  | nil => exact .pure []
  | cons a as ih =>
    rw [List.mapM_cons, List.flatMap_cons]
    refine (h a (by simp)).bind fun b => ?_
    exact (ih fun x hx => h x (by simp [hx])).bind_unchecked fun bs => .pure (b :: bs)

/-- Values are not checked. -/
theorem pushValues (values : List Value) : Checks [] (values.mapM Build.pushValue) := by
  have hall : Checks (values.flatMap fun _ => []) (values.mapM Build.pushValue) :=
    mapM fun value _ => pushValue value
  rwa [List.flatMap_eq_nil_iff.2 fun _ _ => rfl] at hall

/-- A part that checks columns only fails for a name. -/
theorem failsWith {part : Build α} (h : Checks columns part) :
    FailsWith Error.RejectsName part := by
  intro q d e he
  obtain ⟨column, -, rfl⟩ := (h q d e).1 he
  exact ⟨_, rfl⟩

end Checks

end Build

end BoundSql
