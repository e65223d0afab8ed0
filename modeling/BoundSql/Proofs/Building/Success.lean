import BoundSql.Build
import Mathlib.Data.List.Forall2

/-!
# Successful building

What it means that the building of a part of a statement succeeds, for each of the operations from
which parts are built. A compiler that is unfolded to these operations is taken apart by the
lemmas of this file, one step at a time: from the success of the whole follow the results of its
steps and the drafts between them.

* `Build.exec_bind_ok` and its siblings: what a part comes to that succeeds;
* `Build.Succeeds`: whether a part succeeds, whatever it comes to.
-/

namespace BoundSql

/-- There is a result exactly if it is one. -/
theorem isOk_iff_exists {ε α : Type} {x : Except ε α} : x.isOk ↔ ∃ a, x = .ok a := by
  cases x <;> simp [Except.isOk, Except.toBool]

/-- A result that was changed comes from one that was not. -/
theorem exists_of_map_ok {ε α β : Type} {f : α → β} {x : Except ε α} {b : β}
    (h : x.map f = .ok b) : ∃ a, x = .ok a ∧ f a = b := by
  cases x with
  | error e => cases h
  | ok a => exact ⟨a, rfl, Except.ok.inj h⟩

/-- A result that was computed from another one comes from one that was a success. -/
theorem exists_of_bind_ok {ε α β : Type} {x : Except ε α} {f : α → Except ε β} {b : β}
    (h : x >>= f = .ok b) : ∃ a, x = .ok a ∧ f a = .ok b := by
  cases x with
  | error e => cases h
  | ok a => exact ⟨a, rfl, h⟩

namespace Build

variable {α β : Type} {q : Sql.Quoter} {d d' : Draft}

/-- A part that only returns leaves the draft alone. -/
@[simp]
theorem exec_pure_ok {a b : α} :
    (pure a : Build α).exec q d = (.ok b, d') ↔ a = b ∧ d = d' := by
  change ((Except.ok a : Except Error α), d) = _ ↔ _
  simp

/-- Two parts succeed one after the other when the second succeeds from the draft of the first. -/
@[simp]
theorem exec_bind_ok {part : Build α} {next : α → Build β} {b : β} :
    (part >>= next).exec q d = (.ok b, d') ↔
      ∃ a d₁, part.exec q d = (.ok a, d₁) ∧ (next a).exec q d₁ = (.ok b, d') := by
  change ExceptT.bindCont (fun a => next a q) (part q d).1 (part q d).2 = _ ↔ _
  simp only [exec]
  -- If the first part fails, the failure is the result, and there is no success.
  rcases part q d with ⟨_ | a, d₁⟩
  · simp only [ExceptT.bindCont, Prod.mk.injEq, reduceCtorEq, false_and, exists_false, iff_false]
    exact fun h => nomatch h
  · simp only [ExceptT.bindCont, Prod.mk.injEq, Except.ok.injEq]
    constructor
    · intro h
      exact ⟨a, d₁, ⟨rfl, rfl⟩, h⟩
    · rintro ⟨_, _, ⟨rfl, rfl⟩, h⟩
      exact h

/-- A failure is no success. -/
@[simp]
theorem exec_throw_ok {e : Error} {a : α} :
    (throw e : Build α).exec q d = (.ok a, d') ↔ False := by
  change ((Except.error e : Except Error α), d) = _ ↔ _
  simp

/-- A result that is given succeeds when it is one. -/
@[simp]
theorem exec_ofExcept_ok {r : Except Error α} {a : α} :
    (ofExcept r).exec q d = (.ok a, d') ↔ r = .ok a ∧ d = d' := by
  cases r with
  | ok b => simp [ofExcept]
  | error e => simp [ofExcept]

/-- Asking for the quoter. -/
@[simp]
theorem exec_read_ok {a : Sql.Quoter} :
    (read : Build Sql.Quoter).exec q d = (.ok a, d') ↔ q = a ∧ d = d' := by
  change ((Except.ok q : Except Error _), d) = _ ↔ _
  simp

/-- Quoting a table name. -/
@[simp]
theorem exec_table_ok {name : String} {ts : Sql.Tokens} :
    (table name).exec q d = (.ok ts, d') ↔ q.table name = .ok ts ∧ d = d' := by
  simp only [table, exec_bind_ok, exec_read_ok, exec_ofExcept_ok]
  grind

/-- Quoting a column name. -/
@[simp]
theorem exec_column_ok {name : String} {ts : Sql.Tokens} :
    (column name).exec q d = (.ok ts, d') ↔ q.column name = .ok ts ∧ d = d' := by
  simp only [column, exec_bind_ok, exec_read_ok, exec_ofExcept_ok]
  grind

/-- Quoting a column name without qualification. -/
@[simp]
theorem exec_plainColumn_ok {name : String} {ts : Sql.Tokens} :
    (plainColumn name).exec q d = (.ok ts, d') ↔ q.plainColumn name = .ok ts ∧ d = d' := by
  simp only [plainColumn, exec_bind_ok, exec_read_ok, exec_ofExcept_ok]
  grind

/-- Binding a value takes the next number and always succeeds. -/
@[simp]
theorem exec_pushValue_ok {value : Value} {t : Sql.Token} :
    (pushValue value).exec q d = (.ok t, d') ↔
      .parameter (Sql.placeholderName d.next) = t ∧
        ⟨d.binds.bind (Sql.placeholderName d.next) value, d.next + 1⟩ = d' := by
  change ((Except.ok (Sql.Token.parameter (Sql.placeholderName d.next)) : Except Error _),
    (⟨d.binds.bind (Sql.placeholderName d.next) value, d.next + 1⟩ : Draft)) = _ ↔ _
  simp

/-- Expanding a fragment binds its parameters when its names can be quoted. -/
@[simp]
theorem exec_expand_ok {fragment : Fragment} {ts : Sql.Tokens} :
    (expand fragment).exec q d = (.ok ts, d') ↔
      fragment.expand q = .ok ts ∧ ⟨d.binds.bindAll fragment.params, d.next⟩ = d' := by
  simp only [expand, exec_bind_ok, exec_read_ok, exec_ofExcept_ok, exec_pure_ok]
  constructor
  · rintro ⟨_, _, ⟨rfl, rfl⟩, _, _, ⟨h, rfl⟩, _, _, hmodify, rfl, rfl⟩
    exact ⟨h, congrArg Prod.snd hmodify⟩
  · rintro ⟨h, rfl⟩
    exact ⟨q, d, ⟨rfl, rfl⟩, ts, d, ⟨h, rfl⟩, (), _, rfl, rfl, rfl⟩

/-- A run over no parts. -/
@[simp]
theorem exec_mapM_nil_ok {f : α → Build β} {bs : List β} :
    (([] : List α).mapM f).exec q d = (.ok bs, d') ↔ [] = bs ∧ d = d' := by
  simp

/-- A run over parts: the first one, and the others from its draft. -/
@[simp]
theorem exec_mapM_cons_ok {f : α → Build β} {a : α} {as : List α} {bs : List β} :
    ((a :: as).mapM f).exec q d = (.ok bs, d') ↔
      ∃ b d₁, (f a).exec q d = (.ok b, d₁) ∧
        ∃ rest, (as.mapM f).exec q d₁ = (.ok rest, d') ∧ b :: rest = bs := by
  simp only [List.mapM_cons, exec_bind_ok, exec_pure_ok]
  constructor
  · rintro ⟨b, d₁, hb, rest, d₂, hrest, hbs, rfl⟩
    exact ⟨b, d₁, hb, rest, hrest, hbs⟩
  · rintro ⟨b, d₁, hb, rest, hrest, hbs⟩
    exact ⟨b, d₁, hb, rest, d', hrest, hbs, rfl⟩

/-- A run that gives nothing has nothing to run over. -/
theorem eq_nil_of_mapM {f : α → Build β} {as : List α}
    (h : (as.mapM f).exec q d = (.ok [], d')) : as = [] := by
  cases as with
  | nil => rfl
  | cons a as =>
    obtain ⟨b, d₁, -, rest, -, hcons⟩ := exec_mapM_cons_ok.1 h
    cases hcons

/-- What a run over parts gives comes from one of the parts. -/
theorem exists_of_mem_mapM {f : α → Build β} {as : List α} {bs : List β} {b : β}
    (h : (as.mapM f).exec q d = (.ok bs, d')) (hb : b ∈ bs) :
    ∃ a ∈ as, ∃ d₁ d₂, (f a).exec q d₁ = (.ok b, d₂) := by
  induction as generalizing d bs with
  | nil =>
    obtain ⟨rfl, rfl⟩ := exec_mapM_nil_ok.1 h
    cases hb
  | cons a as ih =>
    obtain ⟨first, d₁, hfirst, rest, hrest, rfl⟩ := exec_mapM_cons_ok.1 h
    rcases List.mem_cons.1 hb with rfl | hb
    · exact ⟨a, by simp, d, d₁, hfirst⟩
    · obtain ⟨a', ha', hfound⟩ := ih hrest hb
      exact ⟨a', List.mem_cons_of_mem a ha', hfound⟩

/-- What a run over parts gives, one by one. -/
theorem forall₂_of_exec_mapM {f : α → Build β} {P : α → β → Prop} {as : List α} {bs : List β}
    (hf : ∀ a ∈ as, ∀ {d b d'}, (f a).exec q d = (.ok b, d') → P a b)
    (h : (as.mapM f).exec q d = (.ok bs, d')) : List.Forall₂ P as bs := by
  induction as generalizing d bs with
  | nil =>
    obtain ⟨rfl, -⟩ := exec_mapM_nil_ok.1 h
    exact .nil
  | cons a as ih =>
    obtain ⟨b, d₁, hb, rest, hrest, rfl⟩ := exec_mapM_cons_ok.1 h
    exact .cons (hf a (by simp) hb) (ih (fun a ha => hf a (List.mem_cons_of_mem _ ha)) hrest)

/-! ### Whether a part succeeds -/

/-- Whether a part can be built from a draft. -/
def Succeeds (part : Build α) (q : Sql.Quoter) (d : Draft) : Prop :=
  ∃ a d', part.exec q d = (.ok a, d')

/-- A part that only returns can be built. -/
theorem succeeds_pure (a : α) (d : Draft) : (pure a : Build α).Succeeds q d :=
  ⟨a, d, exec_pure_ok.2 ⟨rfl, rfl⟩⟩

/-- Two parts can be built one after the other if the second can from the draft of the first. -/
theorem succeeds_bind {part : Build α} {next : α → Build β} :
    (part >>= next).Succeeds q d ↔
      ∃ a d₁, part.exec q d = (.ok a, d₁) ∧ (next a).Succeeds q d₁ := by
  constructor
  · rintro ⟨b, d', h⟩
    obtain ⟨a, d₁, ha, hb⟩ := exec_bind_ok.1 h
    exact ⟨a, d₁, ha, b, d', hb⟩
  · rintro ⟨a, d₁, ha, b, d', hb⟩
    exact ⟨b, d', exec_bind_ok.2 ⟨a, d₁, ha, hb⟩⟩

/-- A run over parts succeeds exactly if all of them do, when this depends on no draft. -/
theorem succeeds_mapM {f : α → Build β} {P : α → Prop} {as : List α}
    (hf : ∀ a ∈ as, ∀ d, (f a).Succeeds q d ↔ P a) (d : Draft) :
    (as.mapM f).Succeeds q d ↔ ∀ a ∈ as, P a := by
  induction as generalizing d with
  | nil => exact iff_of_true ⟨[], d, exec_mapM_nil_ok.2 ⟨rfl, rfl⟩⟩ (by simp)
  | cons a as ih =>
    have hrest := ih fun b hb => hf b (List.mem_cons_of_mem a hb)
    rw [List.forall_mem_cons, ← hf a (by simp) d]
    constructor
    · rintro ⟨bs, d', h⟩
      obtain ⟨b, d₁, hb, rest, hmapped, rfl⟩ := exec_mapM_cons_ok.1 h
      exact ⟨⟨b, d₁, hb⟩, (hrest d₁).1 ⟨rest, d', hmapped⟩⟩
    · rintro ⟨⟨b, d₁, hb⟩, hall⟩
      obtain ⟨rest, d', hmapped⟩ := (hrest d₁).2 hall
      exact ⟨b :: rest, d', exec_mapM_cons_ok.2 ⟨b, d₁, hb, rest, hmapped, rfl⟩⟩

/-- A column can be quoted exactly if its name is not rejected. -/
theorem succeeds_column (name : String) (d : Draft) :
    (column name).Succeeds q d ↔ (q.column name).isOk := by
  rw [isOk_iff_exists]
  constructor
  · rintro ⟨ts, d', h⟩
    exact ⟨ts, (exec_column_ok.1 h).1⟩
  · rintro ⟨ts, h⟩
    exact ⟨ts, d, exec_column_ok.2 ⟨h, rfl⟩⟩

end Build

end BoundSql
