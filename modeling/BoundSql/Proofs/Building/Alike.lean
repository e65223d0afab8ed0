import BoundSql.Proofs.Building.Success

/-!
# Parts that are built alike

Two ways of building a part are alike if they come to the same end from any two drafts: both succeed
with results that are related, or both fail with the same failure, which is one of compiling. So the
names that are made for values, which depend on the draft, decide nothing about what else is built.

The relation is kept when parts are built one after the other (`Alike.bind`), so that two builders
of the same shape are alike as soon as what they are made of is. A part that is alike to itself with
the same result is steady: its result does not depend on the draft at all.

* `Build.steady_table`, `Build.steady_column` and `Build.steady_expand`: names and fragments are
  steady, and what they fail with is a failure of compiling.
-/

namespace BoundSql

/-- Two results of which both are given and related, or both are the same failure of compiling. -/
inductive Agree {α β : Type} (R : α → β → Prop) : Except Error α → Except Error β → Prop where
  /-- Both are given. -/
  | ok {a : α} {b : β} (related : R a b) : Agree R (.ok a) (.ok b)
  /-- Both are the same failure. -/
  | error {e : Error} (compiling : e.isCompileError) : Agree R (.error e) (.error e)

section Refusals

/-- Whether a failure is that of a malformed name. -/
def Error.RejectsName (e : Error) : Prop := ∃ message, e = .invalidIdentifier message

/-- Names are rejected in compiling. -/
theorem Error.RejectsName.isCompileError {e : Error} (h : e.RejectsName) : e.isCompileError := by
  obtain ⟨message, rfl⟩ := h
  rfl

variable {q : Sql.Quoter} {name : String} {e : Error}

/-- A table name is rejected as a name. -/
theorem Sql.Quoter.rejectsName_of_table (h : q.table name = .error e) : e.RejectsName := by
  rw [table] at h
  split at h
  · cases h
  · exact ⟨_, (Except.error.inj h).symm⟩

/-- A column name without qualification is rejected as a name. -/
theorem Sql.Quoter.rejectsName_of_plainColumn (h : q.plainColumn name = .error e) :
    e.RejectsName := by
  rw [plainColumn] at h
  split at h
  · cases h
  · exact ⟨_, (Except.error.inj h).symm⟩

/-- A column name is rejected as a name. -/
theorem Sql.Quoter.rejectsName_of_column (h : q.column name = .error e) : e.RejectsName := by
  rw [column] at h
  split at h
  · exact rejectsName_of_plainColumn h
  · split at h
    · cases h
    · exact ⟨_, (Except.error.inj h).symm⟩

/-- A piece of a template is rejected for a name. -/
theorem Fragment.rejectsName_of_expand {piece : Piece} (h : piece.expand q = .error e) :
    e.RejectsName := by
  cases piece with
  | text chars => cases h
  | quoted chars => cases h
  | marker lead keyword name =>
    -- Behind the keyword of a table stands a table, and else a column.
    cases keyword with
    | some keyword =>
      rw [Piece.expand] at h
      cases hname : q.table (String.ofList name) with
      | ok tokens => simp [hname, Except.map] at h
      | error refusal =>
        rw [hname] at h
        obtain rfl := Except.error.inj h
        exact Sql.Quoter.rejectsName_of_table hname
    | none =>
      rw [Piece.expand] at h
      cases hname : q.column (String.ofList name) with
      | ok tokens => simp [hname, Except.map] at h
      | error refusal =>
        rw [hname] at h
        obtain rfl := Except.error.inj h
        exact Sql.Quoter.rejectsName_of_column hname

/-- The pieces of a template are rejected for a name. -/
theorem Fragment.rejectsName_of_expandPieces {pieces : List Piece}
    (h : expandPieces q pieces = .error e) : e.RejectsName := by
  induction pieces with
  | nil => cases h
  | cons piece pieces ih =>
    rw [expandPieces] at h
    split at h
    · next refusal hpiece =>
      obtain rfl := Except.error.inj h
      exact Fragment.rejectsName_of_expand hpiece
    · cases hrest : expandPieces q pieces with
      | ok others => simp [hrest, Except.map] at h
      | error refusal =>
        rw [hrest] at h
        obtain rfl := Except.error.inj h
        exact ih hrest

end Refusals

namespace Build

variable {α β γ δ : Type} {R : α → β → Prop} {S : γ → δ → Prop}

/-- A part is built, and then what follows it unless it fails. -/
theorem exec_bind (part : Build α) (next : α → Build γ) (q : Sql.Quoter) (d : Draft) :
    (part >>= next).exec q d =
      match part.exec q d with
      | (.ok a, d₁) => (next a).exec q d₁
      | (.error e, d₁) => (.error e, d₁) := by
  change ExceptT.bindCont (fun a => next a q) (part q d).1 (part q d).2 = _
  rw [exec]
  rcases part q d with ⟨_ | _, _⟩ <;> rfl

/-- Two parts whose results agree from all drafts. -/
def Alike (R : α → β → Prop) (part : Build α) (other : Build β) : Prop :=
  ∀ q d d', Agree R (part.exec q d).1 (other.exec q d').1

/-- A part whose result does not depend on the draft, and which fails only in compiling. -/
abbrev Steady (part : Build α) : Prop := Alike Eq part part

namespace Alike

/-- Results that are related are returned alike. -/
theorem pure {a : α} {b : β} (h : R a b) : Alike R (pure a) (pure b) := fun _ _ _ => .ok h

/-- A failure of compiling is the same on both sides. -/
theorem throw {e : Error} (h : e.isCompileError) :
    Alike R (throw e : Build α) (throw e : Build β) := fun _ _ _ => .error h

/-- Parts are alike if their first parts are, and what follows these for related results. -/
theorem bind {part : Build α} {other : Build β} {next : α → Build γ} {next' : β → Build δ}
    (h : Alike R part other) (hnext : ∀ a b, R a b → Alike S (next a) (next' b)) :
    Alike S (part >>= next) (other >>= next') := by
  intro q d d'
  rw [exec_bind, exec_bind]
  have hfirst := h q d d'
  rcases hpart : part.exec q d with ⟨r, d₁⟩
  rcases hother : other.exec q d' with ⟨r', d₁'⟩
  rw [hpart, hother] at hfirst
  -- Either the two go on with related results, or both end here.
  cases hfirst with
  | ok hab => exact hnext _ _ hab q d₁ d₁'
  | error he => exact .error he

/-- Parts are alike if they begin with the same steady part and go on alike. -/
theorem bind_steady {part : Build α} {next : α → Build γ} {next' : α → Build δ}
    (h : Steady part) (hnext : ∀ a, Alike S (next a) (next' a)) :
    Alike S (part >>= next) (part >>= next') :=
  h.bind fun a _ hab => hab ▸ hnext a

/-- A relation that follows from another one for the results of the first part. -/
theorem mono {R' : α → β → Prop} {part : Build α} {other : Build β} (h : Alike R part other)
    (hR : ∀ {q d a d' b}, part.exec q d = (.ok a, d') → R a b → R' a b) : Alike R' part other := by
  intro q d d'
  have hall := h q d d'
  rcases hpart : part.exec q d with ⟨r, d₁⟩
  rw [hpart] at hall
  generalize (other.exec q d').1 = r' at hall ⊢
  cases hall with
  | ok hab => exact .ok (hR hpart hab)
  | error he => exact .error he

/-- Whether a steady part succeeds does not depend on the draft. -/
theorem succeeds_iff {part : Build α} (h : Steady part) (q : Sql.Quoter) (d d' : Draft) :
    part.Succeeds q d ↔ part.Succeeds q d' := by
  have hresult := h q d d'
  rcases hd : part.exec q d with ⟨e | a, d₁⟩ <;>
    rcases hd' : part.exec q d' with ⟨e' | a', d₁'⟩ <;>
    rw [hd, hd'] at hresult
  · simp [Succeeds, hd, hd']
  · cases hresult
  · cases hresult
  · exact iff_of_true ⟨a, d₁, hd⟩ ⟨a', d₁', hd'⟩

end Alike

/-- A part that returns is steady. -/
theorem steady_pure (a : α) : Steady (pure a) := .pure rfl

/-- The quoter is the same for all drafts. -/
theorem steady_read : Steady (read : Build Sql.Quoter) := fun _ _ _ => .ok rfl

/-- A given result is steady if it fails only in compiling. -/
theorem steady_ofExcept {r : Except Error α} (h : ∀ e, r = .error e → e.isCompileError) :
    Steady (ofExcept r) := by
  cases r with
  | ok a => exact .pure rfl
  | error e => exact .throw (h e rfl)

/-- A run over steady parts is steady. -/
theorem steady_mapM {f : α → Build γ} {as : List α} (h : ∀ a ∈ as, Steady (f a)) :
    Steady (as.mapM f) := by
  induction as with
  | nil => exact steady_pure []
  | cons a as ih =>
    rw [List.mapM_cons]
    refine .bind_steady (h a (by simp)) fun b => ?_
    exact .bind_steady (ih fun x hx => h x (by simp [hx])) fun bs => steady_pure (b :: bs)

/-- A name that is quoted, or refused with a failure of compiling, is steady. -/
theorem steady_quote {quote : Sql.Quoter → Except Error α}
    (h : ∀ q e, quote q = .error e → e.isCompileError) :
    Steady (do ofExcept (quote (← read))) :=
  .bind_steady steady_read fun q => steady_ofExcept (h q)

/-- Quoting a table name is steady. -/
theorem steady_table (name : String) : Steady (table name) :=
  steady_quote fun _ _ h => (Sql.Quoter.rejectsName_of_table h).isCompileError

/-- Quoting a column name without qualification is steady. -/
theorem steady_plainColumn (name : String) : Steady (plainColumn name) :=
  steady_quote fun _ _ h => (Sql.Quoter.rejectsName_of_plainColumn h).isCompileError

/-- Quoting a column name is steady. -/
theorem steady_column (name : String) : Steady (column name) :=
  steady_quote fun _ _ h => (Sql.Quoter.rejectsName_of_column h).isCompileError

/-- Expanding a fragment is steady, although it binds the parameters of the fragment. -/
theorem steady_expand (f : Fragment) : Steady (expand f) := by
  refine .bind_steady steady_read fun q => ?_
  refine .bind_steady (steady_ofExcept fun _ h =>
    (Fragment.rejectsName_of_expandPieces h).isCompileError) ?_
  exact fun tokens => .bind_steady (fun _ _ _ => .ok rfl) fun _ => steady_pure tokens

end Build

end BoundSql
