import BoundSql.Proofs.Building.Alike
import BoundSql.Proofs.Projection.Emission

/-!
# Parts that are built blindly

Two ways of building a part are blind to what they differ in if nobody sees it: they fail with the
same failure, or they succeed with the same result and bind the same names. Of a draft only its
outline counts here, that is, the names that are bound, in order, and the number of the next one;
the values under the names are out of sight.

* `Build.Blind`: the relation, which is kept when parts are built one after the other;
* `Build.blind_pushValue`: making a name for a value is blind to the value, be it null or not;
* `Build.blind_expand`: expanding a fragment is blind to the values of its parameters.
-/

namespace BoundSql

/-- The names that are bound in a draft, in order, and the number of the next one. -/
def Draft.outline (d : Draft) : List String × Nat := (d.binds.keys, d.next)

namespace Draft

variable {d d' : Draft}

/-- Which names are bound after one more is decided by which were bound before. -/
theorem keys_bind {binds binds' : BindMap} (h : binds.keys = binds'.keys) (name : String)
    (v v' : Value) : (binds.bind name v).keys = (binds'.bind name v').keys := by
  rw [BindMap.bind, BindMap.bind, Keyed.keys_put, Keyed.keys_put, h]

/-- Names that are bound one after the other come out alike whatever is bound to them. -/
theorem keys_bindAll {binds binds' : BindMap} (h : binds.keys = binds'.keys)
    {pairs pairs' : List (String × Value)} (hpairs : pairs.map Prod.fst = pairs'.map Prod.fst) :
    (binds.bindAll pairs).keys = (binds'.bindAll pairs').keys := by
  induction pairs generalizing binds binds' pairs' with
  | nil =>
    obtain rfl := List.map_eq_nil_iff.1 hpairs.symm
    exact h
  | cons pair pairs ih =>
    obtain ⟨pair', rest', rfl, hname, hrest⟩ := List.map_eq_cons_iff.1 hpairs.symm
    obtain ⟨name', value'⟩ := pair'
    obtain rfl : name' = pair.1 := hname
    exact ih (keys_bind h pair.1 pair.2 value') hrest.symm

/-- Binding a value under the next name changes the outline in one way, whatever the value is. -/
theorem outline_push (h : d.outline = d'.outline) (v v' : Value) :
    Draft.outline ⟨d.binds.bind (Sql.placeholderName d.next) v, d.next + 1⟩ =
      Draft.outline ⟨d'.binds.bind (Sql.placeholderName d'.next) v', d'.next + 1⟩ := by
  obtain ⟨hkeys, hnext⟩ := Prod.mk.inj h
  rw [outline, outline, hnext, keys_bind hkeys _ v v']

/-- Binding the parameters of a fragment changes the outline in one way, whatever their values
are. -/
theorem outline_bindAll (h : d.outline = d'.outline) {pairs pairs' : List (String × Value)}
    (hpairs : pairs.map Prod.fst = pairs'.map Prod.fst) :
    Draft.outline ⟨d.binds.bindAll pairs, d.next⟩ =
      Draft.outline ⟨d'.binds.bindAll pairs', d'.next⟩ := by
  obtain ⟨hkeys, hnext⟩ := Prod.mk.inj h
  rw [outline, outline, hnext, keys_bindAll hkeys hpairs]

/-- Drafts of one outline that take the same things have one outline afterwards. -/
theorem outline_takeAll (h : d.outline = d'.outline) (bs : List Bindable) :
    (d.takeAll bs).outline = (d'.takeAll bs).outline := by
  induction bs generalizing d d' with
  | nil => exact h
  | cons b bs ih =>
    apply ih
    cases b with
    | value v => exact outline_push h v v
    | fragment f => exact outline_bindAll h rfl

end Draft

namespace Build

variable {α β : Type} {q : Sql.Quoter}

/-- What can be seen of the building of a part: its failure, or its result and the outline of the
draft behind it. -/
def seen (part : Build α) (q : Sql.Quoter) (d : Draft) :
    Except Error (α × List String × Nat) :=
  match part.exec q d with
  | (.ok a, d') => .ok (a, d'.outline)
  | (.error e, _) => .error e

/-- A part is seen to be built, and then what follows it unless it fails. -/
theorem seen_bind (part : Build α) (next : α → Build β) (q : Sql.Quoter) (d : Draft) :
    (part >>= next).seen q d =
      match part.exec q d with
      | (.ok a, d') => (next a).seen q d'
      | (.error e, _) => .error e := by
  rw [seen, exec_bind]
  rcases part.exec q d with ⟨_ | a, d'⟩ <;> rfl

/-- Two parts of which the same is seen from all drafts of one outline. -/
def Blind (q : Sql.Quoter) (part other : Build α) : Prop :=
  ∀ d d', d.outline = d'.outline → part.seen q d = other.seen q d'

namespace Blind

/-- What is returned is seen. -/
theorem pure (a : α) : Blind q (pure a) (pure a) := by
  intro d d' h
  show Except.ok (a, d.outline) = .ok (a, d'.outline)
  rw [h]

/-- A failure is seen. -/
theorem throw (e : Error) : Blind q (throw e : Build α) (throw e) := fun _ _ _ => rfl

/-- Parts that are blind stay so with blind parts behind them. These may rely on what comes before
them having been built. -/
theorem bind {part other : Build α} {next next' : α → Build β} (h : Blind q part other)
    (hnext : ∀ a d d', part.exec q d = (.ok a, d') → Blind q (next a) (next' a)) :
    Blind q (part >>= next) (other >>= next') := by
  intro d d' hd
  have hfirst := h d d' hd
  rw [seen, seen] at hfirst
  rw [seen_bind, seen_bind]
  -- Both first parts have failed alike, or both have come to the same result and outline.
  rcases hpart : part.exec q d with ⟨e | a, d₁⟩ <;>
    rcases hother : other.exec q d' with ⟨e' | a', d₁'⟩ <;>
    rw [hpart, hother] at hfirst
  · cases hfirst
    rfl
  · cases hfirst
  · cases hfirst
  · obtain ⟨rfl, houtline⟩ := Prod.mk.inj (Except.ok.inj hfirst)
    exact hnext a d d₁ hpart d₁ d₁' houtline

/-- A part with a result that does not depend on the draft is blind if it binds certain things and
nothing else. -/
theorem of_steady {part : Build Sql.Tokens} (h : Steady part) (bs : List Bindable)
    (hemits : ∀ {d ts d'}, part.exec q d = (.ok ts, d') → Emits q d bs ts d') :
    Blind q part part := by
  intro d d' hd
  have hresult := h q d d'
  rw [seen, seen]
  rcases hpart : part.exec q d with ⟨r, d₁⟩
  rcases hother : part.exec q d' with ⟨r', d₁'⟩
  rw [hpart, hother] at hresult
  cases hresult with
  | error _ => rfl
  | ok heq =>
    subst heq
    show Except.ok (_, d₁.outline) = .ok (_, d₁'.outline)
    rw [(hemits hpart).draft, (hemits hother).draft, Draft.outline_takeAll hd bs]

/-- Runs over two lists are blind if they are at each place. -/
theorem mapM {γ : Type} {f : α → Build β} {f' : γ → Build β} {g : α → γ} {as : List α}
    (h : ∀ a ∈ as, Blind q (f a) (f' (g a))) : Blind q (as.mapM f) ((as.map g).mapM f') := by
  induction as with
  | nil => exact .pure []
  | cons a as ih =>
    rw [List.map_cons, List.mapM_cons, List.mapM_cons]
    refine .bind (h a (by simp)) fun b _ _ _ => ?_
    refine .bind (ih fun x hx => h x (by simp [hx])) fun bs _ _ _ => ?_
    exact .pure (b :: bs)

end Blind

/-- Quoting a table name is seen. -/
theorem blind_table (name : String) : Blind q (table name) (table name) :=
  .of_steady (steady_table name) [] Emits.table

/-- Quoting a column name is seen. -/
theorem blind_column (name : String) : Blind q (column name) (column name) :=
  .of_steady (steady_column name) [] Emits.column

/-- Making a name for a value is blind to the value. -/
theorem blind_pushValue (v v' : Value) : Blind q (pushValue v) (pushValue v') := by
  intro d d' h
  have hpush : ∀ (v : Value) (d : Draft), (pushValue v).exec q d = _ := fun v d =>
    exec_pushValue_ok.2 ⟨rfl, rfl⟩
  have hnext : d.next = d'.next := congrArg Prod.snd h
  rw [seen, seen, hpush, hpush]
  dsimp only
  rw [Draft.outline_push h v v', hnext]

/-- A result that is given is seen. -/
theorem blind_ofExcept (r : Except Error α) : Blind q (ofExcept r) (ofExcept r) := by
  cases r with
  | ok a => exact .pure a
  | error e => exact .throw e

/-- Expanding a fragment is blind to the values of its parameters. -/
theorem blind_expand {f f' : Fragment} (htemplate : f.template = f'.template)
    (hparams : f.params.keys = f'.params.keys) : Blind q (expand f) (expand f') := by
  have hread : Blind q (read : Build Sql.Quoter) read := by
    intro d d' h
    show Except.ok (q, d.outline) = .ok (q, d'.outline)
    rw [h]
  have hmodify : Blind q
      (modify fun draft => { draft with binds := draft.binds.bindAll f.params } : Build Unit)
      (modify fun draft => { draft with binds := draft.binds.bindAll f'.params }) := by
    intro d d' h
    exact congrArg (fun outline => Except.ok ((), outline)) (Draft.outline_bindAll h hparams)
  refine .bind hread fun q' _ _ _ => ?_
  -- The names of the template are quoted before a parameter is bound.
  rw [Fragment.expand, Fragment.expand, htemplate]
  refine .bind (blind_ofExcept _) fun tokens _ _ _ => ?_
  exact .bind hmodify fun _ _ _ _ => .pure tokens

end Build

end BoundSql
