import BoundSql.Proofs.Statement.Emission

/-!
# Values that lose their names

The bind map of a statement has one value under each name, and a fragment chooses the names of its
parameters freely. So a value is found under its name only as long as nothing that comes later in
the statement brings another value under the same name, be it a second fragment or the compiler,
whose names a fragment can guess.

* `Compiler.get?_binds`: under each name the last value that the statement brings is bound;
* `Compiler.isolated_iff`: when every value is found under its own name.
-/

namespace BoundSql

/-- What a statement brings into the bind map, in reading order: the values under the names made for
them, counted from `n` on, and the parameters of fragments under their own. -/
def Statement.bindings (n : Nat) (s : Statement) : List (String × Bound) :=
  bindingsFrom n s.bindables

/-- Whether each of the pairs is found in the bind map, so that no other one has displaced it. -/
def BindMap.Isolates (binds : BindMap) (pairs : List (String × Bound)) : Prop :=
  ∀ pair ∈ pairs, binds.get? pair.1 = some pair.2

namespace Compiler

variable {c c' : Compiler} {s : Statement} {out : Compiled}

/-- A compiled statement has put into its bind map what it brings, one after the other. -/
theorem binds_compile (h : c.compile s = (.ok out, c')) :
    out.binds = Keyed.putAll (s.bindings c.next) [] := by
  obtain ⟨ts, hemits, -, -⟩ := Compiler.compile_ok h
  have hdraft := congrArg Draft.binds hemits.draft
  rwa [Draft.takeAll_binds] at hdraft

/-- Under each name of a compiled statement the last value is bound that the statement brings. -/
theorem get?_binds (h : c.compile s = (.ok out, c')) (name : String) :
    out.binds.get? name = Keyed.get? name (s.bindings c.next).reverse := by
  rw [binds_compile h, Keyed.get?_putAll, Keyed.get?, Option.or_none]

/-- In a compiled statement every value is found under its own name, whether it was made for it or
chosen by a fragment, exactly if the statement brings no two different values under one name. -/
theorem isolated_iff (h : c.compile s = (.ok out, c')) :
    out.binds.Isolates (s.bindings c.next) ↔
      ∀ a ∈ s.bindings c.next, ∀ b ∈ s.bindings c.next, a.1 = b.1 → a.2 = b.2 := by
  rw [BindMap.Isolates, binds_compile h]
  exact Keyed.get?_putAll_iff _

/-- The name of a fragment's parameter differs from the one made for the value of the filter, so
that both values keep their names. -/
theorem isolated_update :
    let c : Compiler := {}
    let s : Statement := .update "t" [("n", .fragment ⟨"<n> + :x", [(":x", .int 7)]⟩)] <|
      some { conditions := [.equals "id" (.int 5)] }
    let binds : BindMap := [(":x", ⟨.int, .int 7⟩), (":ph0_b", ⟨.int, .int 5⟩)]
    c.compile s = (.ok ⟨"UPDATE \"t\" SET \"n\" = \"n\" + :x WHERE \"id\" = :ph0_b", binds⟩,
        { c with next := 1 }) ∧
      binds.Isolates (s.bindings c.next) := by
  intro c s binds
  have h : c.compile s = (.ok ⟨"UPDATE \"t\" SET \"n\" = \"n\" + :x WHERE \"id\" = :ph0_b", binds⟩,
      { c with next := 1 }) := by decide +kernel
  exact ⟨h, (isolated_iff h).2 (by decide +kernel)⟩

/-- A fragment whose parameter has the name that is then made for the value of the filter: the
statement compares the column with the value of the filter in both places, and the value of the
parameter is bound nowhere. -/
theorem not_isolated_update :
    let c : Compiler := {}
    let s : Statement := .update "t" [("n", .fragment ⟨":ph0_b + 1", [(":ph0_b", .int 7)]⟩)] <|
      some { conditions := [.equals "id" (.int 5)] }
    let binds : BindMap := [(":ph0_b", ⟨.int, .int 5⟩)]
    c.compile s = (.ok ⟨"UPDATE \"t\" SET \"n\" = :ph0_b + 1 WHERE \"id\" = :ph0_b", binds⟩,
        { c with next := 1 }) ∧
      ¬binds.Isolates (s.bindings c.next) := by
  intro c s binds
  refine ⟨by decide +kernel, fun h => ?_⟩
  have hparam := h (":ph0_b", ⟨.int, .int 7⟩) (by decide +kernel)
  exact absurd hparam (by decide +kernel)

end Compiler

end BoundSql
