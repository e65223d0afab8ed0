import BoundSql.Proofs.Statement.Isolation

/-!
# The names that a compiler makes in its lifetime

A compiler is called with one statement after the other, of any kind, and some of them may fail when
names were already made for a part of them. No name is made for two values in all this time: every
call that succeeds counts on by the names it has made, and one that fails counts nothing.

* `Compilation.counts`: what a single call makes and counts;
* `Compiler.intervals_consecutive`: the calls that succeed count on from each other without a gap;
* `Compiler.lifetime`: both, and that no two calls make the same name.
-/

namespace BoundSql

open Sql (Token)

/-- A call of a compiler. -/
structure Compilation where
  /-- The compiler before the call. -/
  compiler : Compiler
  /-- The statement to compile. -/
  statement : Statement

namespace Compilation

/-- What the call returns. -/
def result (call : Compilation) : Except Error Compiled := (call.compiler.compile call.statement).1

/-- The compiler after the call. -/
def after (call : Compilation) : Compiler := (call.compiler.compile call.statement).2

/-- The names made for the returned statement: the parameters among its tokens, fragments apart. -/
def names (call : Compilation) : List String :=
  match call.statement.compile.exec call.compiler.quoter { next := call.compiler.next } with
  | (.ok tokens, _) => tokens.filterMap Token.label?
  | (.error _, _) => []

/-- Whether the call returns a statement. -/
def succeeds (call : Compilation) : Bool := call.result.isOk

/-- The numbers that the call has used up: from the first to before the second. -/
def interval (call : Compilation) : Nat × Nat := (call.compiler.next, call.after.next)

/-- What a call makes and counts. -/
structure Counts (call : Compilation) : Prop where
  /-- A call that succeeds makes the names of the numbers that it counts, each once and in order. -/
  ok : ∀ out, call.result = .ok out →
    call.compiler.next ≤ call.after.next ∧
      call.names = (List.range' call.compiler.next (call.after.next - call.compiler.next)).map
        Sql.placeholderName ∧
      ∀ name ∈ call.names, (out.binds.get? name).isSome
  /-- A call that fails makes no name and counts nothing. -/
  error : ∀ e, call.result = .error e → call.names = [] ∧ call.after = call.compiler

end Compilation

namespace Compiler

/-- The calls of a compiler with one statement after the other. -/
def compilations (c : Compiler) : List Statement → List Compilation
  | [] => []
  | s :: rest => ⟨c, s⟩ :: compilations (Compilation.after ⟨c, s⟩) rest

/-- The compiler after it was called with one statement after the other. -/
def afterAll (c : Compiler) (statements : List Statement) : Compiler :=
  statements.foldl (fun c s => Compilation.after ⟨c, s⟩) c

/-- The numbers used up by the calls that succeed, one call after the other. -/
def intervals (c : Compiler) (statements : List Statement) : List (Nat × Nat) :=
  ((c.compilations statements).filter Compilation.succeeds).map Compilation.interval

end Compiler

/-- Whether intervals follow one another without a gap, from one number to another. -/
def Consecutive (start : Nat) : List (Nat × Nat) → Nat → Prop
  | [], stop => start = stop
  | interval :: rest, stop =>
    interval.1 = start ∧ start ≤ interval.2 ∧ Consecutive interval.2 rest stop

/-- The names made for values are put into the bind map. -/
theorem exists_mem_bindingsFrom {name : String} {n : Nat} {bs : List Bindable}
    (h : name ∈ Sql.labels n (madeFor bs).length) :
    ∃ bound, (name, bound) ∈ bindingsFrom n bs := by
  induction bs generalizing n with
  | nil => cases h
  | cons b bs ih =>
    rw [bindingsFrom]
    cases b with
    | value v =>
      -- The first name is the one of this value, and the others are made behind it.
      rcases List.mem_cons.1 h with rfl | h
      · exact ⟨v.bind, by simp [Bindable.bindings]⟩
      · obtain ⟨bound, hmem⟩ := ih h
        exact ⟨bound, List.mem_append_right _ hmem⟩
    | fragment f =>
      obtain ⟨bound, hmem⟩ := ih h
      exact ⟨bound, List.mem_append_right _ hmem⟩

namespace Compilation

variable {call : Compilation} {out : Compiled}

theorem compile_of_ok (h : call.result = .ok out) :
    call.compiler.compile call.statement = (.ok out, call.after) := Prod.ext h rfl

/-- The names of a call that succeeds are those of the numbers that it counts. -/
theorem names_of_ok (h : call.result = .ok out) :
    call.after.next = call.compiler.next + call.statement.values.length ∧
      call.names = Sql.labels call.compiler.next call.statement.values.length := by
  obtain ⟨ts, hexec, -, -⟩ := Compiler.exec_of_compile (compile_of_ok h)
  have hemits := Statement.emits hexec
  constructor
  · rw [Statement.values, ← Draft.takeAll_next { next := call.compiler.next }, ← hemits.draft]
  · rw [names, hexec]
    exact hemits.labels

/-- The names of a call that succeeds are bound in what it returns. -/
theorem isSome_get?_of_mem_names (h : call.result = .ok out) {name : String}
    (hname : name ∈ call.names) : (out.binds.get? name).isSome := by
  rw [(names_of_ok h).2] at hname
  obtain ⟨bound, hmem⟩ := exists_mem_bindingsFrom hname
  -- A fragment may have displaced the value, but not the name.
  obtain ⟨value, hget, -⟩ := Keyed.exists_get?_of_mem (List.mem_reverse.2 hmem)
  rw [Compiler.get?_binds (compile_of_ok h)]
  exact Option.isSome_of_mem hget

/-- A call that fails makes no name and leaves the compiler as it was. -/
theorem of_error {e : Error} (h : call.result = .error e) :
    call.names = [] ∧ call.after = call.compiler := by
  rw [result, Compiler.compile] at h
  rw [names, after, Compiler.compile]
  rcases hrun : call.statement.compile.exec call.compiler.quoter { next := call.compiler.next }
    with ⟨built, draft⟩
  simp only [hrun] at h ⊢
  cases built with
  | ok tokens => cases h
  -- The draft of what was built before the failure is dropped with the names in it.
  | error e => exact ⟨rfl, rfl⟩

theorem counts (call : Compilation) : call.Counts := by
  constructor
  · intro out h
    obtain ⟨hnext, hnames⟩ := names_of_ok h
    refine ⟨by omega, ?_, fun name => isSome_get?_of_mem_names h⟩
    rw [hnames, hnext, Nat.add_sub_cancel_left]
    rfl
  · exact fun e => of_error

/-- The numbers of the names of a call lie in its interval. -/
theorem exists_of_mem_names {name : String} (h : name ∈ call.names) :
    ∃ k, call.compiler.next ≤ k ∧ k < call.after.next ∧ name = Sql.placeholderName k := by
  cases hresult : call.result with
  | ok out =>
    obtain ⟨hnext, hnames⟩ := names_of_ok hresult
    rw [hnames] at h
    obtain ⟨k, hk, rfl⟩ := List.mem_map.1 h
    obtain ⟨hle, hlt⟩ := List.mem_range'_1.1 hk
    exact ⟨k, hle, by omega, rfl⟩
  | error e =>
    rw [(of_error hresult).1] at h
    cases h

theorem next_le (call : Compilation) : call.compiler.next ≤ call.after.next := by
  cases hresult : call.result with
  | ok out => exact (names_of_ok hresult).1 ▸ Nat.le_add_right _ _
  | error e => exact (of_error hresult).2 ▸ Nat.le_refl _

end Compilation

namespace Compiler

variable {c : Compiler} {statements : List Statement}

/-- Later calls begin where the compiler has got to, or behind it. -/
theorem next_le_of_mem_compilations {call : Compilation} (h : call ∈ c.compilations statements) :
    c.next ≤ call.compiler.next := by
  induction statements generalizing c with
  | nil => cases h
  | cons s statements ih =>
    rcases List.mem_cons.1 h with rfl | h
    · exact Nat.le_refl _
    · exact (Compilation.next_le ⟨c, s⟩).trans (ih h)

/-- The calls that succeed count on from each other, from the first number of the compiler to the
one that it has come to. -/
theorem intervals_consecutive (c : Compiler) (statements : List Statement) :
    Consecutive c.next (c.intervals statements) (c.afterAll statements).next := by
  induction statements generalizing c with
  | nil => rfl
  | cons s statements ih =>
    have hrest := ih (Compilation.after ⟨c, s⟩)
    rw [intervals, compilations]
    -- A call that fails leaves no gap, since the next one begins where it began.
    cases hresult : Compilation.result ⟨c, s⟩ with
    | ok out =>
      have hsucceeds : Compilation.succeeds ⟨c, s⟩ := by
        rw [Compilation.succeeds, hresult]
        rfl
      rw [List.filter_cons_of_pos hsucceeds]
      exact ⟨rfl, Compilation.next_le ⟨c, s⟩, hrest⟩
    | error e =>
      have hfails : ¬Compilation.succeeds ⟨c, s⟩ := by
        rw [Compilation.succeeds, hresult]
        exact Bool.false_ne_true
      have hnext := congrArg Compiler.next (Compilation.of_error hresult).2
      rw [List.filter_cons_of_neg hfails]
      rw [hnext] at hrest
      exact hrest

/-- No name is made by two calls. -/
theorem compilations_disjoint (c : Compiler) (statements : List Statement) :
    (c.compilations statements).Pairwise fun a b => a.names.Disjoint b.names := by
  induction statements generalizing c with
  | nil => exact .nil
  | cons s statements ih =>
    refine .cons (fun call hcall name hfirst hlater => ?_) (ih _)
    -- The numbers of the first call are used up when the later one begins.
    obtain ⟨k, -, hk, rfl⟩ := Compilation.exists_of_mem_names hfirst
    obtain ⟨l, hl, -, hname⟩ := Compilation.exists_of_mem_names hlater
    have hbegin := next_le_of_mem_compilations hcall
    have hnumber := Sql.placeholderName_injective hname
    omega

/-- Whatever statements a compiler is called with, in whatever order and whichever of them fail: a
call that succeeds makes the names of the numbers from its first to before the next one, each once,
and binds them all; a call that fails leaves the compiler as it was; the calls that succeed count on
from each other without a gap; and no two calls make the same name. -/
theorem lifetime (c : Compiler) (statements : List Statement) :
    (∀ call ∈ c.compilations statements, call.Counts) ∧
      Consecutive c.next (c.intervals statements) (c.afterAll statements).next ∧
      (c.compilations statements).Pairwise fun a b => a.names.Disjoint b.names :=
  ⟨fun call _ => call.counts, intervals_consecutive c statements,
    compilations_disjoint c statements⟩

/-- The second call has made a name for its first value when it fails at its second column, and the
third call makes the same name. -/
example :
    let statements : List Statement :=
      [.insert "t" [[("a", .value (.int 1)), ("b", .value (.int 2))]],
       .update "t" [("a", .value (.int 3)), ("", .value (.int 4))] none,
       .delete "t" (some { conditions := [.equals "a" (.int 5)] })]
    ((({} : Compiler).compilations statements).map Compilation.names) =
      [[":ph0_b", ":ph1_b"], [], [":ph2_b"]] := by
  decide +kernel

end Compiler

end BoundSql
