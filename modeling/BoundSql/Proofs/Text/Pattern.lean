import BoundSql.Keyed
import BoundSql.Text.Scan

/-!
# Patterns

Patterns for texts as they are commonly written down: characters of a class, fixed words, one
pattern behind another, alternatives, runs that are as long or as short as they can be, parts that
are remembered, and the text of such a part once more. A text can begin with a pattern in several
ways, and these are tried one after the other: `readings` lists them in this order, so that the
first one of the list is what the pattern matches.

`cut` takes a text apart into the leftmost matches of a pattern and the characters between them.

* `mem_readings_seq` and the like: what the readings of a pattern are, without their order;
* `cut_append`: the characters before the first place where the pattern matches.
-/

namespace BoundSql.Text

/-- A pattern for the beginning of a text. Some of what it matches is remembered under names. -/
inductive Pattern (ι : Type) where
  /-- The empty text. -/
  | empty
  /-- A character of a class. -/
  | char (p : Char → Bool)
  /-- One of some words; earlier ones are tried first. -/
  | oneOf (words : List String)
  /-- One pattern, and another one behind it. -/
  | seq (first second : Pattern ι)
  /-- One pattern, or else another one. -/
  | either (first second : Pattern ι)
  /-- As many characters of a class as possible. -/
  | most (p : Char → Bool)
  /-- As few characters of a class as possible. -/
  | least (p : Char → Bool)
  /-- A pattern whose text is remembered. -/
  | part (name : ι) (inner : Pattern ι)
  /-- The text that was remembered, once more. -/
  | again (name : ι)

/-- A way in which a text begins with a pattern. -/
structure Match (ι : Type) where
  /-- The beginning of the text. -/
  chars : List Char
  /-- What was remembered. -/
  parts : Keyed ι (List Char)
  /-- What follows in the text. -/
  rest : List Char
  deriving DecidableEq

/-- The ways to split a text behind characters of a class, those with fewer characters first. -/
def runs (p : Char → Bool) : List Char → List (List Char × List Char)
  | [] => [([], [])]
  | c :: rest =>
    ([], c :: rest) :: if p c then (runs p rest).map fun run => (c :: run.1, run.2) else []

namespace Pattern

variable {ι : Type}

/-- A pattern that is passed over where it does not match. -/
def optional (inner : Pattern ι) : Pattern ι := either inner empty

variable [DecidableEq ι]

/-- The ways in which a text begins with a pattern when some parts are remembered already, in the
order in which they are tried. -/
def readings : Pattern ι → Keyed ι (List Char) → List Char → List (Match ι)
  | empty, parts, s => [⟨[], parts, s⟩]
  | char _, _, [] => []
  | char p, parts, c :: rest => if p c then [⟨[c], parts, rest⟩] else []
  | oneOf words, parts, s => words.filterMap fun word =>
      (dropPrefix? word.toList s).map fun rest => ⟨word.toList, parts, rest⟩
  | seq first second, parts, s => (first.readings parts s).flatMap fun m =>
      (second.readings m.parts m.rest).map fun m' => ⟨m.chars ++ m'.chars, m'.parts, m'.rest⟩
  | either first second, parts, s => first.readings parts s ++ second.readings parts s
  | most p, parts, s => (runs p s).reverse.map fun run => ⟨run.1, parts, run.2⟩
  | least p, parts, s => (runs p s).map fun run => ⟨run.1, parts, run.2⟩
  | part name inner, parts, s =>
      (inner.readings parts s).map fun m => { m with parts := m.parts.put name m.chars }
  | again name, parts, s =>
    match parts.get? name with
    | none => []
    | some chars => ((dropPrefix? chars s).map fun rest => ⟨chars, parts, rest⟩).toList

/-- What a pattern matches at the beginning of a text. -/
def match? (p : Pattern ι) (s : List Char) : Option (Match ι) := (p.readings [] s).head?

/-- A text in leftmost matches of a pattern and the characters between them. A match of no
characters is passed over. -/
def cut (p : Pattern ι) : List Char → List (Char ⊕ Match ι)
  | [] => []
  | c :: rest =>
    match p.match? (c :: rest) with
    | some m => if m.rest.length ≤ rest.length then .inr m :: p.cut m.rest else .inl c :: p.cut rest
    | none => .inl c :: p.cut rest
  termination_by s => s.length

/-! ### What readings there are -/

variable {p : Char → Bool} {parts : Keyed ι (List Char)} {s : List Char} {m : Match ι}
  {first second : Pattern ι}

omit [DecidableEq ι] in
/-- A text is split behind characters of the class. -/
theorem mem_runs {run rest : List Char} :
    (run, rest) ∈ runs p s ↔ s = run ++ rest ∧ ∀ c ∈ run, p c := by
  induction s generalizing run with
  | nil =>
    rw [runs, List.mem_singleton, Prod.mk.injEq, List.nil_eq_append_iff]
    constructor
    · rintro ⟨rfl, rfl⟩
      simp
    · exact fun h => h.1
  | cons c s ih =>
    cases run with
    | nil =>
      -- A split behind more characters begins with one.
      have hlonger : ([], rest) ∉
          (if p c then (runs p s).map fun run => (c :: run.1, run.2) else []) := by
        split <;> simp
      rw [runs, List.mem_cons, or_iff_left hlonger]
      constructor
      · intro h
        simp [(Prod.mk.inj h).2]
      · rintro ⟨heq, -⟩
        rw [heq]
        rfl
    | cons x run =>
      simp only [runs, List.mem_cons, Prod.mk.injEq, reduceCtorEq, false_and, false_or]
      split
      · next hc =>
        simp only [List.mem_map, Prod.exists, Prod.mk.injEq, List.cons.injEq]
        constructor
        · rintro ⟨a, b, hab, ⟨rfl, rfl⟩, rfl⟩
          obtain ⟨rfl, hall⟩ := ih.1 hab
          exact ⟨by simp, by simpa [hc] using hall⟩
        · rintro ⟨heq, hall⟩
          obtain ⟨rfl, rfl⟩ := List.cons_eq_cons.1 heq
          exact ⟨run, rest, ih.2 ⟨rfl, fun y hy => hall y (by simp [hy])⟩, ⟨rfl, rfl⟩, rfl⟩
      · next hc =>
        simp only [List.not_mem_nil, List.cons_append, List.cons.injEq, false_iff]
        rintro ⟨⟨rfl, -⟩, hall⟩
        exact hc (hall c (by simp))

theorem mem_readings_char :
    m ∈ (char p).readings parts s ↔ ∃ c rest, s = c :: rest ∧ p c ∧ m = ⟨[c], parts, rest⟩ := by
  cases s with
  | nil => simp [readings]
  | cons c s =>
    rw [readings]
    split
    · next hc =>
      rw [List.mem_singleton]
      constructor
      · rintro rfl
        exact ⟨c, s, rfl, hc, rfl⟩
      · rintro ⟨x, rest, heq, -, rfl⟩
        obtain ⟨rfl, rfl⟩ := List.cons_eq_cons.1 heq
        rfl
    · next hc =>
      simp only [List.not_mem_nil, false_iff]
      rintro ⟨x, rest, heq, hx, -⟩
      exact hc ((List.cons_eq_cons.1 heq).1 ▸ hx)

theorem mem_readings_oneOf {words : List String} :
    m ∈ (oneOf words).readings parts s ↔
      ∃ word ∈ words, ∃ rest, s = word.toList ++ rest ∧ m = ⟨word.toList, parts, rest⟩ := by
  simp only [readings, List.mem_filterMap, Option.map_eq_some_iff]
  constructor
  · rintro ⟨word, hword, rest, hrest, rfl⟩
    exact ⟨word, hword, rest, eq_append_of_dropPrefix? hrest, rfl⟩
  · rintro ⟨word, hword, rest, rfl, rfl⟩
    exact ⟨word, hword, rest, dropPrefix?_append _ _, rfl⟩

theorem mem_readings_seq :
    m ∈ (seq first second).readings parts s ↔
      ∃ m₁ ∈ first.readings parts s, ∃ m₂ ∈ second.readings m₁.parts m₁.rest,
        m = ⟨m₁.chars ++ m₂.chars, m₂.parts, m₂.rest⟩ := by
  simp only [readings, List.mem_flatMap, List.mem_map, eq_comm]

theorem mem_readings_optional :
    m ∈ (optional first).readings parts s ↔
      m ∈ first.readings parts s ∨ m = ⟨[], parts, s⟩ := by
  simp only [optional, readings, List.mem_append, List.mem_singleton]

theorem mem_readings_most :
    m ∈ (most p).readings parts s ↔
      ∃ run rest, s = run ++ rest ∧ (∀ c ∈ run, p c) ∧ m = ⟨run, parts, rest⟩ := by
  simp only [readings, List.mem_map, List.mem_reverse, Prod.exists, mem_runs, and_assoc, eq_comm]

theorem mem_readings_part {name : ι} :
    m ∈ (part name first).readings parts s ↔
      ∃ m₁ ∈ first.readings parts s, m = { m₁ with parts := m₁.parts.put name m₁.chars } := by
  simp only [readings, List.mem_map, eq_comm]

/-! ### The first reading -/

/-- Behind as few characters as possible: without any of them, or else one more character of the
class is passed over. -/
theorem head?_least_seq_cons (c : Char) :
    ((seq (least p) second).readings parts (c :: s)).head? =
      ((second.readings parts (c :: s)).head?).or
        (if p c then ((seq (least p) second).readings parts s).head?.map fun m =>
          { m with chars := c :: m.chars } else none) := by
  have hnone : (second.readings parts (c :: s)).map
      (fun m => (⟨[] ++ m.chars, m.parts, m.rest⟩ : Match ι)) = second.readings parts (c :: s) :=
    List.map_id _
  simp only [readings, runs, List.map_cons, List.flatMap_cons, List.head?_append, hnone]
  congr 1
  split
  · simp only [← List.head?_map, List.map_flatMap, List.flatMap_map, List.map_map,
      Function.comp_def, List.cons_append]
  · rfl

/-- Where all readings of the first pattern are the same, the second one decides. -/
theorem head?_seq_of_forall {m₁ : Match ι} (hmem : m₁ ∈ first.readings parts s)
    (hall : ∀ m ∈ first.readings parts s, m = m₁)
    (hne : second.readings m₁.parts m₁.rest ≠ []) :
    ((seq first second).readings parts s).head? =
      (second.readings m₁.parts m₁.rest).head?.map fun m =>
        ⟨m₁.chars ++ m.chars, m.parts, m.rest⟩ := by
  obtain ⟨m, ms, hms⟩ := List.exists_cons_of_ne_nil (List.ne_nil_of_mem hmem)
  obtain rfl := hall m (by simp [hms])
  obtain ⟨m', ms', hms'⟩ := List.exists_cons_of_ne_nil hne
  rw [readings, hms, List.flatMap_cons, hms']
  rfl

/-! ### Matches from left to right -/

variable {pattern : Pattern ι}

/-- Characters at which the pattern does not match are passed over. -/
theorem cut_append {a b : List Char}
    (h : ∀ t u, t ++ u = a → u ≠ [] → pattern.match? (u ++ b) = none) :
    pattern.cut (a ++ b) = a.map .inl ++ pattern.cut b := by
  induction a with
  | nil => rfl
  | cons c a ih =>
    have hc := h [] (c :: a) rfl (by simp)
    rw [List.cons_append] at hc
    rw [List.cons_append, cut, hc, ih fun t u htu hu => h (c :: t) u (by simp [htu]) hu]
    rfl

/-- A match that is not empty is cut off. -/
theorem cut_of_match? (h : pattern.match? s = some m) (hlength : m.rest.length < s.length) :
    pattern.cut s = .inr m :: pattern.cut m.rest := by
  cases s with
  | nil => cases hlength
  | cons c s =>
    rw [cut, h]
    exact if_pos (Nat.le_of_lt_succ hlength)

end Pattern

end BoundSql.Text
