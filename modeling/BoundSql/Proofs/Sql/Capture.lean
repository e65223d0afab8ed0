import BoundSql.Proofs.Sql.Lossless

/-!
# Numbers that are captured

In a statement with numbered parameters a number stands for its name wherever it is read, also where
it stood in the text before the placeholders were numbered. Such a number is captured: the text
cannot be told from another one that has the name in its place.

The name of each number can be written back into a numbered text (`Positional.restored`). This gives
the text from which it was made exactly if no number in that text was captured. In any case the text
is determined once it is known where the numbers stand that were made for placeholders (`marks`).

* `Numbers.restoreFrom_all_iff`: when the text comes back with all names written back;
* `Numbers.restoreFrom_eq`: that it comes back with the names written back at the marks;
* `positional_faithful`: both for statements, and when two statements are numbered alike.
-/

namespace BoundSql.Sql

/-- The name with the number that is written with the given digits. Numbers are counted from one and
have no zeros before them. -/
def nameOf? (names : List String) (digits : List Char) : Option String :=
  match Nat.ofDigitChars 10 digits 0 with
  | 0 => none
  | index + 1 => if Nat.toDigits 10 (index + 1) = digits then names[index]? else none

/-- Write the names of numbers back into a text that begins at the place `i` of a statement, at the
places that are marked. -/
def restoreFrom (names : List String) (marked : Nat → Prop) [DecidablePred marked] (i : Nat) :
    List Char → List Char
  | [] => []
  | c :: rest =>
    let digits := rest.takeWhile Char.isDigit
    match if c = '$' ∧ marked i then nameOf? names digits else none with
    | some name =>
      name.toList ++ restoreFrom names marked (i + 1 + digits.length) (rest.dropWhile Char.isDigit)
    | none => c :: restoreFrom names marked (i + 1) rest
  termination_by s => s.length
  decreasing_by
    · exact Nat.lt_succ_of_le (List.dropWhile_suffix _).length_le
    · exact Nat.lt_succ_self _

/-- The statement with the name of every number written back. -/
def Positional.restored (p : Positional) : String :=
  String.ofList (restoreFrom p.names (fun _ => True) 0 p.sql.toList)

/-- Whether the number of one of the names stands behind a dollar in a text. -/
def Captures (names : List String) (s : List Char) : Prop :=
  ∃ before after, s = before ++ '$' :: after ∧
    (nameOf? names (after.takeWhile Char.isDigit)).isSome

/-- The places of numbers made for placeholders in the numbered text of segments; `i` is the place
at which this text begins. -/
def marksFrom (names : List String) (i : Nat) : List Segment → List Nat
  | [] => []
  | .placeholder word :: rest =>
    i :: marksFrom names (i + (Segment.numbered names (.placeholder word)).length) rest
  | segment :: rest => marksFrom names (i + segment.source.length) rest

/-- The places in the numbered text of a statement at which a number stands for a placeholder. -/
def marks (sql : String) : List Nat := marksFrom (positional sql).names 0 (segments sql)

/-! ### Texts and their numbered forms -/

/-- `o` is the text `s` with numbers in the places of some names, which begin at the places `ms`
when `o` itself begins at the place `i`. No digit follows a name, which could be read as one of its
number. -/
inductive Numbers (names : List String) : Nat → List Nat → List Char → List Char → Prop
  | nil {i : Nat} : Numbers names i [] [] []
  | char {i : Nat} {ms : List Nat} {s o : List Char} (c : Char) (h : Numbers names (i + 1) ms s o) :
      Numbers names i ms (c :: s) (c :: o)
  | name {i index : Nat} {ms : List Nat} {name : String} {s o : List Char}
      (hname : names[index]? = some name) (hs : ∀ c ∈ s.head?, c.isDigit = false)
      (h : Numbers names (i + 1 + (Nat.toDigits 10 (index + 1)).length) ms s o) :
      Numbers names i (i :: ms) (name.toList ++ s) ('$' :: (Nat.toDigits 10 (index + 1) ++ o))

theorem isDigit_toDigits {n : Nat} : ∀ c ∈ Nat.toDigits 10 n, c.isDigit := fun _ hc =>
  Nat.isDigit_of_mem_toDigits (by decide) (by decide) hc

/-- A number is read as the name that it was made for. -/
theorem nameOf?_toDigits (names : List String) (index : Nat) :
    nameOf? names (Nat.toDigits 10 (index + 1)) = names[index]? := by
  rw [nameOf?, Nat.ofDigitChars_ten_toDigits]
  exact if_pos rfl

theorem mem_of_nameOf? {names : List String} {digits : List Char} {name : String}
    (h : nameOf? names digits = some name) : name ∈ names := by
  rw [nameOf?] at h
  split at h
  · cases h
  · split at h
    · exact List.mem_of_getElem? h
    · cases h

/-- A name is a colon with a word behind it, so that it holds no dollar. -/
theorem IsLabel.eq_colon_cons {s : List Char} (h : IsLabel s) :
    ∃ word, s = ':' :: word ∧ '$' ∉ s := by
  obtain ⟨c, word, rfl, hc, hword⟩ := h
  refine ⟨c :: word, rfl, fun hmem => ?_⟩
  simp only [List.mem_cons] at hmem
  rcases hmem with h | rfl | hmem
  · exact absurd h (by decide)
  · exact absurd hc (by decide)
  · exact absurd (hword _ hmem) (by decide)

namespace Numbers

variable {names : List String} {i : Nat} {ms : List Nat} {s o : List Char}

/-- Text is copied. -/
theorem append (a : List Char) (h : Numbers names (i + a.length) ms s o) :
    Numbers names i ms (a ++ s) (a ++ o) := by
  induction a generalizing i with
  | nil => exact h
  | cons c a ih =>
    refine .char c (ih ?_)
    rwa [Nat.add_assoc, Nat.add_comm 1]

/-- Names are written at places of the text. -/
theorem le_of_mem (h : Numbers names i ms s o) : ∀ m ∈ ms, i ≤ m := by
  induction h with
  | nil => simp
  | char c _ ih => exact fun m hm => Nat.le_of_succ_le (ih m hm)
  | name _ _ _ ih =>
    intro m hm
    rcases List.mem_cons.1 hm with rfl | hm
    · exact Nat.le_refl _
    · have := ih m hm
      omega

/-- Both texts begin with the same digits, since neither a name nor a number behind a dollar begins
with one. -/
theorem takeWhile_isDigit (hnames : ∀ name ∈ names, IsLabel name.toList)
    (h : Numbers names i ms s o) : o.takeWhile Char.isDigit = s.takeWhile Char.isDigit := by
  induction h with
  | nil => rfl
  | char c _ ih => simp only [List.takeWhile_cons, ih]
  | @name i index ms name s o hname _ _ _ =>
    obtain ⟨word, hword, -⟩ := (hnames name (List.mem_of_getElem? hname)).eq_colon_cons
    rw [hword, List.cons_append, List.takeWhile_cons_of_neg (by decide),
      List.takeWhile_cons_of_neg (by decide)]

/-- Where the text does not begin with a digit, the numbered text does not either. -/
theorem head?_isDigit (hs : ∀ c ∈ s.head?, c.isDigit = false) (h : Numbers names i ms s o) :
    ∀ c ∈ o.head?, c.isDigit = false := by
  cases h with
  | nil => exact hs
  | char c _ => exact hs
  | name _ _ _ =>
    intro c hc
    obtain rfl := Option.some.inj hc
    decide

variable {marked : Nat → Prop} [DecidablePred marked]

/-- A number at a marked place is read back as its name. -/
theorem restoreFrom_name {index : Nat} {name : String} (hname : names[index]? = some name)
    (hs : ∀ c ∈ s.head?, c.isDigit = false) {j : Nat} (h : Numbers names j ms s o)
    (hi : marked i) :
    restoreFrom names marked i ('$' :: (Nat.toDigits 10 (index + 1) ++ o)) =
      name.toList ++
        restoreFrom names marked (i + 1 + (Nat.toDigits 10 (index + 1)).length) o := by
  have ho := h.head?_isDigit hs
  rw [restoreFrom, Text.takeWhile_word_append isDigit_toDigits ho,
    Text.dropWhile_word_append isDigit_toDigits ho, nameOf?_toDigits, hname,
    if_pos ⟨rfl, hi⟩]

/-- With the names written back where numbers were made for them, the text is the one before. -/
theorem restoreFrom_eq (h : Numbers names i ms s o) (hmarked : ∀ j, i ≤ j → (marked j ↔ j ∈ ms)) :
    restoreFrom names marked i o = s := by
  induction h with
  | nil => rw [restoreFrom]
  | @char i ms s o c h ih =>
    -- The place of a character that was copied is not marked.
    have hi : ¬marked i := fun hi => by
      have := h.le_of_mem i ((hmarked i (Nat.le_refl i)).1 hi)
      omega
    rw [restoreFrom, if_neg fun hc => hi hc.2]
    exact congrArg (c :: ·) (ih fun j hj => hmarked j (by omega))
  | @name i index ms name s o hname hs h ih =>
    have hi : marked i := (hmarked i (Nat.le_refl i)).2 (by simp)
    rw [restoreFrom_name hname hs h hi, ih fun j hj => ?_]
    rw [hmarked j (by omega), List.mem_cons, or_iff_right (by omega)]

/-- With all names written back the text is the one before exactly if none of its own numbers is
captured. -/
theorem restoreFrom_all_iff (hnames : ∀ name ∈ names, IsLabel name.toList)
    (h : Numbers names i ms s o) :
    restoreFrom names (fun _ => True) i o = s ↔ ¬Captures names s := by
  induction h with
  | nil => simp [restoreFrom, Captures]
  | @char i ms s o c h ih =>
    have hcaptures : Captures names (c :: s) ↔
        (c = '$' ∧ (nameOf? names (s.takeWhile Char.isDigit)).isSome) ∨ Captures names s := by
      constructor
      · rintro ⟨_ | ⟨_, before⟩, after, heq, hsome⟩
        · obtain ⟨rfl, rfl⟩ := List.cons_eq_cons.1 heq
          exact .inl ⟨rfl, hsome⟩
        · obtain ⟨-, rfl⟩ := List.cons_eq_cons.1 heq
          exact .inr ⟨before, after, rfl, hsome⟩
      · rintro (⟨rfl, hsome⟩ | ⟨before, after, rfl, hsome⟩)
        · exact ⟨[], s, rfl, hsome⟩
        · exact ⟨c :: before, after, rfl, hsome⟩
    rw [restoreFrom, h.takeWhile_isDigit hnames, hcaptures]
    -- A copied dollar is read as the start of a number if one of a name stands behind it.
    by_cases hc : c = '$'
    · rw [if_pos ⟨hc, trivial⟩]
      cases hname : nameOf? names (s.takeWhile Char.isDigit) with
      | some name =>
        obtain ⟨word, hword, -⟩ := (hnames name (mem_of_nameOf? hname)).eq_colon_cons
        simp [hword, hc]
      | none => simpa [hc] using ih
    · rw [if_neg fun h => hc h.1]
      simpa [hc] using ih
  | @name i index ms name s o hname hs h ih =>
    obtain ⟨word, -, hdollar⟩ := (hnames name (List.mem_of_getElem? hname)).eq_colon_cons
    rw [restoreFrom_name hname hs h trivial, List.append_cancel_left_eq, ih, not_iff_not]
    -- No dollar stands in a name.
    constructor
    · rintro ⟨before, after, rfl, hsome⟩
      exact ⟨name.toList ++ before, after, by simp, hsome⟩
    · rintro ⟨before, after, heq, hsome⟩
      rcases List.append_eq_append_iff.1 heq with ⟨t, rfl, ht⟩ | ⟨t, ht, hafter⟩
      · exact ⟨t, after, ht, hsome⟩
      · cases t with
        | nil => exact ⟨[], after, by simpa using hafter.symm, hsome⟩
        | cons d t =>
          obtain ⟨rfl, -⟩ := List.cons_eq_cons.1 hafter
          exact absurd (by simp [ht]) hdollar

end Numbers

/-! ### Statements -/

/-- Segments are numbered in the places of their placeholders. -/
theorem numbers_segments (names : List String) (segments : List Segment) (i : Nat)
    (hplaceholder : ∀ left word right, segments = left ++ .placeholder word :: right →
      IsPlaceholder word (right.flatMap Segment.source))
    (hnames : ∀ word, .placeholder word ∈ segments → String.ofList word ∈ names) :
    Numbers names i (marksFrom names i segments) (segments.flatMap Segment.source)
      (segments.flatMap (Segment.numbered names)) := by
  induction segments generalizing i with
  | nil => exact .nil
  | cons segment segments ih =>
    have hrest := fun i => ih i
      (fun left word right h => hplaceholder (segment :: left) word right (by rw [h]; rfl))
      (fun word h => hnames word (List.mem_cons_of_mem _ h))
    cases segment with
    | placeholder word =>
      have hword := hplaceholder [] word segments rfl
      have hindex := List.idxOf_lt_length_iff.2 (hnames word (by simp))
      have hname : names[names.idxOf (String.ofList word)]? = some (String.ofList word) := by
        rw [List.getElem?_eq_getElem hindex, List.getElem_idxOf hindex]
      have hdigit : ∀ c ∈ (segments.flatMap Segment.source).head?, c.isDigit = false := by
        intro c hc
        have hnot := hword.longest c hc
        simp only [Text.isAsciiWord, Char.isAlphanum, Bool.or_eq_false_iff] at hnot
        exact hnot.1.2
      have h := Numbers.name (i := i) hname hdigit (hrest _)
      rw [String.toList_ofList] at h
      have hplace : i + (Segment.numbered names (.placeholder word)).length =
          i + 1 + (Nat.toDigits 10 (names.idxOf (String.ofList word) + 1)).length := by
        simp only [Segment.numbered, List.length_cons]
        omega
      rw [marksFrom, hplace]
      exact h
    | text chars => exact (hrest _).append chars
    | quotedName content => exact (hrest _).append (Segment.quotedName content).source

/-- The numbered text of a statement has numbers at its marks and is the statement elsewhere. -/
theorem numbers_positional (sql : String) :
    Numbers (positional sql).names 0 (marks sql) sql.toList (positional sql).sql.toList := by
  have h := numbers_segments (positional sql).names (segments sql) 0
    (fun _ _ _ => isPlaceholder_of_segments_eq) fun word hword => by
      rw [positional_names, List.mem_eraseDups]
      exact List.mem_filterMap.2 ⟨_, hword, rfl⟩
  have htext : (positional sql).sql.toList =
      (segments sql).flatMap (Segment.numbered (positional sql).names) := by
    rw [positional_sql, String.toList_ofList, positional_names]
  rwa [htext, ← flatMap_source_segments]

/-- The names of a numbered statement are placeholders. -/
theorem isLabel_of_mem_positional {sql name : String} (h : name ∈ (positional sql).names) :
    IsLabel name.toList := by
  rw [positional_names, List.mem_eraseDups] at h
  obtain ⟨segment, hsegment, hlabel⟩ := List.mem_filterMap.1 h
  cases segment with
  | placeholder word =>
    obtain rfl := Option.some.inj hlabel
    obtain ⟨left, right, hsegments⟩ := List.append_of_mem hsegment
    rw [String.toList_ofList]
    exact (isPlaceholder_of_segments_eq hsegments).label
  | _ => cases hlabel

/-- A statement is what its numbered form becomes with all names written back exactly if no number
in it is captured. -/
theorem restored_positional_iff (sql : String) :
    (positional sql).restored = sql ↔ ¬Captures (positional sql).names sql.toList := by
  rw [← (numbers_positional sql).restoreFrom_all_iff fun _ => isLabel_of_mem_positional,
    Positional.restored, ← String.toList_inj, String.toList_ofList]

/-- Two statements that are numbered alike and at the same places are the same. -/
theorem eq_of_positional_eq {s t : String} (h : positional s = positional t)
    (hmarks : marks s = marks t) : s = t := by
  have hs : restoreFrom (positional s).names (· ∈ marks s) 0 (positional s).sql.toList = s.toList :=
    (numbers_positional s).restoreFrom_eq fun _ _ => Iff.rfl
  have ht : restoreFrom (positional t).names (· ∈ marks s) 0 (positional t).sql.toList = t.toList :=
    (numbers_positional t).restoreFrom_eq fun _ _ => by rw [hmarks]
  rw [← String.toList_inj, ← hs, ← ht, h]

/-- Numbering confuses no two statements as long as no number is captured: exactly where none is,
the statement comes back when the name of every number is written back. Whatever numbers stand in a
statement, it is the only one that is numbered as it is at the same places. -/
theorem positional_faithful (s t : String) :
    ((positional s).restored = s ↔ ¬Captures (positional s).names s.toList) ∧
      (¬Captures (positional s).names s.toList → ¬Captures (positional t).names t.toList →
        (positional s = positional t ↔ s = t)) ∧
      (positional s = positional t ∧ marks s = marks t ↔ s = t) := by
  refine ⟨restored_positional_iff s, ?uncaptured, ?marked⟩
  case uncaptured =>
    intro hs ht
    refine ⟨fun h => ?_, congrArg positional⟩
    calc
      s = (positional s).restored := ((restored_positional_iff s).2 hs).symm
      _ = (positional t).restored := by rw [h]
      _ = t := (restored_positional_iff t).2 ht
  case marked =>
    constructor
    · exact fun ⟨h, hmarks⟩ => eq_of_positional_eq h hmarks
    · rintro rfl
      exact ⟨rfl, rfl⟩

/-- The number in the first statement and the name in the second become the same parameter, so that
the two cannot be told apart. -/
theorem positional_captures :
    positional "SELECT $1, :x, a$b = :y" = ⟨"SELECT $1, $1, a$b = $2", [":x", ":y"]⟩ ∧
      positional "SELECT :x, $1, a$b = :y" = ⟨"SELECT $1, $1, a$b = $2", [":x", ":y"]⟩ ∧
      ¬Function.Injective positional := by
  have hnumber : positional "SELECT $1, :x, a$b = :y" =
      ⟨"SELECT $1, $1, a$b = $2", [":x", ":y"]⟩ := by decide +kernel
  have hname : positional "SELECT :x, $1, a$b = :y" =
      ⟨"SELECT $1, $1, a$b = $2", [":x", ":y"]⟩ := by decide +kernel
  refine ⟨hnumber, hname, fun hinjective => ?_⟩
  exact absurd (hinjective (hnumber.trans hname.symm)) (by decide)

/-- A number in a literal is captured as well: in the first statement the number that is made for
the name becomes part of a tag, which the text before it has begun. -/
example :
    positional "$t:x $t$ $t$ '$t$' /*'*/ :x" = positional "$t$1 $t$ $t$ '$t$' /*'*/ :x" := by
  decide +kernel

end BoundSql.Sql
