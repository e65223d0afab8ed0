import BoundSql.Proofs.Text.Runs
import BoundSql.Sql.Segment

/-!
# Opaque regions of SQL text

Quoted strings, escape strings, quoted names, dollar-quoted strings, line comments and block
comments hide what stands in them. The rules for them are stated here without a scanner: each says
how a region begins and where it ends, and a region that is never closed goes to the end of the
text. A letter or a dollar directly behind a word goes on with that word and opens nothing, and a
string that continues another one on the next line is a region of its own. Readers of SQL differ in
three points (`Dialect`): which characters end a line, whether block comments nest, and which
characters the tags of dollar-quoted strings have.

* `Region`: the regions of a dialect, by what stands before and behind them;
* `Region.unique`: at most one region begins at each place of a text;
* `quoted_quotedRun`, `quoted_escapedRun` and `through_throughFirst`: what the scanner skips is a
  region's body.
-/

namespace BoundSql.Sql

/-- The points in which readers of SQL text differ. -/
structure Dialect where
  /-- Whether a carriage return ends a line. A line feed always does. -/
  returns : Bool
  /-- Whether block comments nest. -/
  nests : Bool
  /-- Whether a character can stand in the tag of a dollar-quoted string. -/
  inTag : Char → Bool
  /-- No tag goes on behind a dollar. -/
  dollar_not_inTag : inTag '$' = false

namespace Dialect

/-- Lines end with line feeds, block comments at their first closing mark, and tags are words of
ASCII letters. -/
def flat : Dialect where
  returns := false
  nests := false
  inTag := Text.isAsciiWord
  dollar_not_inTag := by decide

/-- The server's dialect: a carriage return ends a line too, block comments nest, and tags may have
letters beyond ASCII. -/
def postgres : Dialect where
  returns := true
  nests := true
  inTag c := Text.isAsciiWord c || 0x80 ≤ c.toNat
  dollar_not_inTag := by decide

end Dialect

/-- What stands behind the opening mark of a quoted text, up to and with the closing mark, where
`after` follows. A doubled mark does not close the text, and neither does a mark behind a backslash
if backslashes escape. -/
inductive Quoted (escapes : Bool) (mark : Char) : List Char → List Char → Prop
  | closed {after : List Char} (h : after.head? ≠ some mark) : Quoted escapes mark [mark] after
  | doubled {body after : List Char} (h : Quoted escapes mark body after) :
      Quoted escapes mark (mark :: mark :: body) after
  | escaped {c : Char} {body after : List Char} (he : escapes)
      (h : Quoted escapes mark body after) : Quoted escapes mark ('\\' :: c :: body) after
  | char {c : Char} {body after : List Char} (hmark : c ≠ mark) (he : escapes → c ≠ '\\')
      (h : Quoted escapes mark body after) : Quoted escapes mark (c :: body) after
  | unclosed : Quoted escapes mark [] []
  | cut (he : escapes) : Quoted escapes mark ['\\'] []

/-- `body` goes through the first place at which a region ends, or to the end of the text. Whether
it ends at a place can depend on what has been read and on what comes next. -/
structure Through (ends : List Char → List Char → Prop) (body after : List Char) : Prop where
  /-- The region does not end before. -/
  first : ∀ s t, s ++ t = body → ends s (t ++ after) → t = []
  /-- The region ends here, or the text does. -/
  last : ends body after ∨ after = []

/-- What stands behind the opening mark of a block comment up to and with its closing mark, where
comments nest and `n` comments in this one are open. -/
inductive Closes : Nat → List Char → Prop
  | close : Closes 0 ['*', '/']
  | inner {n : Nat} {s : List Char} (h : Closes n s) : Closes (n + 1) ('*' :: '/' :: s)
  | nest {n : Nat} {s : List Char} (h : Closes (n + 1) s) : Closes n ('/' :: '*' :: s)
  | char {n : Nat} {c : Char} {s : List Char} (hclose : ¬['*', '/'] <+: c :: s)
      (hopen : ¬['/', '*'] <+: c :: s) (h : Closes n s) : Closes n (c :: s)

namespace Dialect

variable (d : Dialect)

/-- A line ends with its line feed, or with a carriage return that no line feed follows. -/
def EndsLine (s rest : List Char) : Prop :=
  ['\n'] <:+ s ∨ d.returns ∧ ['\r'] <:+ s ∧ rest.head? ≠ some '\n'

/-- A block comment ends with its own closing mark, or with the first one if comments do not
nest. -/
def EndsBlock (s _rest : List Char) : Prop := if d.nests then Closes 0 s else ['*', '/'] <:+ s

/-- The tag of a dollar-quoted string. It does not begin with a digit. -/
def IsTag (tag : List Char) : Prop :=
  (∀ c ∈ tag, d.inTag c) ∧ ∀ c ∈ tag.head?, c.isDigit = false

end Dialect

/-- A letter or a dollar opens a string unless it goes on with a word. -/
def CanOpen (before : Option Char) : Prop := ∀ c ∈ before, Segment.isWordChar c = false

/-- The opaque regions of a text: `Region d before chars after` says that `chars` is one, behind the
character `before` and in front of the text `after`. -/
inductive Region (d : Dialect) (before : Option Char) : List Char → List Char → Prop
  | string {body after : List Char} (h : Quoted false '\'' body after) :
      Region d before ('\'' :: body) after
  | escape {c : Char} {body after : List Char} (hc : c = 'E' ∨ c = 'e') (hb : CanOpen before)
      (h : Quoted true '\'' body after) : Region d before (c :: '\'' :: body) after
  | name {body after : List Char} (h : Quoted false '"' body after) :
      Region d before ('"' :: body) after
  | dollar {tag body after : List Char} (hb : CanOpen before) (htag : d.IsTag tag)
      (h : Through (fun s _ => '$' :: tag ++ ['$'] <:+ s) body after) :
      Region d before ('$' :: (tag ++ '$' :: body)) after
  | line {body after : List Char} (h : Through d.EndsLine body after) :
      Region d before ('-' :: '-' :: body) after
  | block {body after : List Char} (h : Through d.EndsBlock body after) :
      Region d before ('/' :: '*' :: body) after

/-! ### What the scanner skips -/

/-- A character that is no mark belongs to the quoted run that follows it. -/
theorem quotedRun_cons_of_ne {mark c : Char} (h : c ≠ mark) (s : List Char) :
    Segment.quotedRun mark (c :: s) =
      (c :: (Segment.quotedRun mark s).1, (Segment.quotedRun mark s).2) := by
  cases s with
  | nil => simp [Segment.quotedRun]
  | cons d s => rw [Segment.quotedRun, if_neg h]

/-- A character that is neither a mark nor a backslash belongs to the escape string that follows
it. -/
theorem escapedRun_cons_of_ne {c : Char} (h : c ≠ '\'') (hb : c ≠ '\\') (s : List Char) :
    Segment.escapedRun (c :: s) = (c :: (Segment.escapedRun s).1, (Segment.escapedRun s).2) := by
  cases s with
  | nil => simp [Segment.escapedRun]
  | cons d s => simp [Segment.escapedRun, h, hb]

/-- The scanner finds the end of a quoted text. -/
theorem Quoted.quotedRun_append {mark : Char} {body after : List Char}
    (h : Quoted false mark body after) :
    Segment.quotedRun mark (body ++ after) = (body, after) := by
  induction h with
  | @closed after h =>
    -- The scanner looks one character ahead to tell a closing mark from a doubled one.
    cases after with
    | nil => simp [Segment.quotedRun]
    | cons d after =>
      have hd : d ≠ mark := by simpa using h
      simp [Segment.quotedRun, hd]
  | doubled _ ih => simp [Segment.quotedRun, ih]
  | escaped he _ _ => simp at he
  | char hmark _ _ ih => rw [List.cons_append, quotedRun_cons_of_ne hmark, ih]
  | unclosed => rfl
  | cut he => simp at he

/-- What the scanner takes for a quoted text is one. -/
theorem quoted_quotedRun (mark : Char) (s : List Char) :
    Quoted false mark (Segment.quotedRun mark s).1 (Segment.quotedRun mark s).2 := by
  fun_induction Segment.quotedRun mark s with
  | case1 => exact .unclosed
  | case2 c =>
    by_cases hc : c = mark
    · subst hc
      exact .closed (by simp)
    · exact .char hc (by simp) .unclosed
  | case3 rest run after hrun ih => exact .doubled (by simpa [hrun] using ih)
  | case4 d rest hd => exact .closed (by simpa using hd)
  | case5 c d rest hc run after hrun ih => exact .char hc (by simp) (by simpa [hrun] using ih)

/-- The scanner finds the end of an escape string. -/
theorem Quoted.escapedRun_append {body after : List Char} (h : Quoted true '\'' body after) :
    Segment.escapedRun (body ++ after) = (body, after) := by
  induction h with
  | @closed after h =>
    cases after with
    | nil => simp [Segment.escapedRun]
    | cons d after =>
      have hd : d ≠ '\'' := by simpa using h
      simp [Segment.escapedRun, hd]
  | doubled _ ih => simp [Segment.escapedRun, ih]
  | escaped _ _ ih => simp [Segment.escapedRun, ih]
  | char hmark he _ ih => rw [List.cons_append, escapedRun_cons_of_ne hmark (he rfl), ih]
  | unclosed => rfl
  | cut _ => rfl

/-- What the scanner takes for an escape string is one. -/
theorem quoted_escapedRun (s : List Char) :
    Quoted true '\'' (Segment.escapedRun s).1 (Segment.escapedRun s).2 := by
  fun_induction Segment.escapedRun s with
  | case1 => exact .unclosed
  | case2 c =>
    by_cases hb : c = '\\'
    · subst hb
      exact .cut rfl
    · by_cases hc : c = '\''
      · subst hc
        exact .closed (by simp)
      · exact .char hc (fun _ => hb) .unclosed
  | case3 c d rest h run after hrun ih =>
    have hrest : Quoted true '\'' run after := by simpa [hrun] using ih
    rcases (by simpa using h : c = '\\' ∨ c = '\'' ∧ d = '\'') with rfl | ⟨rfl, rfl⟩
    · exact .escaped rfl hrest
    · exact .doubled hrest
  | case4 d rest h => exact .closed (by simpa using h)
  | case5 c d rest h hc run after hrun ih =>
    have hb : c ≠ '\\' := fun hb => h (by simp [hb])
    exact .char hc (fun _ => hb) (by simpa [hrun] using ih)

namespace Through

variable {ends : List Char → List Char → Prop} {s t after rest : List Char}

/-- A text has one first part that goes through an end. -/
theorem unique (hs : Through ends s after) (ht : Through ends t rest)
    (h : s ++ after = t ++ rest) : s = t := by
  -- One part is a beginning of the other, and each ends where it ends.
  rcases List.append_eq_append_iff.1 h with ⟨u, rfl, rfl⟩ | ⟨u, rfl, rfl⟩
  · rcases hs.last with hend | hnil
    · simp [ht.first s u rfl hend]
    · simp_all
  · rcases ht.last with hend | hnil
    · simp [hs.first t u rfl hend]
    · simp_all

/-- Every text has a first part that goes through an end. -/
theorem exists_append (ends : List Char → List Char → Prop) (s : List Char) :
    ∃ body after, body ++ after = s ∧ Through ends body after := by
  induction s generalizing ends with
  | nil => exact ⟨[], [], rfl, by simp, .inr rfl⟩
  | cons c s ih =>
    by_cases h : ends [] (c :: s)
    · exact ⟨[], c :: s, rfl, by simp, .inl h⟩
    · -- Behind the first character, what has been read begins with it.
      obtain ⟨body, after, rfl, hbody⟩ := ih fun t rest => ends (c :: t) rest
      refine ⟨c :: body, after, rfl, fun s t hst hend => ?_, hbody.last⟩
      cases s with
      | nil =>
        obtain rfl : t = c :: body := hst
        exact absurd hend h
      | cons x s =>
        obtain ⟨rfl, hrest⟩ : x = c ∧ s ++ t = body := by simpa using hst
        exact hbody.first s t hrest hend

end Through

/-- The text up to the first occurrence of a mark goes through it. -/
theorem through_throughFirst (mark s : List Char) :
    Through (fun s _ => mark <:+ s) (Text.throughFirst mark s).1 (Text.throughFirst mark s).2 := by
  fun_induction Text.throughFirst mark s with
  | case1 => exact ⟨by simp, .inr rfl⟩
  | case2 c rest after h =>
    refine ⟨fun s t hst hend => ?_, .inl List.suffix_rfl⟩
    have hlength : (s ++ t).length = mark.length := congrArg List.length hst
    have hle := hend.length_le
    rw [List.length_append] at hlength
    exact List.length_eq_zero_iff.1 (by omega)
  | case3 c rest h run after hrun ih =>
    rw [hrun] at ih
    have hrest := Text.throughFirst_append mark rest
    rw [hrun] at hrest
    -- The mark does not stand here, so that it cannot end before the rest does.
    have hmark : ∀ t, mark ++ t ≠ c :: rest := fun t ht => by
      rw [← ht, Text.dropPrefix?_append] at h
      simp at h
    have hlast := ih.last.imp_left fun hend => hend.trans (List.suffix_cons c run)
    refine ⟨fun s t hst hend => ?_, hlast⟩
    cases s with
    | nil =>
      obtain rfl := List.suffix_nil.1 hend
      exact absurd rfl (hmark (c :: rest))
    | cons x s =>
      obtain ⟨rfl, rfl⟩ : x = c ∧ s ++ t = run := by simpa using hst
      rcases List.suffix_cons_iff.1 hend with heq | hsuffix
      · exact absurd (by simp [heq, ← hrest]) (hmark (t ++ after))
      · exact ih.first s t rfl hsuffix

/-- A text has one quoted text at its beginning. -/
theorem Quoted.unique {mark : Char} {s t after rest : List Char} (hs : Quoted false mark s after)
    (ht : Quoted false mark t rest) (h : s ++ after = t ++ rest) : s = t := by
  have hruns := hs.quotedRun_append
  rw [h, ht.quotedRun_append] at hruns
  exact (congrArg Prod.fst hruns).symm

/-- A text has one escape string at its beginning. -/
theorem Quoted.unique_escape {s t after rest : List Char} (hs : Quoted true '\'' s after)
    (ht : Quoted true '\'' t rest) (h : s ++ after = t ++ rest) : s = t := by
  have hruns := hs.escapedRun_append
  rw [h, ht.escapedRun_append] at hruns
  exact (congrArg Prod.fst hruns).symm

/-- A tag is the run of its characters at the beginning of the text, up to a dollar. -/
theorem Dialect.IsTag.runs {d : Dialect} {tag : List Char} (h : d.IsTag tag) (after : List Char) :
    (tag ++ '$' :: after).takeWhile d.inTag = tag ∧
      (tag ++ '$' :: after).dropWhile d.inTag = '$' :: after := by
  have hstop : ∀ c ∈ ('$' :: after).head?, d.inTag c = false := by simp [d.dollar_not_inTag]
  exact ⟨Text.takeWhile_word_append h.1 hstop, Text.dropWhile_word_append h.1 hstop⟩

/-- A text has one tag at its beginning. -/
theorem Dialect.IsTag.unique {d : Dialect} {s t after rest : List Char} (hs : d.IsTag s)
    (ht : d.IsTag t) (h : s ++ '$' :: after = t ++ '$' :: rest) : s = t ∧ after = rest := by
  have hruns := hs.runs after
  rw [h, (ht.runs rest).1, (ht.runs rest).2] at hruns
  exact ⟨hruns.1.symm, by simpa using hruns.2.symm⟩

/-- What the scanner skips behind a dollar is the rest of a dollar-quoted string. -/
theorem region_of_dollarRun? {before : Option Char} {s run after : List Char}
    (hb : CanOpen before) (h : Segment.dollarRun? s = some (run, after)) :
    Region .flat before ('$' :: run) after := by
  rw [Segment.dollarRun?] at h
  split at h
  · simp at h
  · next hdigit =>
    split at h
    · next body hbody =>
      -- The first character of the run is that of the text, and the scanner has looked at it.
      have htag : Dialect.flat.IsTag (s.takeWhile Text.isAsciiWord) := by
        refine ⟨fun c hc => List.mem_takeWhile_imp hc, fun c hc => ?_⟩
        rw [List.head?_takeWhile] at hc
        have hhead : s.head? = some c := (Option.filter_eq_some_iff.1 hc).1
        simpa [hhead] using hdigit
      obtain ⟨rfl, rfl⟩ : _ ∧ _ := by simpa using h
      exact .dollar hb htag (through_throughFirst _ body)
    · simp at h

/-- Where the scanner skips nothing behind a dollar, no tag begins. -/
theorem not_isTag_of_dollarRun? {s : List Char} (h : Segment.dollarRun? s = none)
    {tag : List Char} (htag : Dialect.flat.IsTag tag) (body : List Char) :
    s ≠ tag ++ '$' :: body := by
  rintro rfl
  have hdigit : (tag ++ '$' :: body).head?.any Char.isDigit = false := by
    cases tag with
    | nil => simp
    | cons c tag => simpa using htag.2 c rfl
  have hrun : (tag ++ '$' :: body).dropWhile Text.isAsciiWord = '$' :: body := (htag.runs body).2
  simp only [Segment.dollarRun?, hdigit, hrun, Bool.false_eq_true, if_false] at h
  exact absurd h (by simp)

/-- At most one region begins at each place of a text. -/
theorem Region.unique {d : Dialect} {before : Option Char} {s t after rest : List Char}
    (hs : Region d before s after) (ht : Region d before t rest) (h : s ++ after = t ++ rest) :
    s = t := by
  -- The opening marks tell the kinds of regions from one another.
  cases hs with
  | string hs =>
    cases ht with
    | string ht => simpa using hs.unique ht (by simpa using h)
    | escape hc => rcases hc with rfl | rfl <;> simp at h
    | _ => simp at h
  | @escape c body _ hc _ hs =>
    cases ht with
    | @escape c' body' _ hc' _ ht =>
      obtain ⟨rfl, hbodies⟩ : c = c' ∧ body ++ after = body' ++ rest := by simpa using h
      rw [hs.unique_escape ht hbodies]
    | _ => rcases hc with rfl | rfl <;> simp at h
  | name hs =>
    cases ht with
    | name ht => simpa using hs.unique ht (by simpa using h)
    | escape hc => rcases hc with rfl | rfl <;> simp at h
    | _ => simp at h
  | @dollar tag body _ _ htag hs =>
    cases ht with
    | @dollar tag' body' _ _ htag' ht =>
      have htags : tag ++ '$' :: (body ++ after) = tag' ++ '$' :: (body' ++ rest) := by
        simpa using h
      obtain ⟨rfl, hbodies⟩ := htag.unique htag' htags
      rw [hs.unique ht hbodies]
    | escape hc => rcases hc with rfl | rfl <;> simp at h
    | _ => simp at h
  | line hs =>
    cases ht with
    | line ht => simpa using hs.unique ht (by simpa using h)
    | escape hc => rcases hc with rfl | rfl <;> simp at h
    | _ => simp at h
  | block hs =>
    cases ht with
    | block ht => simpa using hs.unique ht (by simpa using h)
    | escape hc => rcases hc with rfl | rfl <;> simp at h
    | _ => simp at h

end BoundSql.Sql
