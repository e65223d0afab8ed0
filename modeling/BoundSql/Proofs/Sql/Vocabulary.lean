import BoundSql.Proofs.Sql.Scanning

/-!
# The vocabulary of statements

What the scanner finds in the text of sound tokens, besides parameters: quoted names and text. The
quoted names are those among the tokens, and each text is a row of fixed words and numbers
(`InVocabulary`). So a string that is neither a name nor a number among the tokens does not show up
in the text at all.

* `quotedNames_render`: the quoted names in the text of sound tokens;
* `inVocabulary_of_mem_segments`: the texts between them.
-/

namespace BoundSql.Sql

/-- The content of a quoted name. -/
def Segment.quoted? : Segment → Option String
  | quotedName content => some (String.ofList content)
  | _ => none

/-- The quoted names of a statement, in the order of its text. -/
def quotedNames (sql : String) : List String := (segments sql).filterMap Segment.quoted?

namespace Token

/-- The content of a quoted name. -/
def name? : Token → Option String
  | name content => some content
  | _ => none

/-- The digits of a number. -/
def number? : Token → Option String
  | number digits => some digits
  | _ => none

/-- A quoted name is found with the content it has. -/
theorem quoted?_segment (t : Token) : t.segment.quoted? = t.name? := by
  cases t <;> simp [segment, name?, Segment.quoted?]

/-- A fixed word, or one of the given numbers. -/
def IsFixed (numbers : List String) : Token → Prop
  | word _ => True
  | number digits => digits ∈ numbers
  | _ => False

end Token

/-- The quoted names in the text of sound tokens are the names among them. -/
theorem quotedNames_render {ts : Tokens} (h : Sound ts) :
    quotedNames (render ts) = ts.filterMap Token.name? := by
  rw [quotedNames, filterMap_segments_render (fun _ => rfl) h]
  exact List.filterMap_congr fun t _ => t.quoted?_segment

/-- A text that is a row of fixed words and of numbers among the given ones. -/
def InVocabulary (numbers : List String) (chars : List Char) : Prop :=
  ∃ part : Tokens, (∀ t ∈ part, t.IsFixed numbers) ∧ chars = (render part).toList

namespace InVocabulary

variable {numbers : List String}

/-- A fixed token alone. -/
theorem singleton {t : Token} (h : t.IsFixed numbers) : InVocabulary numbers t.text.toList := by
  refine ⟨[t], by simpa using h, ?_⟩
  rw [toList_render_cons, render_nil]
  exact (List.append_nil _).symm

/-- One row of words and numbers behind another. -/
theorem append {a b : List Char} (ha : InVocabulary numbers a) (hb : InVocabulary numbers b) :
    InVocabulary numbers (a ++ b) := by
  obtain ⟨part, hpart, rfl⟩ := ha
  obtain ⟨other, hother, rfl⟩ := hb
  refine ⟨part ++ other, ?_, ?_⟩
  · intro t ht
    exact (List.mem_append.1 ht).elim (hpart t) (hother t)
  · rw [toList_render, toList_render, toList_render, List.flatMap_append]

end InVocabulary

/-- Putting a segment before others makes no text that is not a text of one of them, or two of them
joined. -/
theorem Segment.of_text_mem_prepend {P : List Char → Prop}
    (happend : ∀ {a b}, P a → P b → P (a ++ b)) {s : Segment} {rest : List Segment}
    (hs : ∀ {chars}, s = text chars → P chars)
    (hrest : ∀ {chars}, text chars ∈ rest → P chars) {chars : List Char}
    (h : text chars ∈ s.prepend rest) : P chars := by
  -- Two texts become one only if both are texts.
  rcases s with a | a | a <;> rcases rest with _ | ⟨b | b | b, rest⟩
  case text.cons.text =>
    rcases List.mem_cons.1 h with heq | hmem
    · obtain rfl := text.inj heq
      exact happend (hs rfl) (hrest (by simp))
    · exact hrest (List.mem_cons_of_mem _ hmem)
  all_goals
    rcases List.mem_cons.1 h with heq | hmem
    · exact hs heq.symm
    · exact hrest hmem

/-- Each text that the scanner finds in the text of sound tokens is a row of fixed words and of the
numbers among the tokens. -/
theorem inVocabulary_of_mem_segments {ts : Tokens} (h : Sound ts) {chars : List Char}
    (hmem : .text chars ∈ segments (render ts)) :
    InVocabulary (ts.filterMap Token.number?) chars := by
  rw [segments, scan_render h] at hmem
  have hclean := h.clean
  clear h
  -- The numbers are those of all tokens, also for the texts of the last ones.
  have hnumbers : ∀ digits, .number digits ∈ ts → digits ∈ ts.filterMap Token.number? :=
    fun digits hd => List.mem_filterMap.2 ⟨_, hd, rfl⟩
  generalize ts.filterMap Token.number? = numbers at hnumbers ⊢
  induction ts generalizing chars with
  | nil => simp at hmem
  | cons t ts ih =>
    refine Segment.of_text_mem_prepend InVocabulary.append ?_ ?_ hmem
    · intro chars hchars
      cases t with
      | word w =>
        obtain rfl := Segment.text.inj hchars
        exact .singleton (t := .word w) trivial
      | number digits =>
        obtain rfl := Segment.text.inj hchars
        exact .singleton (t := .number digits) (hnumbers digits (by simp))
      | name content => cases hchars
      | parameter label => cases hchars
      | verbatim text => exact (hclean (.verbatim text) (by simp)).elim
    · intro chars hchars
      refine ih hchars (fun t ht => hclean t (by simp [ht])) fun digits hd => ?_
      exact hnumbers digits (by simp [hd])

end BoundSql.Sql
