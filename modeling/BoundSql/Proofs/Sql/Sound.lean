import BoundSql.Sql.Segment
import BoundSql.Sql.Token
import Mathlib.Data.List.Chain

/-!
# Sound tokens

The tokens of a statement can be told apart again in its text if two things hold. Every token is
clean: a quoted name holds no quotation mark, a parameter is a colon with a word behind it, and a
number is made of digits and the few marks of numbers. And neighbours are apart: of two tokens that
touch, the first is a word that does not end in a letter or a digit, or the second is a word that
begins with a blank or a punctuation mark.

The main results are that both properties are kept when tokens are put together in the ways in which
statements are built (`Sound.cons`, `Sound.append`, `Sound.joinWith`).
-/

namespace BoundSql.Sql

/-- Whether a word can stand directly behind a name, a parameter or a number. -/
def Word.separates (w : Word) : Bool := w.text.toList.head?.any (· ∈ [' ', ')', '.', ','])

/-- Whether every token can stand directly behind a word. -/
def Word.opens (w : Word) : Bool := !w.text.toList.getLast?.any Text.isAsciiWord

namespace Token

/-- Whether the token can stand directly behind a name, a parameter or a number. -/
def separates : Token → Bool
  | word w => w.separates
  | _ => false

/-- Whether every token can stand directly behind the token. -/
def opens : Token → Bool
  | word w => w.opens
  | _ => false

/-- Two neighbours whose texts do not run into each other. -/
def Apart (a b : Token) : Prop := a.opens ∨ b.separates

end Token

/-- A colon with a word behind it that begins with a letter or an underscore. -/
def IsLabel (s : List Char) : Prop :=
  ∃ c rest, s = ':' :: c :: rest ∧ Segment.isPlaceholderStart c ∧ ∀ x ∈ rest, Text.isAsciiWord x

/-- The characters of numbers. -/
def isNumberChar (c : Char) : Bool := c.isDigit || c ∈ ['+', '-', '.', 'e', 'E']

/-- A text of the characters of numbers in which no two minus signs touch. -/
structure IsPlainNumber (s : List Char) : Prop where
  /-- There is something in the text. -/
  ne_nil : s ≠ []
  /-- All characters are those of numbers. -/
  chars : ∀ c ∈ s, isNumberChar c
  /-- No two minus signs touch, so that no comment begins in the text. -/
  chain : s.IsChain fun a b => ¬(a = '-' ∧ b = '-')

/-- A token that the scanner finds again as it is. A verbatim text can hold anything. -/
def Token.Clean : Token → Prop
  | word _ => True
  | name content => '"' ∉ content.toList
  | parameter label => IsLabel label.toList
  | number digits => IsPlainNumber digits.toList
  | verbatim _ => False

/-- Clean tokens, of which each two neighbours are apart. -/
structure Sound (ts : Tokens) : Prop where
  /-- Every token is clean. -/
  clean : ∀ t ∈ ts, t.Clean
  /-- Neighbours are apart. -/
  apart : ts.IsChain Token.Apart

/-- Tokens that can stand directly behind any others. -/
def Led (ts : Tokens) : Prop := ∀ t ∈ ts.head?, t.separates

/-- No tokens can stand behind any others. -/
@[simp]
theorem led_nil : Led [] := by
  simp [Led]

/-- Tokens are led by their first one. -/
@[simp]
theorem led_cons {t : Token} {ts : Tokens} : Led (t :: ts) ↔ t.separates := by
  simp [Led]

/-- The first of two parts leads both, unless it is empty. -/
theorem Led.append {a b : Tokens} (ha : Led a) (hb : Led b) : Led (a ++ b) := by
  cases a with
  | nil => exact hb
  | cons t a => simpa using ha

namespace Sound

/-- No tokens are sound. -/
@[simp]
theorem nil : Sound [] := ⟨by simp, List.isChain_nil⟩

/-- A clean token alone is sound. -/
theorem singleton {t : Token} (h : t.Clean) : Sound [t] :=
  ⟨by simpa using h, List.isChain_singleton t⟩

/-- Behind the first of sound tokens the others are sound. -/
theorem of_cons {t : Token} {ts : Tokens} (h : Sound (t :: ts)) : Sound ts :=
  ⟨fun u hu => h.clean u (List.mem_cons_of_mem t hu), (List.isChain_cons.1 h.apart).2⟩

/-- A word that lets every token stand behind it can be put before sound tokens. -/
theorem cons {w : Word} {ts : Tokens} (hw : w.opens) (h : Sound ts) : Sound (.word w :: ts) := by
  refine ⟨?_, List.isChain_cons.2 ⟨?_, h.apart⟩⟩
  · intro t ht
    rcases List.mem_cons.1 ht with rfl | ht
    · trivial
    · exact h.clean t ht
  · intro t _
    exact Or.inl hw

/-- Sound tokens can follow others if they are led by a separating word. -/
theorem append {a b : Tokens} (ha : Sound a) (hb : Sound b) (hled : Led b) : Sound (a ++ b) := by
  -- Inside the two parts neighbours are apart; between them the leading word sees to it.
  refine ⟨?_, List.isChain_append.2 ⟨ha.apart, hb.apart, ?_⟩⟩
  · intro t ht
    exact (List.mem_append.1 ht).elim (ha.clean t) (hb.clean t)
  · intro _ _ t ht
    exact Or.inr (hled t ht)

/-- Parts with a word between each two of them are sound if each part is. -/
theorem joinWith {w : Word} {parts : List Tokens} (hopens : w.opens) (hseparates : w.separates)
    (h : ∀ part ∈ parts, Sound part) : Sound (joinWith w parts) := by
  induction parts with
  | nil => exact nil
  | cons part rest ih =>
    have hpart := h part (by simp)
    have hrest := ih fun p hp => h p (by simp [hp])
    cases rest with
    | nil => exact hpart
    | cons next rest => exact hpart.append (hrest.cons hopens) (led_cons.2 hseparates)

end Sound

/-- The text of a token stands before the text of the others. -/
theorem render_cons (t : Token) (ts : Tokens) : render (t :: ts) = t.text ++ render ts := by
  rw [render, List.map_cons, String.join_cons]
  rfl

/-- The texts of two parts stand one behind the other. -/
theorem render_append (ts us : Tokens) : render (ts ++ us) = render ts ++ render us := by
  simp [render]

/-- The text of tokens, character by character. -/
theorem toList_render (ts : Tokens) : (render ts).toList = ts.flatMap fun t => t.text.toList := by
  rw [render, String.toList_join, List.flatMap_map]

/-- The text of a token and others behind it. -/
theorem toList_render_cons (t : Token) (ts : Tokens) :
    (render (t :: ts)).toList = t.text.toList ++ (render ts).toList := by
  rw [toList_render, toList_render, List.flatMap_cons]

/-- The text of parts with a word between them. -/
theorem render_joinWith (w : Word) (parts : List Tokens) :
    render (joinWith w parts) = w.text.intercalate (parts.map render) := by
  fun_induction joinWith w parts with
  | case1 => rfl
  | case2 part => simp
  | case3 part rest hrest ih =>
    obtain ⟨next, rest, rfl⟩ := List.exists_cons_of_ne_nil fun hnil => hrest hnil
    rw [List.map_cons, List.map_cons, String.intercalate_cons_cons, ← List.map_cons, ← ih]
    rw [render_append, render_cons, Token.text, String.append_assoc]

/-- No word is empty. -/
theorem Word.text_ne_nil (w : Word) : w.text.toList ≠ [] := by
  cases w with
  | compare c => cases c <;> decide
  | connect c => cases c <;> decide
  | direction d => cases d <;> decide
  | join k => cases k <;> decide
  | _ => decide

end BoundSql.Sql
