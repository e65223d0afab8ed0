import BoundSql.Proofs.Sql.Numbering
import BoundSql.Proofs.Sql.Opacity
import BoundSql.Proofs.Sql.Vocabulary
import BoundSql.Sql.Literal

/-!
# Segments lose nothing

Every character of a text is in exactly one of its segments, also behind a quotation mark, a comment
or a tag that is never closed. So what only replaces placeholders leaves a text without them alone.

* `Segment.flatMap_source_scan`: the segments of a text make up the text;
* `isPlaceholder_of_segments_eq`: a placeholder goes on as long as it can;
* `Segment.text_nil_not_mem_scan`: no text among the segments is empty.
-/

namespace BoundSql.Sql

namespace Segment

/-- The segments of a text, one after the other, are the text. -/
theorem flatMap_source_scan (before : Option Char) (s : List Char) :
    (scan before s).flatMap source = s := by
  -- The scanner takes a first piece off the text and goes on behind it.
  fun_induction scan before s with
  | case1 => rfl
  | case2 before c rest piece ih =>
    rw [flatMap_prepend fun _ _ => rfl, ih]
    exact source_next_append before c rest

/-- No text among the segments of a text is empty. -/
theorem text_nil_not_mem_scan (before : Option Char) (s : List Char) :
    text [] ∉ scan before s := by
  suffices h : ∀ chars, text chars ∈ scan before s → chars ≠ [] from fun hmem => h [] hmem rfl
  fun_induction scan before s with
  | case1 => simp
  | case2 before c rest piece ih =>
    intro chars hmem
    refine of_text_mem_prepend (P := fun chars => chars ≠ []) ?_ ?_ (ih _) hmem
    · intro a b ha _
      simp [ha]
    · intro chars hpiece hnil
      refine source_ne_nil_next before c rest ?_
      rw [show (next before c rest).1 = text chars from hpiece, hnil, source]

/-- Where nothing is bound a segment is shown as it is. -/
theorem literal_nil (s : Segment) : s.literal [] .ansi = s.source := by
  cases s with
  | quotedName content => simp [literal, NameStyle.wrap, source]
  | _ => rfl

end Segment

/-- The segments of a statement make up its text. -/
theorem flatMap_source_segments (sql : String) :
    (segments sql).flatMap Segment.source = sql.toList :=
  Segment.flatMap_source_scan none sql.toList

/-- A placeholder among the segments is a colon with the longest word behind it. -/
theorem isPlaceholder_of_segments_eq {sql : String} {left right : List Segment} {word : List Char}
    (h : segments sql = left ++ .placeholder word :: right) :
    IsPlaceholder word (right.flatMap Segment.source) := by
  obtain ⟨pieces, hreads, hlocated⟩ := exists_reads_scan none sql.toList
  have hleft : Located Segment.source (.placeholder word) (Segment.scan none sql.toList)
      (left.flatMap Segment.source) := ⟨left, right, h, rfl⟩
  obtain ⟨after, hafter, hword⟩ := hreads.isPlaceholder_of_located ((hlocated _ _).1 hleft)
  -- What follows the placeholder in the text is what the segments behind it make up.
  have htext := flatMap_source_segments sql
  rw [h, hafter, List.flatMap_append, List.flatMap_cons, List.append_assoc,
    List.append_cancel_left_eq, Segment.source, List.append_cancel_left_eq] at htext
  rwa [htext]

/-- A statement that shows no values is shown as it is. -/
theorem literalSql_nil (sql : String) : literalSql sql [] .ansi = sql := by
  rw [literalSql, List.flatMap_congr fun s _ => s.literal_nil, flatMap_source_segments,
    String.ofList_toList]

/-- A statement is left as it is by numbering its placeholders exactly if it has none. -/
theorem positional_eq_self_iff (sql : String) :
    positional sql = ⟨sql, []⟩ ↔ placeholders sql = [] := by
  constructor
  · intro h
    have hnames := congrArg Positional.names h
    rw [positional_names] at hnames
    rw [List.eq_nil_iff_forall_not_mem] at hnames ⊢
    exact fun name hname => hnames name (List.mem_eraseDups.2 hname)
  · intro h
    have hsource : ∀ s ∈ segments sql, s.numbered [] = s.source := by
      intro s hs
      -- A placeholder among the segments would be one of the statement.
      cases s with
      | placeholder chars =>
        have hmem : String.ofList chars ∈ placeholders sql := List.mem_filterMap.2 ⟨_, hs, rfl⟩
        simp [h] at hmem
      | _ => rfl
    have hsql := positional_sql sql
    have hnames := positional_names sql
    rw [h] at hsql hnames
    rw [show List.eraseDups ([] : List String) = [] from rfl, List.flatMap_congr hsource,
      flatMap_source_segments, String.ofList_toList] at hsql
    generalize positional sql = numbered at hsql hnames ⊢
    cases numbered
    simp_all

/-- The scanner loses nothing: the segments of every text make up the text, so that a text is shown
as it is where nothing is bound and is numbered as it is where it has no placeholders. Its
placeholders are colons with the longest words behind them, and no text among the segments is
empty. -/
theorem segments_lossless (sql : String) :
    String.ofList ((segments sql).flatMap Segment.source) = sql ∧
      literalSql sql [] .ansi = sql ∧
      (positional sql = ⟨sql, []⟩ ↔ placeholders sql = []) ∧
      (∀ left word right, segments sql = left ++ .placeholder word :: right →
        IsPlaceholder word (right.flatMap Segment.source)) ∧
      .text [] ∉ segments sql := by
  refine ⟨?source, literalSql_nil sql, positional_eq_self_iff sql, ?placeholder, ?text⟩
  case source => rw [flatMap_source_segments, String.ofList_toList]
  case placeholder => exact fun _ _ _ => isPlaceholder_of_segments_eq
  case text => exact Segment.text_nil_not_mem_scan none sql.toList

/-- A tag that is never closed hides the second placeholder, but no character is lost. -/
example : (segments "a = :x AND $b$ :y").flatMap Segment.source = "a = :x AND $b$ :y".toList := by
  decide +kernel

end BoundSql.Sql
