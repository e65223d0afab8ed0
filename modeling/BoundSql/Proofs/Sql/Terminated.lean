import BoundSql.Proofs.Sql.Opacity
import BoundSql.Proofs.Sql.Quoted
import BoundSql.Sql.Literal
import Mathlib.Algebra.Group.Nat.Even
import Mathlib.Data.List.Induction

/-!
# Quoted names that are closed

The segments of a text are those of its pieces: a region between quotation marks is a quoted name,
and every other region is text. Whether a region is closed is thereby seen from its last character,
and this is right unless the region goes to the end of the text and a doubled mark stands there. So
only names that are closed are found (`OnlyClosed`), with this exception.

* `Quoted.paired`: the marks in a quoted name stand in pairs, up to the closing mark or to the end;
* `exists_reads_joinedSegments`: the segments of a text are those of its pieces;
* `onlyClosed_iff`: when only names that are closed are found;
* `Segment.literal_of_mem`: where another one is found, the text is shown as it is all the same.
-/

namespace BoundSql.Sql

/-- Quotation marks stand in pairs: each longest run of them has an even length. -/
def Paired (s : List Char) : Prop :=
  ∀ before n after, s = before ++ List.replicate n '"' ++ after →
    before.getLast? ≠ some '"' → after.head? ≠ some '"' → Even n

namespace Paired

variable {c : Char} {s : List Char}

theorem nil : Paired [] := by
  intro before n after h _ _
  obtain rfl : n = 0 := by simp_all
  exact Even.zero

/-- Another character in front belongs to no run of quotation marks. -/
theorem cons (hc : c ≠ '"') (h : Paired s) : Paired (c :: s) := by
  intro before n after heq hbefore hafter
  cases before with
  | nil =>
    cases n with
    | zero => exact Even.zero
    | succ n => exact absurd (List.cons_eq_cons.1 heq).1 hc
  | cons x before =>
    obtain ⟨-, rfl⟩ := List.cons_eq_cons.1 heq
    refine h before n after rfl (fun hlast => hbefore ?_) hafter
    simp [List.getLast?_cons, hlast]

/-- A pair in front makes the first run longer by two. -/
theorem doubled (h : Paired s) : Paired ('"' :: '"' :: s) := by
  intro before n after heq hbefore hafter
  match before, n with
  | [], 0 =>
    exact Even.zero
  | [], 1 =>
    obtain ⟨-, rfl⟩ := List.cons_eq_cons.1 heq
    exact absurd rfl hafter
  | [], n + 2 =>
    obtain rfl : s = List.replicate n '"' ++ after := by simpa [List.replicate_succ] using heq
    have hn := h [] n after rfl (by simp) hafter
    exact hn.add ⟨1, rfl⟩
  | [x], n =>
    obtain ⟨rfl, -⟩ := List.cons_eq_cons.1 heq
    exact absurd rfl hbefore
  | x :: y :: before, n =>
    obtain ⟨rfl, rfl, rfl⟩ : x = '"' ∧ y = '"' ∧ s = before ++ List.replicate n '"' ++ after := by
      simpa [eq_comm] using heq
    refine h before n after rfl (fun hlast => hbefore ?_) hafter
    simp [List.getLast?_cons, hlast]

/-- A text ends with a longest run of quotation marks, which may be empty. -/
theorem exists_last_run (s : List Char) :
    ∃ before n, s = before ++ List.replicate n '"' ∧ before.getLast? ≠ some '"' := by
  induction s using List.reverseRecOn with
  | nil => exact ⟨[], 0, rfl, by simp⟩
  | append_singleton s c ih =>
    by_cases hc : c = '"'
    · obtain ⟨before, n, rfl, hbefore⟩ := ih
      refine ⟨before, n + 1, ?_, hbefore⟩
      rw [hc, List.append_assoc, List.replicate_succ']
    · exact ⟨s ++ [c], 0, by simp, by simpa using hc⟩

/-- One more mark at the end makes the last run odd. -/
theorem not_concat (h : Paired s) : ¬Paired (s ++ ['"']) := by
  intro hlonger
  obtain ⟨before, n, rfl, hbefore⟩ := exists_last_run s
  have hn : Even n := h before n [] (by simp) hbefore (by simp)
  have hsucc : Even (n + 1) :=
    hlonger before (n + 1) [] (by simp [List.replicate_succ']) hbefore (by simp)
  exact Nat.even_add_one.1 hsucc hn

end Paired

/-- Behind an opening mark all further ones stand in pairs and the text ends, or they do so up to
the closing mark. -/
theorem Quoted.paired {body after : List Char} (h : Quoted false '"' body after) :
    (Paired body ∧ after = []) ∨ ∃ content, body = content ++ ['"'] ∧ Paired content := by
  induction h with
  | closed => exact .inr ⟨[], rfl, .nil⟩
  | doubled _ ih =>
    rcases ih with ⟨hbody, rfl⟩ | ⟨content, rfl, hcontent⟩
    · exact .inl ⟨hbody.doubled, rfl⟩
    · exact .inr ⟨_, rfl, hcontent.doubled⟩
  | escaped he => cases he
  | char hc _ _ ih =>
    rcases ih with ⟨hbody, rfl⟩ | ⟨content, rfl, hcontent⟩
    · exact .inl ⟨hbody.cons hc, rfl⟩
    · exact .inr ⟨_, rfl, hcontent.cons hc⟩
  | unclosed => exact .inl ⟨.nil, rfl⟩
  | cut he => cases he

/-! ### The segments of the pieces -/

/-- The segment that a piece of a text is found as. -/
def Piece.segment : Piece → Segment
  | region chars =>
    -- A quoted name is told from its first and its last character, which must not be the same one.
    match chars.dropLast with
    | '"' :: content => if chars.getLast? = some '"' then .quotedName content else .text chars
    | _ => .text chars
  | cast => .text [':', ':']
  | placeholder word => .placeholder word
  | plain c => .text [c]

variable {before : Option Char} {c : Char} {p : Piece} {s after content : List Char}

/-- What begins and ends with a quotation mark is found as a quoted name. -/
theorem next_eq_quotedName_iff :
    (Segment.next before c s).1 = .quotedName content ↔
      (Segment.next before c s).1.source = '"' :: content ++ ['"'] := by
  constructor
  · intro h
    rw [h, Segment.source]
  · intro h
    have htext := Segment.source_next_append before c s
    rw [h] at htext
    obtain ⟨rfl, -⟩ := List.cons_eq_cons.1 htext
    have hnext : Segment.next before '"' s =
        let run := Segment.quotedRun '"' s
        if run.1.getLast? = some '"' then (.quotedName run.1.dropLast, run.2)
        else (.text ('"' :: run.1), run.2) := by
      simp [Segment.next]
    rw [hnext] at h ⊢
    dsimp only at h ⊢
    split at h
    · next hlast =>
      obtain ⟨run, hrun⟩ := List.getLast?_eq_some_iff.1 hlast
      rw [if_pos hlast]
      simpa [Segment.source, hrun] using h
    · next hlast =>
      rw [Segment.source, List.cons_append, List.cons_eq_cons] at h
      exact absurd (by simp [h.2]) hlast

/-- A piece is found as a quoted name if it is a region between quotation marks. -/
theorem Piece.segment_eq_quotedName_iff :
    p.segment = .quotedName content ↔ p = .region ('"' :: content ++ ['"']) := by
  constructor
  · intro h
    cases p with
    | region chars =>
      rw [segment] at h
      split at h
      · next found hfound =>
        split at h
        · next hlast =>
          obtain ⟨t, rfl⟩ := List.getLast?_eq_some_iff.1 hlast
          rw [List.dropLast_concat] at hfound
          obtain rfl : found = content := by simpa using h
          rw [hfound]
        · cases h
      · cases h
    | cast | placeholder | plain => cases h
  · rintro rfl
    have hdrop : ('"' :: content ++ ['"']).dropLast = '"' :: content := List.dropLast_concat
    have hlast : ('"' :: content ++ ['"']).getLast? = some '"' := List.getLast?_concat
    rw [segment, hdrop, hlast]
    rfl

/-- The characters of a piece are those of its segment. -/
theorem Piece.source_segment (p : Piece) : p.segment.source = p.chars := by
  cases hsegment : p.segment with
  | quotedName content => rw [segment_eq_quotedName_iff.1 hsegment]; rfl
  | text chars | placeholder chars =>
    cases p with
    | region t =>
      rw [segment] at hsegment
      split at hsegment
      · split at hsegment <;> simp_all [Segment.source, Piece.chars]
      · simp_all [Segment.source, Piece.chars]
    | _ => simp_all [segment, Segment.source, Piece.chars]

/-- A piece that is no placeholder is not found as one. -/
theorem Piece.eq_placeholder_of_segment {word : List Char} (h : p.segment = .placeholder word) :
    p = .placeholder word := by
  cases p with
  | region chars =>
    rw [segment] at h
    split at h
    · split at h <;> cases h
    · cases h
  | placeholder word' => rw [Segment.placeholder.inj h]
  | cast | plain => cases h

/-- A region that does not end with a quotation mark is found as text. -/
theorem Piece.segment_of_getLast? {body : List Char} (h : body.getLast? ≠ some '"') :
    (region ('"' :: body)).segment = .text ('"' :: body) := by
  have hsource := source_segment (region ('"' :: body))
  cases hsegment : (region ('"' :: body)).segment with
  | text chars =>
    rw [hsegment] at hsource
    rw [show chars = '"' :: body from hsource]
  | placeholder word => cases eq_placeholder_of_segment hsegment
  | quotedName content =>
    obtain rfl : body = content ++ ['"'] := by simpa using segment_eq_quotedName_iff.1 hsegment
    exact absurd List.getLast?_concat h

/-- The first segment of a text is that of its first piece. -/
theorem next_eq_segment (before : Option Char) (c : Char) (s : List Char) :
    ∃ p, First .flat before p (Segment.next before c s).2 ∧
      (Segment.next before c s).1 = p.segment := by
  obtain ⟨p, hp, hchars, hword⟩ := takes_next before c s
  refine ⟨p, hp, ?_⟩
  have hsource : p.segment.source = (Segment.next before c s).1.source :=
    p.source_segment.trans hchars
  cases hnext : (Segment.next before c s).1 with
  | placeholder word => rw [(hword word).1 hnext, Piece.segment]
  | quotedName content =>
    -- No other piece begins and ends with a quotation mark.
    have hquoted := hchars.trans (next_eq_quotedName_iff.1 hnext)
    refine (Piece.segment_eq_quotedName_iff.2 ?_).symm
    cases p with
    | region chars => rw [← hquoted, Piece.chars]
    | placeholder word => cases hnext.symm.trans ((hword word).2 rfl)
    | cast | plain => simp [Piece.chars] at hquoted
  | text chars =>
    rw [hnext] at hsource
    cases hsegment : p.segment with
    | text chars' =>
      rw [hsegment] at hsource
      rw [Segment.text.injEq]
      exact hsource.symm
    | placeholder word =>
      have hfound := (hword word).2 (Piece.eq_placeholder_of_segment hsegment)
      cases hnext.symm.trans hfound
    | quotedName content =>
      rw [hsegment] at hsource
      have hfound := next_eq_quotedName_iff.2 ((congrArg _ hnext).trans hsource.symm)
      cases hnext.symm.trans hfound

/-- The segments of pieces, where texts next to each other are one. -/
def joinedSegments (pieces : List Piece) : List Segment :=
  pieces.foldr (fun p rest => p.segment.prepend rest) []

theorem joinedSegments_cons (p : Piece) (pieces : List Piece) :
    joinedSegments (p :: pieces) = p.segment.prepend (joinedSegments pieces) := rfl

/-- The segments of a text are those of its pieces. -/
theorem exists_reads_joinedSegments (before : Option Char) (s : List Char) :
    ∃ pieces, Reads .flat before s pieces ∧ Segment.scan before s = joinedSegments pieces := by
  fun_induction Segment.scan before s with
  | case1 before => exact ⟨[], .nil, rfl⟩
  | case2 before c s piece ih =>
    obtain ⟨pieces, hpieces, hscan⟩ := ih
    obtain ⟨p, hp, hsegment⟩ := next_eq_segment before c s
    have hchars : p.chars = piece.1.source := by
      rw [← p.source_segment, ← hsegment]
    refine ⟨p :: pieces, ?_, ?_⟩
    · rw [← Segment.source_next_append before c s]
      change Reads .flat before (piece.1.source ++ piece.2) (p :: pieces)
      rw [← hchars] at hpieces ⊢
      exact .cons hp hpieces
    · rw [hscan, joinedSegments_cons, ← hsegment]

/-- A quoted name is joined with nothing. -/
theorem quotedName_mem_prepend {segment : Segment} {rest : List Segment} :
    .quotedName content ∈ segment.prepend rest ↔
      segment = .quotedName content ∨ .quotedName content ∈ rest := by
  rcases segment with _ | _ | _ <;> rcases rest with _ | ⟨_ | _ | _, rest⟩ <;>
    simp [Segment.prepend, eq_comm]

/-- The quoted names among the segments are the regions between quotation marks. -/
theorem quotedName_mem_joinedSegments {pieces : List Piece} :
    .quotedName content ∈ joinedSegments pieces ↔ .region ('"' :: content ++ ['"']) ∈ pieces := by
  induction pieces with
  | nil => simp [joinedSegments]
  | cons p pieces ih =>
    rw [joinedSegments_cons, quotedName_mem_prepend, Piece.segment_eq_quotedName_iff, ih,
      List.mem_cons, eq_comm]

/-- Text at the end stays at the end, and text before it is joined with it. -/
theorem joinedSegments_concat {pieces : List Piece} {chars : List Char}
    (h : p.segment = .text chars) :
    ∃ segments t, joinedSegments (pieces ++ [p]) = segments ++ [.text (t ++ chars)] := by
  induction pieces with
  | nil => exact ⟨[], [], by simp [joinedSegments, h, Segment.prepend]⟩
  | cons q pieces ih =>
    obtain ⟨segments, t, hsegments⟩ := ih
    rw [List.cons_append, joinedSegments_cons, hsegments]
    cases segments with
    | nil =>
      cases q.segment with
      | text a => exact ⟨[], a ++ t, by simp [Segment.prepend]⟩
      | placeholder | quotedName => exact ⟨[_], t, rfl⟩
    | cons x segments =>
      cases q.segment with
      | text a =>
        cases x with
        | text b => exact ⟨.text (a ++ b) :: segments, t, rfl⟩
        | placeholder | quotedName => exact ⟨.text a :: _ :: segments, t, rfl⟩
      | placeholder | quotedName => exact ⟨_ :: x :: segments, t, rfl⟩

/-! ### Names that are never closed -/

/-- A piece of a text stands behind some others and before the rest of the text. -/
theorem Reads.exists_first {d : Dialect} {left right : List Piece}
    (h : Reads d before s (left ++ p :: right)) :
    ∃ last after, First d last p after ∧ Reads d p.chars.getLast? after right := by
  induction left generalizing before s with
  | nil =>
    cases h with
    | cons hp hrest => exact ⟨_, _, hp, hrest⟩
  | cons q left ih =>
    cases h with
    | cons _ hrest => exact ih hrest

/-- What begins with a quotation mark is a quoted name. -/
theorem Region.quoted {d : Dialect} {body : List Char} (h : Region d before ('"' :: body) after) :
    Quoted false '"' body after := by
  generalize htext : '"' :: body = chars at h
  cases h with
  | name h =>
    obtain ⟨-, rfl⟩ := List.cons_eq_cons.1 htext
    exact h
  | escape hc => rcases hc with rfl | rfl <;> simp at htext
  | _ => simp at htext

/-- The text ends in a quotation mark that opens a name, with `body` behind it, in which no mark
closes the name. -/
def Unclosed (s body : List Char) : Prop :=
  Paired body ∧ ∃ pieces, Reads .flat none s (pieces ++ [.region ('"' :: body)])

/-- Only names that are closed are found: the marks in each of them stand in pairs, and a text with
a mark that opens a name and is never closed ends in text, of which this mark and all behind it are
a part. -/
structure OnlyClosed (sql : String) : Prop where
  /-- The marks in quoted names stand in pairs. -/
  paired : ∀ content, .quotedName content ∈ segments sql → Paired content
  /-- An opening mark that is never closed is text. -/
  text : ∀ body, Unclosed sql.toList body →
    ∃ before t, segments sql = before ++ [.text (t ++ '"' :: body)]

/-- Only names that are closed are found unless a name is never closed and ends in a doubled mark,
of which the second one is taken for the closing mark. -/
theorem onlyClosed_iff (sql : String) :
    OnlyClosed sql ↔ ∀ body, Unclosed sql.toList body → body.getLast? ≠ some '"' := by
  obtain ⟨pieces, hreads, hscan⟩ := exists_reads_joinedSegments none sql.toList
  have hsegments : segments sql = joinedSegments pieces := hscan
  constructor
  · rintro h body ⟨hbody, left, hleft⟩ hlast
    obtain ⟨content, rfl⟩ := List.getLast?_eq_some_iff.1 hlast
    obtain rfl := hleft.unique hreads
    refine (h.paired content ?_).not_concat hbody
    rw [hsegments, quotedName_mem_joinedSegments]
    simp
  · intro h
    refine ⟨fun content hmem => ?_, ?_⟩
    · rw [hsegments, quotedName_mem_joinedSegments] at hmem
      obtain ⟨left, right, rfl⟩ := List.append_of_mem hmem
      obtain ⟨last, after, hp, hrest⟩ := hreads.exists_first
      have hquoted : Quoted false '"' (content ++ ['"']) after := by
        cases hp with
        | opens hp => cases hp with | region hp => exact hp.quoted
      rcases hquoted.paired with ⟨hpaired, rfl⟩ | ⟨content', heq, hcontent'⟩
      · -- Nothing follows a name that is never closed.
        obtain rfl := hrest.unique .nil
        exact absurd List.getLast?_concat (h _ ⟨hpaired, left, hreads⟩)
      · obtain ⟨rfl, -⟩ := List.append_inj' heq rfl
        exact hcontent'
    · rintro body ⟨hbody, left, hleft⟩
      have hlast := h body ⟨hbody, left, hleft⟩
      obtain rfl := hleft.unique hreads
      obtain ⟨before, t, hjoined⟩ := joinedSegments_concat (Piece.segment_of_getLast? hlast)
      exact ⟨before, t, hsegments.trans hjoined⟩

/-- A name that is never closed is found because a doubled mark ends the text. -/
theorem not_onlyClosed_doubled : ¬OnlyClosed "SELECT \"abc\"\"" := by
  intro h
  have hfound : .quotedName "abc\"".toList ∈ segments "SELECT \"abc\"\"" := by decide +kernel
  -- One mark stands behind three letters.
  have hodd : Even 1 := h.paired _ hfound "abc".toList 1 [] rfl (by decide) (by decide)
  exact absurd hodd (by decide)

/-- Without a doubled mark at the end it is text. -/
example : segments "SELECT \"abc" = [.text "SELECT \"abc".toList] := by decide +kernel

/-- A quoted name with a quotation mark in it is shown as it is written, in whatever style. -/
theorem Segment.literal_of_mem (h : '"' ∈ content) (binds : BindMap) (style : NameStyle) :
    (quotedName content).literal binds style = (quotedName content).source := by
  have hname : isName content = false :=
    Bool.eq_false_iff.2 fun hname => quote_not_mem_of_isName hname h
  simp [literal, hname, NameStyle.wrap, source]

end BoundSql.Sql
