import BoundSql.Proofs.Fragment.Expansion
import BoundSql.Proofs.Text.Pattern

/-!
# Expanding a template replaces matches of a pattern

The markers of a template are documented by a pattern (`markerPattern`): perhaps a quote and angle
brackets, perhaps a keyword with blanks behind it, a name between angle brackets, and perhaps the
same quote again with no comma before it. The pattern is matched from left to right with
backtracking, while the scanner looks for the angle brackets first and then reads backwards what
precedes them. Both find the same markers (`render_expand`).

* `match?_markerPattern`: what the pattern matches where a marker with its opening begins;
* `match?_eq_none`: that it matches nowhere before;
* `render_expand`: that the expanded template is the template with each match replaced.
-/

namespace BoundSql.Fragment

open Text (Match Pattern)

/-! ### The documented pattern -/

/-- The parts of a marker that its replacement depends on. -/
inductive MarkerPart where
  /-- The quote before the marker. -/
  | quote
  /-- The quote with the angle brackets behind it. -/
  | lead
  /-- The keyword. -/
  | keyword
  /-- The name. -/
  | name
  /-- What stands between the marker and the closing quote, and this quote. -/
  | closing
  deriving DecidableEq

/-- The keywords that make a marker a table, in the order in which the pattern has them. -/
def tableKeywords : List String :=
  ["FROM", "TABLE", "INTO", "UPDATE", "JOIN", "TABLE IF EXISTS", "TABLES LIKE"]

/-- A quote, and angle brackets behind it. -/
def leadPattern : Pattern MarkerPart :=
  .part .lead (.seq (.part .quote (.char isMarkerQuote)) (.most (· = '<')))

/-- A keyword, and blanks behind it. -/
def gapPattern : Pattern MarkerPart :=
  .seq (.part .keyword (.oneOf tableKeywords)) (.most Unicode.isBlank)

/-- A name. -/
def namePattern : Pattern MarkerPart := .seq (.char Sql.isNameStart) (.most Sql.isNameChar)

/-- A name that may be qualified by another one. -/
def qualifiedPattern : Pattern MarkerPart :=
  .seq namePattern (.optional (.seq (.oneOf ["."]) namePattern))

/-- A marker with what may precede it. -/
def openingPattern : Pattern MarkerPart :=
  .seq (.optional leadPattern) <| .seq (.optional gapPattern) <|
    .seq (.oneOf ["<"]) <| .seq (.part .name qualifiedPattern) (.oneOf [">"])

/-- As little as possible without a comma, and then the quote that stood before the marker. -/
def closingPattern : Pattern MarkerPart :=
  .part .closing (.seq (.least (· ≠ ',')) (.again .quote))

/-- A marker in a template. -/
def markerPattern : Pattern MarkerPart := .seq openingPattern (.optional closingPattern)

/-- The text of a part of a marker, which is empty if the marker does not have it. -/
def partText (m : Match MarkerPart) (part : MarkerPart) : String :=
  String.ofList ((m.parts.get? part).getD [])

/-- What a marker is replaced by: a closed one by itself, one with a keyword by the quoted table,
any other by the quoted column. -/
def replacement (q : Sql.Quoter) (m : Match MarkerPart) : Except Error String :=
  match m.parts.get? .closing, m.parts.get? .keyword with
  | some _, _ => .ok (String.ofList m.chars)
  | none, some keyword => (q.table (partText m .name)).map fun table =>
      partText m .lead ++ String.ofList keyword ++ " " ++ Sql.render table
  | none, none => (q.column (partText m .name)).map fun column =>
      partText m .lead ++ Sql.render column

/-- A text that was cut into matches and other characters, with the matches replaced. -/
def replaceEach (q : Sql.Quoter) : List (Char ⊕ Match MarkerPart) → Except Error String
  | [] => .ok ""
  | .inl c :: rest => (replaceEach q rest).map fun text => String.singleton c ++ text
  | .inr m :: rest =>
    match replacement q m with
    | .error e => .error e
    | .ok new => (replaceEach q rest).map fun text => new ++ text

/-- A template with the leftmost matches of the pattern replaced. -/
def replaceMarkers (q : Sql.Quoter) (template : String) : Except Error String :=
  replaceEach q (markerPattern.cut template.toList)

/-- Whether the name of a marker is replaced and the quoter rejects it. -/
def IsRejected (q : Sql.Quoter) (m : Match MarkerPart) : Prop :=
  m.parts.get? .closing = none ∧
    if (m.parts.get? .keyword).isSome then (q.table (partText m .name)).isOk = false
    else (q.column (partText m .name)).isOk = false

/-! ### What the pattern matches -/

variable {s : List Char} {m : Match MarkerPart} {parts : Keyed MarkerPart (List Char)}

/-- The keywords of the pattern are those of the scanner. -/
theorem mem_tableKeywords {word : String} :
    word ∈ tableKeywords ↔ ∃ keyword : TableKeyword, keyword.text = word := by
  constructor
  · intro h
    simp only [tableKeywords, List.mem_cons, List.not_mem_nil, or_false] at h
    rcases h with rfl | rfl | rfl | rfl | rfl | rfl | rfl
    · exact ⟨.source, rfl⟩
    · exact ⟨.table, rfl⟩
    · exact ⟨.into, rfl⟩
    · exact ⟨.update, rfl⟩
    · exact ⟨.join, rfl⟩
    · exact ⟨.tableIfExists, rfl⟩
    · exact ⟨.tablesLike, rfl⟩
  · rintro ⟨keyword, rfl⟩
    cases keyword <;> decide

/-- The names that the pattern matches. -/
theorem mem_namePattern :
    m ∈ namePattern.readings parts s ↔
      ∃ name rest, Sql.isName name ∧ s = name ++ rest ∧ m = ⟨name, parts, rest⟩ := by
  simp only [namePattern, Pattern.mem_readings_seq, Pattern.mem_readings_char,
    Pattern.mem_readings_most]
  constructor
  · rintro ⟨_, ⟨c, _, rfl, hc, rfl⟩, _, ⟨run, rest, rfl, hrun, rfl⟩, rfl⟩
    exact ⟨c :: run, rest, by simpa [Sql.isName, hc] using hrun, rfl, rfl⟩
  · rintro ⟨_ | ⟨c, run⟩, rest, hname, rfl, rfl⟩
    · simp [Sql.isName] at hname
    · simp only [Sql.isName, Bool.and_eq_true, List.all_eq_true] at hname
      exact ⟨_, ⟨c, run ++ rest, rfl, hname.1, rfl⟩, _, ⟨run, rest, rfl, hname.2, rfl⟩, rfl⟩

/-- The qualified names that the pattern matches. -/
theorem mem_qualifiedPattern :
    m ∈ qualifiedPattern.readings parts s ↔
      ∃ name rest, IsQualified name ∧ s = name ++ rest ∧ m = ⟨name, parts, rest⟩ := by
  simp only [qualifiedPattern, Pattern.mem_readings_seq, Pattern.mem_readings_optional,
    Pattern.mem_readings_oneOf, mem_namePattern, List.mem_singleton, exists_eq_left]
  constructor
  · rintro ⟨_, ⟨name, t, hname, rfl, rfl⟩, _,
      ⟨_, ⟨u, rfl, rfl⟩, _, ⟨column, rest, hcolumn, rfl, rfl⟩, rfl⟩ | rfl, rfl⟩
    · exact ⟨name ++ '.' :: column, rest, .inr ⟨name, column, rfl, hname, hcolumn⟩, by simp, rfl⟩
    · exact ⟨name, t, .inl hname, rfl, by simp⟩
  · rintro ⟨name, rest, hname | ⟨table, column, rfl, htable, hcolumn⟩, rfl, rfl⟩
    · exact ⟨_, ⟨name, rest, hname, rfl, rfl⟩, _, .inr rfl, by simp⟩
    · exact ⟨_, ⟨table, '.' :: (column ++ rest), htable, by simp, rfl⟩, _,
        .inl ⟨_, ⟨column ++ rest, rfl, rfl⟩, _, ⟨column, rest, hcolumn, rfl, rfl⟩, rfl⟩, rfl⟩

/-- What is remembered of a lead. -/
def putLead (quote : Option Char) (lead : List Char) (parts : Keyed MarkerPart (List Char)) :
    Keyed MarkerPart (List Char) :=
  match quote with
  | none => parts
  | some q => (parts.put .quote [q]).put .lead lead

/-- What is remembered of a gap. -/
def putGap (keyword : Option TableKeyword) (parts : Keyed MarkerPart (List Char)) :
    Keyed MarkerPart (List Char) :=
  match keyword with
  | none => parts
  | some k => parts.put .keyword k.text.toList

/-- The leads that the pattern matches. -/
theorem mem_leadPattern :
    m ∈ (Pattern.optional leadPattern).readings parts s ↔
      ∃ quote lead rest, IsLead quote lead ∧ s = lead ++ rest ∧
        m = ⟨lead, putLead quote lead parts, rest⟩ := by
  simp only [leadPattern, Pattern.mem_readings_optional, Pattern.mem_readings_part,
    Pattern.mem_readings_seq, Pattern.mem_readings_char, Pattern.mem_readings_most]
  constructor
  · rintro (⟨_, ⟨_, ⟨_, ⟨c, t, rfl, hc, rfl⟩, rfl⟩, _, ⟨run, rest, rfl, hrun, rfl⟩, rfl⟩, rfl⟩ |
      rfl)
    · obtain ⟨n, rfl⟩ : ∃ n, run = List.replicate n '<' :=
        ⟨_, List.eq_replicate_of_mem fun c hc => by simpa using hrun c hc⟩
      exact ⟨some c, _, rest, .quoted hc n, rfl, rfl⟩
    · exact ⟨none, [], s, .none, rfl, rfl⟩
  · rintro ⟨quote, lead, rest, hlead, rfl, rfl⟩
    cases hlead with
    | none => exact .inr rfl
    | @quoted q hq n =>
      exact .inl ⟨_, ⟨_, ⟨_, ⟨q, List.replicate n '<' ++ rest, rfl, hq, rfl⟩, rfl⟩, _,
        ⟨List.replicate n '<', rest, rfl, by simp, rfl⟩, rfl⟩, rfl⟩

/-- The gaps that the pattern matches. -/
theorem mem_gapPattern :
    m ∈ (Pattern.optional gapPattern).readings parts s ↔
      ∃ keyword gap rest, IsGap keyword gap ∧ s = gap ++ rest ∧
        m = ⟨gap, putGap keyword parts, rest⟩ := by
  simp only [gapPattern, Pattern.mem_readings_optional, Pattern.mem_readings_seq,
    Pattern.mem_readings_part, Pattern.mem_readings_oneOf, Pattern.mem_readings_most,
    mem_tableKeywords]
  constructor
  · rintro (⟨_, ⟨_, ⟨_, ⟨k, rfl⟩, t, rfl, rfl⟩, rfl⟩, _, ⟨run, rest, rfl, hrun, rfl⟩, rfl⟩ | rfl)
    · exact ⟨some k, _, rest, .keyword k hrun, by simp, rfl⟩
    · exact ⟨none, [], s, .none, rfl, rfl⟩
  · rintro ⟨keyword, gap, rest, hgap, rfl, rfl⟩
    cases hgap with
    | none => exact .inr rfl
    | @keyword k blanks hblanks =>
      exact .inl ⟨_, ⟨_, ⟨_, ⟨k, rfl⟩, blanks ++ rest, by simp, rfl⟩, rfl⟩, _,
        ⟨blanks, rest, rfl, hblanks, rfl⟩, rfl⟩

/-- The match of a marker behind an opening, before a closing quote is looked for. -/
def Opening.found (o : Opening) (name after : List Char) : Match MarkerPart where
  chars := o.lead ++ (o.gap ++ '<' :: (name ++ ['>']))
  parts := (putGap o.keyword (putLead o.quote o.lead [])).put .name name
  rest := after

/-- The openings with a marker that the pattern matches. -/
theorem mem_openingPattern :
    m ∈ openingPattern.readings [] s ↔
      ∃ (o : Opening) (name after : List Char), o.text = [] ∧ o.Fits ∧ IsQualified name ∧
        s = o.lead ++ o.gap ++ '<' :: (name ++ '>' :: after) ∧ m = o.found name after := by
  simp only [openingPattern, Pattern.mem_readings_seq, Pattern.mem_readings_part,
    Pattern.mem_readings_oneOf, mem_leadPattern, mem_gapPattern, mem_qualifiedPattern,
    List.mem_singleton, exists_eq_left]
  constructor
  · rintro ⟨_, ⟨quote, lead, _, hlead, rfl, rfl⟩, _, ⟨_, ⟨keyword, gap, _, hgap, rfl, rfl⟩, _,
      ⟨_, ⟨_, rfl, rfl⟩, _, ⟨_, ⟨_, ⟨name, _, hname, rfl, rfl⟩, rfl⟩, _, ⟨after, rfl, rfl⟩, rfl⟩,
        rfl⟩, rfl⟩, rfl⟩
    exact ⟨⟨[], lead, quote, keyword, gap⟩, name, after, rfl, ⟨hlead, hgap⟩, hname, by simp, rfl⟩
  · rintro ⟨⟨_, lead, quote, keyword, gap⟩, name, after, rfl, ⟨hlead, hgap⟩, hname, rfl, rfl⟩
    refine ⟨_, ⟨quote, lead, gap ++ '<' :: (name ++ '>' :: after), hlead, by simp, rfl⟩, _,
      ⟨_, ⟨keyword, gap, '<' :: (name ++ '>' :: after), hgap, rfl, rfl⟩, _,
        ⟨_, ⟨name ++ '>' :: after, rfl, rfl⟩, _,
          ⟨_, ⟨_, ⟨name, '>' :: after, hname, rfl, rfl⟩, rfl⟩, _, ⟨after, rfl, rfl⟩, rfl⟩, rfl⟩,
        rfl⟩, rfl⟩

/-! ### What the pattern matches first -/

/-- A text begins with at most one opening that a marker follows. -/
theorem Opening.unique_found {o o' : Opening} {name after name' after' : List Char}
    (ht : o.text = []) (ht' : o'.text = []) (ho : o.Fits) (ho' : o'.Fits)
    (hname : IsQualified name) (hname' : IsQualified name')
    (h : o.lead ++ o.gap ++ '<' :: (name ++ '>' :: after) =
      o'.lead ++ o'.gap ++ '<' :: (name' ++ '>' :: after')) :
    o' = o ∧ name' = name ∧ after' = after := by
  have hunmarked := unmarked_of_not_mem (close_not_mem ho.lead ho.gap)
    (blocks_bracket (name ++ '>' :: after))
  obtain ⟨heq, hrest⟩ := hunmarked.eq_append (a := []) (readMarker?_eq_some_iff.2 ⟨hname, rfl⟩)
    (close_not_mem ho'.lead ho'.gap) hname' h (Nat.zero_le _)
  have hsource : o'.source = o.source := by simpa [source, ht, ht'] using heq.symm
  -- Both are the opening that is read from the end of the text before the marker.
  have hfound := ofReversed_longest ho
  have hfound' := ofReversed_longest ho'
  rw [ht, List.length_nil] at hfound
  rw [ht', List.length_nil, hsource] at hfound'
  refine ⟨?_, hrest⟩
  rw [← hfound.2 (Nat.le_zero.1 hfound.1), hfound'.2 (Nat.le_zero.1 hfound'.1)]

/-- The pattern finds the closing quote that the scanner finds. -/
theorem head?_closing {q : Char} (hquote : parts.get? .quote = some [q]) (s : List Char) :
    ((Pattern.seq (.least (· ≠ ',')) (.again .quote)).readings parts s).head? =
      (readClosing? (some q) s).map fun closing => ⟨closing.1, parts, closing.2⟩ := by
  induction s with
  | nil => simp [Pattern.readings, Text.runs, hquote, Text.dropPrefix?, readClosing?]
  | cons c s ih =>
    have hagain : (Pattern.readings (.again .quote) parts (c :: s)).head? =
        if c = q then some ⟨[q], parts, s⟩ else none := by
      rw [Pattern.readings, hquote]
      by_cases hc : c = q
      · simp [Text.dropPrefix?, hc]
      · simp [Text.dropPrefix?, hc, Ne.symm hc]
    rw [Pattern.head?_least_seq_cons, hagain, ih, readClosing?_cons]
    by_cases hq : c = q
    · simp [hq]
    by_cases hcomma : c = ','
    · simp [hcomma, hcomma ▸ hq]
    · simp [hq, hcomma, Function.comp_def]

/-- A marker is closed where the scanner closes it, and without a quote it is not. -/
theorem head?_closingPattern {quote : Option Char}
    (hquote : parts.get? .quote = quote.map fun q => [q]) (s : List Char) :
    (closingPattern.readings parts s).head? =
      (readClosing? quote s).map fun closing =>
        ⟨closing.1, parts.put .closing closing.1, closing.2⟩ := by
  rw [closingPattern, Pattern.readings, List.head?_map]
  cases quote with
  | none =>
    have hnil : (Pattern.seq (.least (· ≠ ',')) (.again .quote)).readings parts s = [] := by
      rw [List.eq_nil_iff_forall_not_mem]
      intro m hm
      obtain ⟨m₁, hm₁, m₂, hm₂, -⟩ := Pattern.mem_readings_seq.1 hm
      obtain ⟨run, -, rfl⟩ := List.mem_map.1 hm₁
      simp [Pattern.readings, hquote] at hm₂
    rw [hnil]
    rfl
  | some q =>
    rw [head?_closing hquote, Option.map_map]
    rfl

namespace Opening

variable {o : Opening}

/-- The parts that are remembered of a marker and its opening. -/
theorem found_parts (ho : o.Fits) (name after : List Char) :
    (o.found name after).parts.get? .quote = o.quote.map (fun q => [q]) ∧
      ((o.found name after).parts.get? .lead).getD [] = o.lead ∧
      (o.found name after).parts.get? .keyword = o.keyword.map (fun k => k.text.toList) ∧
      (o.found name after).parts.get? .name = some name ∧
      (o.found name after).parts.get? .closing = none := by
  obtain ⟨text, lead, quote, keyword, gap⟩ := o
  obtain ⟨hlead, hgap⟩ := ho
  dsimp only at hlead hgap
  cases hlead <;> cases hgap <;>
    simp [found, putLead, putGap, Keyed.put, Keyed.get?]

/-- The match of a marker behind an opening, through its closing quote if it has one. -/
def closed (o : Opening) (name after : List Char) : Match MarkerPart :=
  match readClosing? o.quote after with
  | none => o.found name after
  | some (inside, beyond) =>
    ⟨(o.found name after).chars ++ inside, (o.found name after).parts.put .closing inside, beyond⟩

/-- The pattern matches a marker from the beginning of its opening on. -/
theorem match?_markerPattern {name : List Char} (ht : o.text = []) (ho : o.Fits)
    (hname : IsQualified name) (after : List Char) :
    markerPattern.match? (o.lead ++ o.gap ++ '<' :: (name ++ '>' :: after)) =
      some (o.closed name after) := by
  have hmem := mem_openingPattern.2 ⟨o, name, after, ht, ho, hname, rfl, rfl⟩
  have hall : ∀ m ∈ openingPattern.readings [] (o.lead ++ o.gap ++ '<' :: (name ++ '>' :: after)),
      m = o.found name after := by
    intro m hm
    obtain ⟨o', name', after', ht', ho', hname', heq, rfl⟩ := mem_openingPattern.1 hm
    obtain ⟨rfl, rfl, rfl⟩ := unique_found ht ht' ho ho' hname hname' heq
    rfl
  have hnone : (⟨[], (o.found name after).parts, after⟩ : Match MarkerPart) ∈
      (Pattern.optional closingPattern).readings (o.found name after).parts after :=
    Pattern.mem_readings_optional.2 (.inr rfl)
  rw [Pattern.match?, markerPattern,
    Pattern.head?_seq_of_forall hmem hall (List.ne_nil_of_mem hnone)]
  rw [Pattern.optional, Pattern.readings, List.head?_append]
  change Option.map _ ((closingPattern.readings (o.found name after).parts after).head?.or _) = _
  rw [head?_closingPattern (found_parts ho name after).1, closed]
  cases readClosing? o.quote after with
  | none => simp [Pattern.readings, found]
  | some closing => rfl

end Opening

/-- The pattern matches nothing that begins before the opening of the first marker. -/
theorem match?_eq_none {pending rest name after t u : List Char}
    (h : Unmarked pending.reverse ('<' :: rest)) (hm : readMarker? rest = some (name, after))
    (htu : t ++ u = (Opening.ofReversed pending).text) (hu : u ≠ []) :
    markerPattern.match? (u ++ ((Opening.ofReversed pending).lead ++
      (Opening.ofReversed pending).gap ++ '<' :: rest)) = none := by
  obtain ⟨hfits, hsource⟩ := Opening.ofReversed_spec pending
  rw [Pattern.match?, List.head?_eq_none_iff, List.eq_nil_iff_forall_not_mem]
  intro m hmem
  obtain ⟨m₁, hm₁, -⟩ := Pattern.mem_readings_seq.1 hmem
  obtain ⟨o, name', after', ho, hfits', hname', heq, -⟩ := mem_openingPattern.1 hm₁
  -- The opening would precede the same marker, and the one that is found is the longest.
  have hpending : pending.reverse =
      t ++ u ++ ((Opening.ofReversed pending).lead ++ (Opening.ofReversed pending).gap) := by
    rw [htu, ← hsource, Opening.source]
  have htext : pending.reverse ++ '<' :: rest =
      t ++ (o.lead ++ o.gap ++ '<' :: (name' ++ '>' :: after')) := by
    rw [← heq, hpending]
    simp
  have hle : t.length ≤ pending.reverse.length := by
    rw [hpending]
    simp only [List.length_append]
    omega
  obtain ⟨hsame, -⟩ := h.eq_append hm (close_not_mem hfits'.lead hfits'.gap) hname' htext hle
  have hlongest :=
    (Opening.ofReversed_longest (o := { o with text := t }) ⟨hfits'.lead, hfits'.gap⟩).1
  rw [Opening.source, ← hsame, List.reverse_reverse, ← htu, List.length_append] at hlongest
  have hpos := List.length_pos_iff.2 hu
  dsimp only at hlongest
  omega

/-! ### Expanding a template -/

/-- Text in front of a first marker is cut into characters, and then the marker is cut off. -/
theorem cut_of_unmarked {pending rest name after : List Char}
    (h : Unmarked pending.reverse ('<' :: rest)) (hm : readMarker? rest = some (name, after)) :
    markerPattern.cut (pending.reverse ++ '<' :: rest) =
      (Opening.ofReversed pending).text.map .inl ++
        .inr ((Opening.ofReversed pending).closed name after) ::
          markerPattern.cut ((Opening.ofReversed pending).closed name after).rest := by
  obtain ⟨hfits, hsource⟩ := Opening.ofReversed_spec pending
  obtain ⟨hname, rfl⟩ := readMarker?_eq_some_iff.1 hm
  have hmatch := Opening.match?_markerPattern (o := { Opening.ofReversed pending with text := [] })
    rfl ⟨hfits.lead, hfits.gap⟩ hname after
  have hlength : ((Opening.ofReversed pending).closed name after).rest.length <
      ((Opening.ofReversed pending).lead ++ (Opening.ofReversed pending).gap ++
        '<' :: (name ++ '>' :: after)).length := by
    have hrest : ((Opening.ofReversed pending).closed name after).rest.length ≤ after.length := by
      rw [Opening.closed]
      split
      · exact le_rfl
      · next hclosing => exact (length_readClosing?_lt hclosing).le
    simp only [List.length_append, List.length_cons]
    omega
  calc
    markerPattern.cut (pending.reverse ++ '<' :: (name ++ '>' :: after))
      = markerPattern.cut ((Opening.ofReversed pending).text ++
          ((Opening.ofReversed pending).lead ++ (Opening.ofReversed pending).gap ++
            '<' :: (name ++ '>' :: after))) := by
        rw [← hsource, Opening.source]
        simp
    _ = _ := by
        rw [Pattern.cut_append fun t u htu hu => match?_eq_none h hm htu hu,
          Pattern.cut_of_match? hmatch hlength]
        rfl

/-- Text without markers is cut into its characters. -/
theorem cut_of_unmarked_nil {before : List Char} (h : Unmarked before []) :
    markerPattern.cut before = before.map .inl := by
  have hnone : ∀ t u, t ++ u = before → u ≠ [] → markerPattern.match? (u ++ []) = none := by
    rintro t u rfl -
    rw [List.append_nil, Pattern.match?, List.head?_eq_none_iff, List.eq_nil_iff_forall_not_mem]
    intro m hmem
    obtain ⟨m₁, hm₁, -⟩ := Pattern.mem_readings_seq.1 hmem
    obtain ⟨o, name, after, -, -, hname, rfl, -⟩ := mem_openingPattern.1 hm₁
    have hnone := h (t ++ (o.lead ++ o.gap)) (name ++ '>' :: after) (by simp)
    rw [List.append_nil, readMarker?_eq_some_iff.2 ⟨hname, rfl⟩] at hnone
    cases hnone
  have hcut := Pattern.cut_append hnone
  rwa [List.append_nil, Pattern.cut, List.append_nil] at hcut

variable {q : Sql.Quoter}

/-- Characters outside of matches stay where they are. -/
theorem replaceEach_map_inl (text : List Char) (rest : List (Char ⊕ Match MarkerPart)) :
    replaceEach q (text.map .inl ++ rest) =
      (replaceEach q rest).map fun new => String.ofList text ++ new := by
  induction text with
  | nil => cases h : replaceEach q rest <;> simp [Except.map, h]
  | cons c text ih =>
    rw [List.map_cons, List.cons_append, replaceEach, ih]
    cases replaceEach q rest with
    | error e => rfl
    | ok new => simp [Except.map, String.ofList_cons, String.append_assoc]

namespace Opening

variable {o : Opening} {after : List Char}

/-- A marker without a closing quote is replaced as its piece is expanded. -/
theorem replacement_of_open (ho : o.Fits) (h : readClosing? o.quote after = none)
    (q : Sql.Quoter) (name : List Char) :
    replacement q (o.closed name after) =
      ((Piece.marker o.lead o.keyword name).expand q).map Sql.render := by
  obtain ⟨-, hlead, hkeyword, hname, hclosing⟩ := found_parts ho name after
  have hnameText : partText (o.found name after) .name = String.ofList name := by
    rw [partText, hname, Option.getD_some]
  have hleadText : partText (o.found name after) .lead = String.ofList o.lead := by
    rw [partText, hlead]
  rw [closed, h, replacement, hclosing, hkeyword, hnameText, hleadText]
  cases o.keyword with
  | some keyword =>
    rw [Piece.expand]
    cases q.table (String.ofList name) with
    | error e => rfl
    | ok tokens => simp [Except.map, Sql.render_cons, Sql.Token.text]
  | none =>
    rw [Piece.expand]
    cases q.column (String.ofList name) with
    | error e => rfl
    | ok tokens => simp [Except.map, Sql.render_cons, Sql.Token.text]

/-- A marker with a closing quote is replaced by itself. -/
theorem replacement_of_closed {inside beyond : List Char}
    (h : readClosing? o.quote after = some (inside, beyond)) (q : Sql.Quoter) (name : List Char) :
    replacement q (o.closed name after) =
      .ok (String.ofList (o.lead ++ o.gap ++ '<' :: name ++ '>' :: inside)) := by
  rw [closed, h, replacement, Keyed.get?_put_self]
  simp [found]

end Opening

/-- The pieces of text with what has been passed over before it are expanded as the matches of the
pattern are replaced. -/
theorem render_pieces (pending s : List Char) (h : Unmarked pending.reverse s) :
    (expandPieces q (pieces pending s)).map Sql.render =
      replaceEach q (markerPattern.cut (pending.reverse ++ s)) := by
  have hempty (s : List Char) : Unmarked [] s := .of_not_mem (by simp)
  fun_induction pieces pending s with
  | case1 pending =>
    have htext := render_expandPieces_textPiece (q := q) pending.reverse []
    rw [List.append_nil] at htext
    have hcut := replaceEach_map_inl (q := q) pending.reverse []
    rw [List.append_nil] at hcut
    rw [List.append_nil, cut_of_unmarked_nil h, htext, hcut]
    rfl
  | case2 pending rest hm ih =>
    have hpushed := ih (by simpa using h.push fun _ => hm)
    rw [hpushed]
    simp
  | case3 pending rest name after hm opening inside beyond hc ih =>
    have hreplaced := Opening.replacement_of_closed hc q name
    have hrest : (opening.closed name after).rest = beyond := by rw [Opening.closed, hc]
    rw [cut_of_unmarked h hm, replaceEach_map_inl, replaceEach, hrest, hreplaced,
      render_expandPieces_textPiece, render_expandPieces_cons, ih (hempty _)]
    rfl
  | case4 pending rest name after hm opening hc ih =>
    have hreplaced := Opening.replacement_of_open (Opening.ofReversed_spec pending).1 hc q name
    have hrest : (opening.closed name after).rest = after := by rw [Opening.closed, hc]; rfl
    rw [cut_of_unmarked h hm, replaceEach_map_inl, replaceEach, hrest, hreplaced,
      render_expandPieces_textPiece, render_expandPieces_cons, ih (hempty _)]
    rfl
  | case5 pending c rest hc ih =>
    have hpushed := ih (by simpa using h.push fun heq => absurd heq hc)
    rw [hpushed]
    simp

/-- A match is not replaced if and only if its name is rejected. -/
theorem isOk_replacement {m : Match MarkerPart} :
    (replacement q m).isOk = false ↔ IsRejected q m := by
  rw [replacement, IsRejected]
  cases m.parts.get? .closing with
  | some inside => simp [Except.isOk, Except.toBool]
  | none => cases m.parts.get? .keyword <;> simp [isOk_map]

/-- Replacing fails if and only if the name of a match is rejected. -/
theorem isOk_replaceEach {parts : List (Char ⊕ Match MarkerPart)} :
    (replaceEach q parts).isOk = false ↔ ∃ m, .inr m ∈ parts ∧ IsRejected q m := by
  induction parts with
  | nil => simp [replaceEach, Except.isOk, Except.toBool]
  | cons part parts ih =>
    cases part with
    | inl c => simp [replaceEach, isOk_map, ih]
    | inr m =>
      have hm := isOk_replacement (q := q) (m := m)
      rw [replaceEach]
      cases hnew : replacement q m with
      | error e =>
        have hrejected : IsRejected q m := hm.1 (by rw [hnew]; rfl)
        exact iff_of_true rfl ⟨m, by simp, hrejected⟩
      | ok new =>
        have hkept : ¬IsRejected q m := fun h => by
          simpa [hnew, Except.isOk, Except.toBool] using hm.2 h
        rw [isOk_map, ih]
        constructor
        · rintro ⟨m', hm', hrejected⟩
          exact ⟨m', by simp [hm'], hrejected⟩
        · rintro ⟨m', hm', hrejected⟩
          rcases List.mem_cons.1 hm' with heq | hm'
          · obtain rfl := Sum.inr.inj heq
            exact absurd hrejected hkept
          · exact ⟨m', hm', hrejected⟩

/-- The expanded template is the template with the leftmost matches of the pattern replaced. Its
expansion fails if and only if a name that is replaced is rejected. -/
theorem render_expand (q : Sql.Quoter) (f : Fragment) :
    (f.expand q).map Sql.render = replaceMarkers q f.template ∧
      ((f.expand q).isOk = false ↔
        ∃ m, .inr m ∈ markerPattern.cut f.template.toList ∧ IsRejected q m) := by
  have hrender : (f.expand q).map Sql.render = replaceMarkers q f.template :=
    render_pieces [] f.template.toList (.of_not_mem (by simp))
  have hok : (f.expand q).isOk = (replaceMarkers q f.template).isOk := by
    rw [← hrender]
    cases f.expand q <;> rfl
  exact ⟨hrender, by rw [hok]; exact isOk_replaceEach⟩

example : (Fragment.expand {} ⟨"SELECT '<a>', '<b FROM <t>", []⟩).map Sql.render =
    .ok "SELECT '<a>', '<b FROM \"t\"" := by decide +kernel

end BoundSql.Fragment
