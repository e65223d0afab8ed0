import BoundSql.Fragment.Template
import BoundSql.Proofs.Text.Runs
import Mathlib.Data.List.Induction

/-!
# Markers and what precedes them

The parts of a marker are stated here without a scanner: a name between angle brackets, before it
perhaps a keyword with blanks behind it, and before that perhaps a quote with more angle brackets
behind it. The scanner looks at the text before a marker from its end; what it finds there is the
longest opening that the text can end with.

* `readMarker?_eq_some_iff`: what the scanner takes for a marker is a name between angle brackets;
* `readClosing?_eq_some_iff`: what the scanner takes for the end of a quoted marker;
* `Opening.ofReversed_quoted`: an opening with a quote is found whatever precedes it;
* `Opening.ofReversed_longest`: no other opening begins before the one that is found.
-/

namespace BoundSql.Fragment

variable {name rest s : List Char}

/-! ### Names -/

/-- A name, or two names with a point between them. -/
def IsQualified (name : List Char) : Prop :=
  Sql.isName name ∨
    ∃ table column, name = table ++ '.' :: column ∧ Sql.isName table ∧ Sql.isName column

/-- Names begin with a character that can also stand in them. -/
theorem isNameChar_of_mem (h : Sql.isName name) : ∀ c ∈ name, Sql.isNameChar c := by
  cases name with
  | nil => simp
  | cons c name =>
    simp only [Sql.isName, Bool.and_eq_true, List.all_eq_true] at h
    intro x hx
    rcases List.mem_cons.1 hx with rfl | hx
    · simp [Sql.isNameChar, h.1]
    · exact h.2 x hx

/-- A character that stands in no name and is no point stands in no qualified name. -/
theorem IsQualified.not_mem (h : IsQualified name) {c : Char} (hc : Sql.isNameChar c = false)
    (hpoint : c ≠ '.') : c ∉ name := by
  have hname : ∀ {name}, Sql.isName name → c ∉ name := fun hname hmem => by
    simp [isNameChar_of_mem hname c hmem] at hc
  rcases h with h | ⟨table, column, rfl, htable, hcolumn⟩
  · exact hname h
  · simp [hname htable, hname hcolumn, hpoint]

/-- A name is split off where it does not go on. -/
theorem scanName?_append (h : Sql.isName name)
    (hrest : ∀ c ∈ rest.head?, Sql.isNameChar c = false) :
    Sql.scanName? (name ++ rest) = some (name, rest) := by
  cases name with
  | nil => simp [Sql.isName] at h
  | cons c name =>
    simp only [Sql.isName, Bool.and_eq_true, List.all_eq_true] at h
    rw [List.cons_append, Sql.scanName?, if_pos h.1, Text.takeWhile_word_append h.2 hrest,
      Text.dropWhile_word_append h.2 hrest]

/-- What is split off is a name. -/
theorem isName_of_scanName? (h : Sql.scanName? s = some (name, rest)) :
    Sql.isName name ∧ s = name ++ rest := by
  cases s with
  | nil => simp [Sql.scanName?] at h
  | cons c s =>
    rw [Sql.scanName?] at h
    split at h
    · next hc =>
      obtain ⟨rfl, rfl⟩ :
          c :: s.takeWhile Sql.isNameChar = name ∧ s.dropWhile Sql.isNameChar = rest := by
        simpa using h
      refine ⟨?_, by simp⟩
      simp only [Sql.isName, hc, Bool.true_and, List.all_eq_true]
      exact fun x hx => List.mem_takeWhile_imp hx
    · cases h

/-- What the scanner takes for a qualified name is one. -/
theorem isQualified_of_readQualified? (h : readQualified? s = some (name, rest)) :
    IsQualified name ∧ s = name ++ rest := by
  rw [readQualified?] at h
  split at h
  · next table t ht =>
    obtain ⟨⟨column, t'⟩, hc, heq⟩ := Option.map_eq_some_iff.1 h
    obtain ⟨rfl, rfl⟩ := Prod.mk.inj heq
    obtain ⟨htable, rfl⟩ := isName_of_scanName? ht
    obtain ⟨hcolumn, rfl⟩ := isName_of_scanName? hc
    exact ⟨.inr ⟨table, column, rfl, htable, hcolumn⟩, by simp⟩
  · obtain ⟨hname, rfl⟩ := isName_of_scanName? h
    exact ⟨.inl hname, rfl⟩

/-- The rest of a marker behind its opening bracket is a qualified name and the closing bracket. -/
theorem readMarker?_eq_some_iff :
    readMarker? s = some (name, rest) ↔ IsQualified name ∧ s = name ++ '>' :: rest := by
  constructor
  · intro h
    rw [readMarker?] at h
    split at h
    · next hname =>
      obtain ⟨rfl, rfl⟩ := Prod.mk.inj (Option.some.inj h)
      exact isQualified_of_readQualified? hname
    · cases h
  · rintro ⟨hname, rfl⟩
    -- Neither a point nor a closing bracket goes on with a name.
    have hclose : ∀ c ∈ ('>' :: rest).head?, Sql.isNameChar c = false := by
      simp only [List.head?_cons, Option.mem_some_iff, forall_eq']
      decide
    rcases hname with hname | ⟨table, column, rfl, htable, hcolumn⟩
    · have hread : readQualified? (name ++ '>' :: rest) = some (name, '>' :: rest) := by
        rw [readQualified?, scanName?_append hname hclose]
        rfl
      rw [readMarker?, hread]
      rfl
    · have hpoint : ∀ c ∈ ('.' :: (column ++ '>' :: rest)).head?, Sql.isNameChar c = false := by
        simp only [List.head?_cons, Option.mem_some_iff, forall_eq']
        decide
      have hread : readQualified? (table ++ '.' :: (column ++ '>' :: rest)) =
          some (table ++ '.' :: column, '>' :: rest) := by
        rw [readQualified?, scanName?_append htable hpoint]
        simp only [scanName?_append hcolumn hclose, Option.map_some]
      rw [readMarker?, List.append_assoc, List.cons_append, hread]
      rfl

/-- Text in which no marker ends that begins before it: a character that belongs to no marker comes
before any closing bracket. -/
def Blocks (s : List Char) : Prop :=
  ∃ t c u, s = t ++ c :: u ∧ '>' ∉ t ∧ c ≠ '>' ∧ c ≠ '.' ∧ Sql.isNameChar c = false

/-- A marker that begins before text in which it cannot end is a marker whatever that text is. -/
theorem Blocks.readMarker?_append {a b : List Char} (hb : Blocks b)
    (h : readMarker? (a ++ b) = some (name, rest)) (b' : List Char) :
    ∃ after, readMarker? (a ++ b') = some (name, after) := by
  obtain ⟨t, c, u, rfl, ht, hclose, hpoint, hc⟩ := hb
  obtain ⟨hname, heq⟩ := readMarker?_eq_some_iff.1 h
  have hmarker : (a ++ t) ++ c :: u = (name ++ ['>']) ++ rest := by simpa using heq
  -- The marker ends before the character that belongs to none, and then before the text `t`.
  have hprefix : name ++ ['>'] <+: a ++ t := by
    rcases List.append_eq_append_iff.1 hmarker with ⟨v, hv, hrest⟩ | ⟨v, hv, -⟩
    · cases v with
      | nil => exact ⟨[], by simp [hv]⟩
      | cons x v =>
        obtain rfl : c = x := (List.cons_eq_cons.1 hrest).1
        have hmem : c ∈ name ++ ['>'] := by simp [hv]
        rcases List.mem_append.1 hmem with hmem | hmem
        · exact absurd hmem (hname.not_mem hc hpoint)
        · exact absurd (List.mem_singleton.1 hmem) hclose
    · exact ⟨v, hv.symm⟩
  obtain ⟨v, hv⟩ := hprefix
  rcases List.append_eq_append_iff.1 hv with ⟨w, hw, -⟩ | ⟨w, hw, htw⟩
  · exact ⟨w ++ b', readMarker?_eq_some_iff.2 ⟨hname, by simp [hw]⟩⟩
  · cases w using List.reverseRecOn with
    | nil =>
      rw [List.append_nil] at hw
      exact ⟨b', readMarker?_eq_some_iff.2 ⟨hname, by simp [← hw]⟩⟩
    | append_singleton w x =>
      have hlast : name ++ ['>'] = (a ++ w) ++ [x] := by rw [hw, List.append_assoc]
      obtain rfl : '>' = x := (List.cons_eq_cons.1 (List.append_inj' hlast rfl).2).1
      exact absurd (by simp [htw]) ht

/-- No marker begins with text in which none can end. -/
theorem Blocks.readMarker?_eq_none (h : Blocks s) : readMarker? s = none := by
  cases hs : readMarker? s with
  | none => rfl
  | some found =>
    obtain ⟨after, hafter⟩ := h.readMarker?_append (a := []) (by rw [List.nil_append, hs]) []
    obtain ⟨-, heq⟩ := readMarker?_eq_some_iff.1 hafter
    simp at heq

/-! ### Closing quotes -/

/-- A closing quote is looked for from left to right. -/
theorem readClosing?_cons (q c : Char) (s : List Char) :
    readClosing? (some q) (c :: s) =
      if c = q then some ([q], s)
      else if c = ',' then none
      else (readClosing? (some q) s).map fun closing => (c :: closing.1, closing.2) := by
  simp only [readClosing?, Option.bind_eq_bind, Option.bind_some]
  by_cases hq : c = q
  · simp [hq]
  by_cases hcomma : c = ','
  · simp [hcomma, hcomma ▸ hq]
  · simp only [hq, hcomma, decide_false, Bool.or_self, Bool.not_false, List.dropWhile_cons_of_pos,
      List.takeWhile_cons_of_pos, if_false]
    split
    · split <;> simp
    · simp

/-- A marker is closed by the next quote if no comma comes before it. -/
theorem readClosing?_eq_some_iff {q : Char} {inside beyond : List Char} :
    readClosing? (some q) s = some (inside, beyond) ↔
      ∃ t, inside = t ++ [q] ∧ s = inside ++ beyond ∧ q ∉ t ∧ ',' ∉ t := by
  induction s generalizing inside with
  | nil =>
    refine iff_of_false (by simp [readClosing?]) ?_
    rintro ⟨t, rfl, h, -⟩
    simp at h
  | cons c s ih =>
    -- The first character ends the search, or it is passed over with what is passed over behind it.
    rw [readClosing?_cons]
    by_cases hq : c = q
    · subst hq
      rw [if_pos rfl]
      constructor
      · rintro h
        obtain ⟨rfl, rfl⟩ := Prod.mk.inj (Option.some.inj h)
        exact ⟨[], rfl, rfl, by simp, by simp⟩
      · rintro ⟨_ | ⟨x, t⟩, rfl, heq, hquote, -⟩
        · rw [(List.cons_eq_cons.1 heq).2]
          rfl
        · exact absurd (by simp [(List.cons_eq_cons.1 heq).1]) hquote
    by_cases hcomma : c = ','
    · rw [if_neg hq, if_pos hcomma]
      refine iff_of_false (by simp) ?_
      rintro ⟨_ | ⟨x, t⟩, rfl, heq, -, hno⟩
      · exact hq (List.cons_eq_cons.1 heq).1
      · exact hno (by simp [← (List.cons_eq_cons.1 heq).1, hcomma])
    · rw [if_neg hq, if_neg hcomma, Option.map_eq_some_iff]
      constructor
      · rintro ⟨⟨i, b⟩, h, heq⟩
        obtain ⟨rfl, rfl⟩ := Prod.mk.inj heq
        obtain ⟨t, rfl, rfl, hquote, hno⟩ := ih.1 h
        exact ⟨c :: t, rfl, rfl, by simp [hquote, Ne.symm hq], by simp [hno, Ne.symm hcomma]⟩
      · rintro ⟨_ | ⟨x, t⟩, rfl, heq, hquote, hno⟩
        · exact absurd (List.cons_eq_cons.1 heq).1 hq
        · obtain ⟨rfl, rfl⟩ := List.cons_eq_cons.1 heq
          simp only [List.mem_cons, not_or] at hquote hno
          exact ⟨(t ++ [q], beyond), ih.2 ⟨t, rfl, rfl, hquote.2, hno.2⟩, rfl⟩

/-- A closed marker ends where it does whatever follows it. -/
theorem readClosing?_append {quote : Option Char} {inside beyond : List Char}
    (h : readClosing? quote s = some (inside, beyond)) :
    quote.isSome ∧ s = inside ++ beyond ∧
      ∀ s', readClosing? quote (inside ++ s') = some (inside, s') := by
  cases quote with
  | none => simp [readClosing?] at h
  | some q =>
    obtain ⟨t, hinside, hs, hquote, hno⟩ := readClosing?_eq_some_iff.1 h
    exact ⟨rfl, hs, fun s' => readClosing?_eq_some_iff.2 ⟨t, hinside, rfl, hquote, hno⟩⟩

/-! ### Openings -/

/-- What can stand before a keyword or a marker: a quote with any number of angle brackets behind
it, or nothing. -/
inductive IsLead : Option Char → List Char → Prop
  | none : IsLead none []
  | quoted {quote : Char} (h : isMarkerQuote quote) (n : Nat) :
      IsLead (some quote) (quote :: List.replicate n '<')

/-- What can stand directly before a marker: a keyword with any number of blanks behind it, or
nothing. -/
inductive IsGap : Option TableKeyword → List Char → Prop
  | none : IsGap none []
  | keyword (keyword : TableKeyword) {blanks : List Char} (h : ∀ c ∈ blanks, Unicode.isBlank c) :
      IsGap (some keyword) (keyword.text.toList ++ blanks)

namespace Opening

/-- The text that an opening was read from. -/
def source (o : Opening) : List Char := o.text ++ (o.lead ++ o.gap)

/-- An opening made of the parts that can precede a marker. -/
structure Fits (o : Opening) : Prop where
  /-- The lead is one. -/
  lead : IsLead o.quote o.lead
  /-- The gap is one. -/
  gap : IsGap o.keyword o.gap

end Opening

/-- No keyword ends with another one. -/
theorem TableKeyword.splitOff?_append (keyword : TableKeyword) (rest : List Char) :
    splitOff? (keyword.text.toList.reverse ++ rest) = some (keyword, rest) := by
  cases keyword <;> simp [splitOff?, all, text, Text.dropPrefix?]

/-- What is split off is a keyword. -/
theorem TableKeyword.eq_append_of_splitOff? {keyword : TableKeyword} {reversed rest : List Char}
    (h : splitOff? reversed = some (keyword, rest)) :
    reversed = keyword.text.toList.reverse ++ rest := by
  obtain ⟨found, -, hfound⟩ := List.exists_of_findSome?_eq_some h
  obtain ⟨t, ht, heq⟩ := Option.map_eq_some_iff.1 hfound
  obtain ⟨rfl, rfl⟩ := Prod.mk.inj heq
  exact Text.eq_append_of_dropPrefix? ht

/-- The last character of a keyword is no blank. -/
theorem TableKeyword.dropWhile_append (keyword : TableKeyword) (rest : List Char) :
    (keyword.text.toList.reverse ++ rest).dropWhile Unicode.isBlank =
      keyword.text.toList.reverse ++ rest := by
  have hblank : keyword.text.toList.reverse.head?.any Unicode.isBlank = false := by
    cases keyword <;> decide +kernel
  obtain ⟨c, t, ht⟩ : ∃ c t, keyword.text.toList.reverse = c :: t := by
    cases keyword <;> exact ⟨_, _, rfl⟩
  rw [ht, List.cons_append, List.dropWhile_cons_of_neg]
  simpa [ht] using hblank

namespace Opening

variable {quote : Option Char} {lead gap : List Char} {keyword : Option TableKeyword}

/-- The opening that the reversed text before a keyword or a marker ends with. -/
def behind (before : List Char) (keyword : Option TableKeyword) (gap : List Char) : Opening :=
  match before.dropWhile (· = '<') with
  | c :: rest =>
    if isMarkerQuote c then ⟨rest.reverse, c :: before.takeWhile (· = '<'), some c, keyword, gap⟩
    else ⟨before.reverse, [], none, keyword, gap⟩
  | [] => ⟨before.reverse, [], none, keyword, gap⟩

/-- A keyword with blanks behind it is found at the end of a text. -/
theorem ofReversed_keyword (hgap : IsGap keyword gap) (hk : keyword.isSome) (before : List Char) :
    ofReversed (gap.reverse ++ before) = behind before keyword gap := by
  cases hgap with
  | none => cases hk
  | @keyword k blanks hblanks =>
    have hdrop : ((k.text.toList ++ blanks).reverse ++ before).dropWhile Unicode.isBlank =
        k.text.toList.reverse ++ before := by
      rw [List.reverse_append, List.append_assoc,
        List.dropWhile_append_of_pos (by simpa using hblanks), k.dropWhile_append]
    have htake : ((k.text.toList ++ blanks).reverse ++ before).length - before.length =
        (k.text.toList ++ blanks).reverse.length := by
      rw [List.length_append, Nat.add_sub_cancel]
    rw [ofReversed, hdrop, k.splitOff?_append]
    simp only [Option.map_some, htake, List.take_left', List.reverse_reverse]
    rfl

/-- Where no keyword is found, the opening is the lead before the marker. -/
theorem ofReversed_of_none {pending : List Char}
    (h : TableKeyword.splitOff? (pending.dropWhile Unicode.isBlank) = none) :
    ofReversed pending = behind pending none [] := by
  rw [ofReversed, h]
  simp only [Option.map_none, Nat.sub_self, List.take_zero, List.reverse_nil]
  rfl

/-- A quote with angle brackets behind it is found at the end of a text. -/
theorem behind_quoted {q : Char} (hlead : IsLead (some q) lead) (pre : List Char) :
    behind (lead.reverse ++ pre) keyword gap = ⟨pre.reverse, lead, some q, keyword, gap⟩ := by
  cases hlead with
  | quoted hq n =>
    have hne : q ≠ '<' := by
      rintro rfl
      exact absurd hq (by decide)
    have hall : ∀ c ∈ List.replicate n '<', decide (c = '<') := by simp
    have hstop : ∀ c ∈ (q :: pre).head?, decide (c = '<') = false := by simpa using hne
    rw [List.reverse_cons, List.reverse_replicate, List.append_assoc, List.singleton_append, behind,
      Text.takeWhile_word_append hall hstop, Text.dropWhile_word_append hall hstop]
    simp [hq]

/-- What is found at the end of a text is its lead, which may be empty. -/
theorem behind_spec (before : List Char) (keyword : Option TableKeyword) (gap : List Char) :
    (behind before keyword gap).text ++ (behind before keyword gap).lead = before.reverse ∧
      IsLead (behind before keyword gap).quote (behind before keyword gap).lead ∧
      (behind before keyword gap).keyword = keyword ∧ (behind before keyword gap).gap = gap := by
  rw [behind]
  split
  · next c rest hdrop =>
    split
    · next hq =>
      have hbrackets : before.takeWhile (· = '<') =
          List.replicate (before.takeWhile (· = '<')).length '<' :=
        List.eq_replicate_of_mem fun c hc => by simpa using List.mem_takeWhile_imp hc
      refine ⟨?_, ?_, rfl, rfl⟩
      · have hbefore := List.takeWhile_append_dropWhile (p := (· = '<')) (l := before)
        rw [hdrop, hbrackets] at hbefore
        rw [hbrackets]
        conv_rhs => rw [← hbefore]
        simp
      · rw [hbrackets]
        exact .quoted hq _
    · exact ⟨by simp, .none, rfl, rfl⟩
  · exact ⟨by simp, .none, rfl, rfl⟩

/-- No keyword ends with a quote or an angle bracket. -/
theorem splitOff?_eq_none_of_lead {q : Char} (hlead : IsLead (some q) lead) (pre : List Char) :
    TableKeyword.splitOff? ((lead.reverse ++ pre).dropWhile Unicode.isBlank) = none := by
  -- The last character of the lead is one of these, and it is no blank either.
  obtain ⟨c, t, ht, hc⟩ : ∃ c t, lead.reverse = c :: t ∧ (c = '<' ∨ isMarkerQuote c) := by
    cases hlead with
    | quoted hq n =>
      cases n with
      | zero => exact ⟨q, [], rfl, .inr hq⟩
      | succ n =>
        refine ⟨'<', List.replicate n '<' ++ [q], ?_, .inl rfl⟩
        rw [List.reverse_cons, List.reverse_replicate, List.replicate_succ, List.cons_append]
  have hmarks : c ∈ ['<', '\'', '\x60'] := by
    simp only [isMarkerQuote, Bool.or_eq_true, decide_eq_true_eq] at hc
    simpa using hc
  have hblank : ¬Unicode.isBlank c :=
    List.any_eq_false.1 (by decide : ['<', '\'', '\x60'].any Unicode.isBlank = false) c hmarks
  rw [ht, List.cons_append, List.dropWhile_cons_of_neg hblank]
  cases hsplit : TableKeyword.splitOff? (c :: (t ++ pre)) with
  | none => rfl
  | some found =>
    obtain ⟨k, rest⟩ := found
    have heq := TableKeyword.eq_append_of_splitOff? hsplit
    have hkeyword : ['<', '\'', '\x60'].any (k.text.toList.reverse.head? == some ·) = false := by
      cases k <;> decide
    obtain ⟨x, u, hx⟩ : ∃ x u, k.text.toList.reverse = x :: u := by cases k <;> exact ⟨_, _, rfl⟩
    rw [hx, List.cons_append] at heq
    obtain rfl := (List.cons_eq_cons.1 heq).1
    exact absurd (by simp [hx]) (List.any_eq_false.1 hkeyword c hmarks)

/-- A quote, the angle brackets behind it and what else precedes the marker are found at the end of
a text. -/
theorem ofReversed_quoted {q : Char} (hlead : IsLead (some q) lead) (hgap : IsGap keyword gap)
    (pre : List Char) :
    ofReversed ((lead ++ gap).reverse ++ pre) = ⟨pre.reverse, lead, some q, keyword, gap⟩ := by
  rw [List.reverse_append, List.append_assoc]
  cases keyword with
  | some k => rw [ofReversed_keyword hgap rfl, behind_quoted hlead]
  | none =>
    cases hgap
    rw [List.reverse_nil, List.nil_append, ofReversed_of_none (splitOff?_eq_none_of_lead hlead pre),
      behind_quoted hlead]

/-- The quote of an opening that has one is found whatever precedes the opening. -/
theorem quote_ofReversed {o : Opening} (ho : o.Fits) (hquote : o.quote.isSome) (pre : List Char) :
    (ofReversed ((o.lead ++ o.gap).reverse ++ pre)).quote = o.quote := by
  obtain ⟨text, lead, quote, keyword, gap⟩ := o
  obtain ⟨q, rfl⟩ := Option.isSome_iff_exists.1 hquote
  rw [ofReversed_quoted ho.lead ho.gap]

/-- Where a keyword is found, what is found is the keyword with its blanks and what the text before
them ends with. -/
theorem ofReversed_of_some {pending before : List Char} {k : TableKeyword}
    (h : TableKeyword.splitOff? (pending.dropWhile Unicode.isBlank) = some (k, before)) :
    ∃ blanks, IsGap (some k) (k.text.toList ++ blanks) ∧
      pending.dropWhile Unicode.isBlank = k.text.toList.reverse ++ before ∧
      pending = (k.text.toList ++ blanks).reverse ++ before ∧
      ofReversed pending = behind before (some k) (k.text.toList ++ blanks) := by
  have hdrop := TableKeyword.eq_append_of_splitOff? h
  have hgap : IsGap (some k) (k.text.toList ++ (pending.takeWhile Unicode.isBlank).reverse) :=
    .keyword k fun c hc => List.mem_takeWhile_imp (List.mem_reverse.1 hc)
  have hpending : pending =
      (k.text.toList ++ (pending.takeWhile Unicode.isBlank).reverse).reverse ++ before := by
    have h := List.takeWhile_append_dropWhile (p := Unicode.isBlank) (l := pending)
    rw [hdrop] at h
    rw [List.reverse_append, List.reverse_reverse, List.append_assoc, h]
  refine ⟨_, hgap, hdrop, hpending, ?_⟩
  conv_lhs => rw [hpending]
  exact ofReversed_keyword hgap rfl before

/-- What is found before a marker is an opening, and nothing of the text is lost. -/
theorem ofReversed_spec (pending : List Char) :
    (ofReversed pending).Fits ∧ (ofReversed pending).source = pending.reverse := by
  cases hsplit : TableKeyword.splitOff? (pending.dropWhile Unicode.isBlank) with
  | none =>
    obtain ⟨hsource, hlead, hkeyword, hgap⟩ := behind_spec pending none []
    rw [ofReversed_of_none hsplit]
    refine ⟨⟨hlead, by rw [hkeyword, hgap]; exact .none⟩, ?_⟩
    rw [source, hgap, List.append_nil, hsource]
  | some found =>
    obtain ⟨k, before⟩ := found
    obtain ⟨blanks, hgap, -, hpending, hfound⟩ := ofReversed_of_some hsplit
    rw [hfound]
    generalize k.text.toList ++ blanks = gap at hgap hpending
    obtain ⟨hsource, hlead, hkeyword, hfound⟩ := behind_spec before (some k) gap
    rw [hpending]
    refine ⟨⟨hlead, by rw [hkeyword, hfound]; exact hgap⟩, ?_⟩
    rw [source, hfound, ← List.append_assoc, hsource, List.reverse_append, List.reverse_reverse]

/-- No other opening of a text begins before the one that is found, and none begins where it
does. -/
theorem ofReversed_longest {o : Opening} (h : o.Fits) :
    (ofReversed o.source.reverse).text.length ≤ o.text.length ∧
      ((ofReversed o.source.reverse).text.length = o.text.length →
        ofReversed o.source.reverse = o) := by
  obtain ⟨text, lead, quote, keyword, gap⟩ := o
  obtain ⟨hlead, hgap⟩ := h
  dsimp only at hlead hgap ⊢
  cases quote with
  | some q =>
    -- A quoted opening is found as it is.
    have hfound : ofReversed (source ⟨text, lead, some q, keyword, gap⟩).reverse =
        ⟨text, lead, some q, keyword, gap⟩ := by
      rw [source, List.reverse_append, ofReversed_quoted hlead hgap, List.reverse_reverse]
    rw [hfound]
    exact ⟨le_rfl, fun _ => rfl⟩
  | none =>
    obtain rfl : lead = [] := by cases hlead; rfl
    cases keyword with
    | some k =>
      -- The keyword is found again, so that only a lead can be found besides.
      have hreversed : (source ⟨text, [], none, some k, gap⟩).reverse =
          gap.reverse ++ text.reverse := by simp [source]
      obtain ⟨htext, hfound, hkeyword, hfoundGap⟩ := behind_spec text.reverse (some k) gap
      rw [hreversed, ofReversed_keyword hgap rfl]
      generalize behind text.reverse (some k) gap = found at htext hfound hkeyword hfoundGap ⊢
      obtain ⟨text', lead', quote', keyword', gap'⟩ := found
      dsimp only at htext hfound hkeyword hfoundGap ⊢
      rw [List.reverse_reverse] at htext
      subst hkeyword hfoundGap htext
      refine ⟨by simp, fun hlength => ?_⟩
      obtain rfl : lead' = [] := by simpa using hlength
      cases hfound
      rw [List.append_nil]
    | none =>
      obtain rfl : gap = [] := by cases hgap; rfl
      have hreversed : (source ⟨text, [], none, none, []⟩).reverse = text.reverse := by
        simp [source]
      obtain ⟨⟨hfoundLead, hfoundGap⟩, hsource⟩ := ofReversed_spec text.reverse
      rw [hreversed]
      generalize ofReversed text.reverse = found at hfoundLead hfoundGap hsource ⊢
      obtain ⟨text', lead', quote', keyword', gap'⟩ := found
      dsimp only at hfoundLead hfoundGap ⊢
      rw [source, List.reverse_reverse] at hsource
      dsimp only at hsource
      subst hsource
      refine ⟨by simp, fun hlength => ?_⟩
      obtain ⟨rfl, rfl⟩ : lead' = [] ∧ gap' = [] := by simpa using hlength
      cases hfoundLead
      -- No keyword is empty.
      generalize hnil : ([] : List Char) = gap' at hfoundGap
      cases hfoundGap with
      | none => simp
      | keyword k => cases k <;> simp [TableKeyword.text] at hnil

end Opening

/-! ### Text before the first marker -/

/-- Text with `s` behind it in which no marker begins. -/
def Unmarked (before s : List Char) : Prop :=
  ∀ a b, before = a ++ '<' :: b → readMarker? (b ++ s) = none

/-- No closing bracket precedes a marker. -/
theorem close_not_mem {quote : Option Char} {lead gap : List Char} {keyword : Option TableKeyword}
    (hlead : IsLead quote lead) (hgap : IsGap keyword gap) : '>' ∉ lead ++ gap := by
  rw [List.mem_append, not_or]
  constructor
  · cases hlead with
    | none => simp
    | @quoted q hq n =>
      have hne : '>' ≠ q := by
        rintro rfl
        exact absurd hq (by decide)
      simp [hne]
  · cases hgap with
    | none => simp
    | keyword k hblanks =>
      have hkeyword : '>' ∉ k.text.toList := by cases k <;> decide
      rw [List.mem_append, not_or]
      exact ⟨hkeyword, fun hmem => absurd (hblanks _ hmem) (by decide)⟩

/-- An opening bracket belongs to no marker that has begun before it. -/
theorem blocks_bracket (rest : List Char) : Blocks ('<' :: rest) :=
  ⟨[], '<', rest, rfl, by simp, by decide, by decide, by decide⟩

/-- Without closing brackets no marker ends before it is blocked. -/
theorem Blocks.append_left {before : List Char} (hs : Blocks s) (h : '>' ∉ before) :
    Blocks (before ++ s) := by
  obtain ⟨t, c, u, rfl, ht, hc⟩ := hs
  exact ⟨before ++ t, c, u, by simp, by simp [h, ht], hc⟩

/-- Without closing brackets no marker is complete before it is blocked. -/
theorem unmarked_of_not_mem {before : List Char} (h : '>' ∉ before) (hs : Blocks s) :
    Unmarked before s := by
  rintro a b rfl
  exact (hs.append_left fun hmem => h (by simp [hmem])).readMarker?_eq_none

/-- What can precede a marker and begins before the first marker of a text precedes that marker. -/
theorem Unmarked.eq_append {before after name' after' a t : List Char}
    (h : Unmarked before ('<' :: rest)) (hmarker : readMarker? rest = some (name, after))
    (ht : '>' ∉ t) (hname' : IsQualified name')
    (heq : before ++ '<' :: rest = a ++ (t ++ '<' :: (name' ++ '>' :: after')))
    (ha : a.length ≤ before.length) : before = a ++ t ∧ name' = name ∧ after' = after := by
  have hmarker' : readMarker? (name' ++ '>' :: after') = some (name', after') :=
    readMarker?_eq_some_iff.2 ⟨hname', rfl⟩
  rw [← List.append_assoc] at heq
  rcases List.append_eq_append_iff.1 heq with ⟨u, hu, hrest⟩ | ⟨u, hu, hrest⟩
  · cases u with
    | nil =>
      obtain ⟨-, rfl⟩ := List.cons_eq_cons.1 hrest
      obtain ⟨rfl, rfl⟩ := Prod.mk.inj (Option.some.inj (hmarker.symm.trans hmarker'))
      exact ⟨by simpa using hu.symm, rfl, rfl⟩
    | cons x v =>
      -- The marker of the text would end before the other one begins.
      obtain ⟨rfl, rfl⟩ := List.cons_eq_cons.1 hrest
      have hv : '>' ∉ v := by
        obtain ⟨w, rfl⟩ := List.prefix_of_prefix_length_le ⟨t, hu⟩ (List.prefix_append _ _) ha
        rw [List.append_assoc, List.append_cancel_left_eq] at hu
        rw [hu] at ht
        exact fun hmem => ht (by simp [hmem])
      have hnone := ((blocks_bracket (name' ++ '>' :: after')).append_left hv).readMarker?_eq_none
      cases hmarker.symm.trans hnone
  · cases u with
    | nil =>
      obtain ⟨-, rfl⟩ := List.cons_eq_cons.1 hrest
      obtain ⟨rfl, rfl⟩ := Prod.mk.inj (Option.some.inj (hmarker.symm.trans hmarker'))
      exact ⟨by simpa using hu, rfl, rfl⟩
    | cons x v =>
      -- The other marker would begin before the first one.
      obtain ⟨rfl, hv⟩ := List.cons_eq_cons.1 hrest
      have hnone := h (a ++ t) v hu
      cases hmarker'.symm.trans ((congrArg readMarker? hv).trans hnone)

end BoundSql.Fragment
