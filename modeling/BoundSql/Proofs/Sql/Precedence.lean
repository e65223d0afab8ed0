import BoundSql.Proofs.Sql.Formula
import BoundSql.Proofs.Sql.Lexing

/-!
# Reading conditions

How a database reads the text of a condition: what stands in parentheses belongs together, and AND
binds tighter than OR. The reader goes through the lexemes from left to right and keeps a frame for
every parenthesis that is open, with the alternatives that are complete and the factors of the one
that is not: AND goes on with the factors, OR completes an alternative, and a closing parenthesis
makes a factor of the frame around it.

* `readFormula?`: the formula at the start of a text, and what follows it;
* `readClause?`: the formula behind a keyword.
-/

namespace BoundSql.Sql

/-- Read a name, which may be qualified. -/
def Reference.read? : List Lexeme → Option (Reference × List Lexeme)
  | .name qualifier :: .mark '.' :: .name name :: rest => some (⟨some qualifier, name⟩, rest)
  | .name name :: rest => some (⟨none, name⟩, rest)
  | _ => none

/-- Read the rest of a list of parameters behind the first one, up to its closing parenthesis. -/
def readLabels? : List Lexeme → Option (List String × List Lexeme)
  | .mark ')' :: rest => some ([], rest)
  | .mark ',' :: .parameter label :: rest =>
    (readLabels? rest).map fun (labels, rest) => (label :: labels, rest)
  | _ => none

/-- Read the right side of a comparison. -/
def Operand.read? : List Lexeme → Option (Operand × List Lexeme)
  | .parameter label :: rest => some (.parameter label, rest)
  | lexemes => (Reference.read? lexemes).map fun (r, rest) => (.column r, rest)

/-- Read what follows the column of a condition. -/
def Atom.readTest? (column : Reference) : List Lexeme → Option (Atom × List Lexeme)
  | .word "IS" :: .word "NULL" :: rest => some (.isNull column, rest)
  | .word "IN" :: .mark '(' :: .parameter first :: rest =>
    (readLabels? rest).map fun (others, rest) => (.among column first others, rest)
  | .operator text :: rest =>
    match Comparison.ofText? text with
    | some op => (Operand.read? rest).map fun (right, rest) => (.compare column op right, rest)
    | none => none
  | _ => none

/-- Read a condition without connectives. -/
def Atom.read? : List Lexeme → Option (Atom × List Lexeme)
  | .word "1" :: .operator "=" :: .word "0" :: rest => some (.never, rest)
  | lexemes => (Reference.read? lexemes).bind fun (column, rest) => Atom.readTest? column rest

section Length

variable {lexemes rest : List Lexeme}

/-- Reading a name uses up lexemes. -/
theorem Reference.length_read?_lt {r : Reference} (h : read? lexemes = some (r, rest)) :
    rest.length < lexemes.length := by
  unfold read? at h
  split at h
  · obtain ⟨-, rfl⟩ := Prod.mk.inj (Option.some.inj h)
    simp only [List.length_cons]
    omega
  · obtain ⟨-, rfl⟩ := Prod.mk.inj (Option.some.inj h)
    exact Nat.lt_succ_self _
  · cases h

/-- Reading the rest of a list of parameters uses up lexemes. -/
theorem length_readLabels?_lt {labels : List String}
    (h : readLabels? lexemes = some (labels, rest)) : rest.length < lexemes.length := by
  fun_induction readLabels? lexemes generalizing labels with
  | case1 others =>
    obtain ⟨-, rfl⟩ := Prod.mk.inj (Option.some.inj h)
    exact Nat.lt_succ_self _
  | case2 label others ih =>
    obtain ⟨⟨found, left⟩, hfound, heq⟩ := Option.map_eq_some_iff.1 h
    obtain ⟨-, rfl⟩ := Prod.mk.inj heq
    have hlt := ih hfound
    simp only [List.length_cons]
    omega
  | case3 => cases h

/-- Reading the right side of a comparison uses up lexemes. -/
theorem Operand.length_read?_lt {right : Operand} (h : read? lexemes = some (right, rest)) :
    rest.length < lexemes.length := by
  unfold read? at h
  split at h
  · obtain ⟨-, rfl⟩ := Prod.mk.inj (Option.some.inj h)
    exact Nat.lt_succ_self _
  · obtain ⟨⟨r, left⟩, hr, heq⟩ := Option.map_eq_some_iff.1 h
    obtain ⟨-, rfl⟩ := Prod.mk.inj heq
    exact Reference.length_read?_lt hr

/-- Reading what follows a column uses up lexemes. -/
theorem Atom.length_readTest?_lt {column : Reference} {a : Atom}
    (h : readTest? column lexemes = some (a, rest)) : rest.length < lexemes.length := by
  unfold readTest? at h
  split at h
  · obtain ⟨-, rfl⟩ := Prod.mk.inj (Option.some.inj h)
    simp only [List.length_cons]
    omega
  · obtain ⟨⟨others, left⟩, hothers, heq⟩ := Option.map_eq_some_iff.1 h
    obtain ⟨-, rfl⟩ := Prod.mk.inj heq
    have hlt := length_readLabels?_lt hothers
    simp only [List.length_cons]
    omega
  · split at h
    · obtain ⟨⟨right, left⟩, hright, heq⟩ := Option.map_eq_some_iff.1 h
      obtain ⟨-, rfl⟩ := Prod.mk.inj heq
      exact Nat.lt_succ_of_lt (Operand.length_read?_lt hright)
    · cases h
  · cases h

/-- Reading a condition without connectives uses up lexemes. -/
theorem Atom.length_read?_lt {a : Atom} (h : read? lexemes = some (a, rest)) :
    rest.length < lexemes.length := by
  unfold read? at h
  split at h
  · obtain ⟨-, rfl⟩ := Prod.mk.inj (Option.some.inj h)
    simp only [List.length_cons]
    omega
  · obtain ⟨⟨column, left⟩, hcolumn, htest⟩ := Option.bind_eq_some_iff.1 h
    have hlt := Reference.length_read?_lt hcolumn
    have hlt' := Atom.length_readTest?_lt htest
    omega

end Length

/-- What was read behind an opening parenthesis, or since the start. -/
structure Frame where
  /-- The alternatives that are complete. -/
  alternatives : List Formula := []
  /-- The factors of the alternative that is not. -/
  factors : List Formula := []

namespace Frame

/-- One more factor. -/
def factor (frame : Frame) (f : Formula) : Frame :=
  { frame with factors := frame.factors ++ [f] }

/-- The alternative is complete, and another one begins. -/
def alternative (frame : Frame) : Frame :=
  { alternatives := frame.alternatives ++ [.joined .and frame.factors] }

/-- The formula that was read when nothing more belongs to it. -/
def formula (frame : Frame) : Formula :=
  .joined .or (frame.alternatives ++ [.joined .and frame.factors])

end Frame

mutual

/-- Read on where a condition or an opening parenthesis has to stand. -/
def readOperand? (outer : List Frame) (frame : Frame) :
    List Lexeme → Option (Formula × List Lexeme)
  | [] => none
  | lexeme :: rest =>
    if lexeme = .mark '(' then readOperand? (frame :: outer) {} rest
    else
      match _h : Atom.read? (lexeme :: rest) with
      | some (a, rest) => readOperator? outer (frame.factor (.atom a)) rest
      | none => none
  termination_by lexemes => lexemes.length
  decreasing_by
    · exact Nat.lt_succ_self _
    · exact Atom.length_read?_lt _h

/-- Read on behind a condition or a closing parenthesis. What can stand there neither as a
connective nor as a closing parenthesis of an open one ends the formula. -/
def readOperator? (outer : List Frame) (frame : Frame) :
    List Lexeme → Option (Formula × List Lexeme)
  | [] => if outer.isEmpty then some (frame.formula, []) else none
  | lexeme :: rest =>
    if lexeme = .word "AND" then readOperand? outer frame rest
    else if lexeme = .word "OR" then readOperand? outer frame.alternative rest
    else
      match outer with
      | [] => some (frame.formula, lexeme :: rest)
      | next :: outer =>
        if lexeme = .mark ')' then readOperator? outer (next.factor frame.formula) rest else none
  termination_by lexemes => lexemes.length

end

/-- Read the formula at the start of a text. -/
def readFormula? (lexemes : List Lexeme) : Option (Formula × List Lexeme) :=
  readOperand? [] {} lexemes

/-- Read the formula behind the first occurrence of a keyword. -/
def readClause? (keyword : String) (lexemes : List Lexeme) : Option (Formula × List Lexeme) :=
  readFormula? (lexemes.dropWhile (· ≠ .word keyword)).tail

end BoundSql.Sql
