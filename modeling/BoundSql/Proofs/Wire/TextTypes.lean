import BoundSql.Wire.Decode
import Mathlib.Tactic.Common

/-!
# Types that texts are read from and bound to

A value that is read as a text can be bound to a parameter of the type of its column again, if the
type takes texts at all. Enumerations do not: their values are read as texts, and every text that is
bound to one is refused. They are the only types of which this is so.

* `Bound.RefusesText`: a value that is refused because its type takes no text;
* `ColumnType.takesText`: the types that take texts, of whatever form;
* `Wire.refusesText_iff`: the types that refuse the texts that are read from them.
-/

namespace BoundSql

/-- A value is refused with the message that the type takes no text. -/
def Bound.RefusesText (type : ColumnType) (bound : Bound) : Prop :=
  ∃ e, bound.encode type = .error e ∧
    e.message? = some ("cannot bind text parameter as " ++ type.qualifiedName)

/-- Whether a type takes texts: as what they spell, or as they are. -/
def ColumnType.takesText : ColumnType → Bool
  | oid => false
  | type@(other ..) => type.isText || type.isTree
  | _ => true

namespace Wire

variable {type : ColumnType} {bytes : List UInt8} {s : String} {e e' : EncodeError}

/-- The message that a type takes no text is that of no other failure. -/
theorem message?_eq_textAs_iff {name : String} :
    e.message? = some ("cannot bind text parameter as " ++ name) ↔
      ∃ type, e = .textAs type ∧ type.qualifiedName = name := by
  cases e with
  | textAs type => simp [EncodeError.message?]
  | malformedBool text =>
    refine iff_of_false (fun h => ?_) (by simp)
    have hhead := congrArg (fun s : String => s.toList.head?) (Option.some.inj h)
    simp at hhead
  | bytesAs type =>
    refine iff_of_false (fun h => ?_) (by simp)
    have hletter := congrArg (fun s : String => s.toList[12]?) (Option.some.inj h)
    simp at hletter
  | _ => exact iff_of_false nofun (by simp)

/-- A result is missing exactly if there is the failure for it. -/
theorem orFail_eq_error_iff {α : Type} {r : Option α} :
    orFail e r = .error e' ↔ r = none ∧ e = e' := by
  cases r <;> simp [orFail]

/-- A result that is changed fails as it failed before. -/
theorem map_eq_error_iff {ε α β : Type} {f : α → β} {x : Except ε α} {e : ε} :
    x.map f = .error e ↔ x = .error e := by
  cases x <;> simp [Except.map]

/-- A text is refused by a type that takes none, whatever it is, and by no other type. -/
theorem encodeText_eq_textAs_iff {t : ColumnType} :
    encodeText type s = .error (.textAs t) ↔ type.takesText = false ∧ type = t := by
  cases type <;>
    simp [encodeText, orFail_eq_error_iff, map_eq_error_iff, ColumnType.takesText, stringBytes?,
      ColumnType.isText, ColumnType.isTree]
  case other schema name enumeration =>
    -- Only the name of the type decides.
    rintro -
    split_ifs <;> simp_all

/-- A type refuses a text exactly if it takes none. -/
theorem refusesText_bind_str_iff :
    (Value.str s).bind.RefusesText type ↔ type.takesText = false := by
  have hencode : ∀ e, (Value.str s).bind.encode type = .error e ↔ encodeText type s = .error e :=
    fun _ => map_eq_error_iff
  simp only [Bound.RefusesText, hencode, message?_eq_textAs_iff]
  constructor
  · rintro ⟨_, he, t, rfl, -⟩
    exact (encodeText_eq_textAs_iff.1 he).1
  · intro h
    exact ⟨_, encodeText_eq_textAs_iff.2 ⟨h, rfl⟩, type, rfl, rfl⟩

/-- A text is read from a type that takes texts, or from an enumeration. -/
theorem takesText_of_decode? (h : decode? type bytes = some (.str s)) :
    type.takesText ∨ type.isEnumeration := by
  cases type with
  | oid => simp [decode?] at h
  | other schema name enumeration =>
    simp only [decode?] at h
    split_ifs at h with htext henumeration
    · exact .inl htext
    · exact .inr henumeration
    · cases h
  | _ => exact .inl rfl

/-- A text that was read from a column is refused by a parameter of the type of the column exactly if
the type is an enumeration and not one of the types of texts or tree labels. Such a type refuses
every text. -/
theorem refusesText_iff (h : decode? type bytes = some (.str s)) :
    ((Value.str s).bind.RefusesText type ↔ type.isEnumeration ∧ ¬type.isText ∧ ¬type.isTree) ∧
      ((Value.str s).bind.RefusesText type → ∀ text, (Value.str text).bind.RefusesText type) := by
  simp only [refusesText_bind_str_iff]
  refine ⟨⟨fun hrefuses => ?_, ?_⟩, fun hrefuses _ => hrefuses⟩
  · have henumeration : type.isEnumeration :=
      (takesText_of_decode? h).resolve_left (by simp [hrefuses])
    cases type with
    | other schema name enumeration =>
      rw [ColumnType.takesText, Bool.or_eq_false_iff] at hrefuses
      simpa [hrefuses] using henumeration
    | _ => cases henumeration
  · rintro ⟨henumeration, htext, htree⟩
    cases type with
    | other schema name enumeration => simp [ColumnType.takesText, htext, htree]
    | _ => cases henumeration

/-- A label of an enumeration. -/
theorem refusesText_iff_label :
    let level := ColumnType.other "app" "level" true
    decode? level [108, 111, 119] = some (.str "low") ∧
      (Value.str "low").bind.RefusesText level := by
  intro level
  have h : decode? level [108, 111, 119] = some (.str "low") := by decide +kernel
  exact ⟨h, (refusesText_iff h).1.2 (by decide)⟩

/-- A value of an enumeration is read as a text, which a parameter of the same type then refuses. -/
theorem enumeration_refuses_own_text :
    let mood := ColumnType.other "public" "mood" true
    decode? mood [115, 97, 100] = some (.str "sad") ∧
      (Value.str "sad").bind.encode mood = .error (.textAs mood) ∧
      (EncodeError.textAs mood).message? = some "cannot bind text parameter as mood" := by
  refine ⟨by decide +kernel, rfl, rfl⟩

end Wire

end BoundSql
