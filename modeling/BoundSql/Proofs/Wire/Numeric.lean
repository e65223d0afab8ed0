import BoundSql.Proofs.Numeral.DecimalValue
import BoundSql.Proofs.Wire.Groups

/-!
# Decimals read back

What is sent for a decimal is read as that decimal, with its scale and its sign
(`readNumeric?_numericBytes`); only of a zero neither is kept (`readNumeric?_numericBytes_zero`).

The groups are added up one by one, and no digit is rounded away on the way: all that was added up
before the last group is an integer part of the coefficient, and so has room, and the last group
ends with as many zeros as there is too little room for (`Stands`, `exists_addFraction?`).

* `SentAs`: the groups as which a decimal is sent, of which some at the end are left out;
* `numericParts?`: what a binary form is made of, before the groups are added up.
-/

namespace BoundSql

open Numeral (Decimal pow2 pow10)

namespace Wire

variable {sum : ℕ × ℕ} {total power part coefficient scale places zeros : ℕ}
  {groups kept : List ℕ}

/-- A sum given by its coefficient and its scale is `total / 10 ^ power`. -/
structure Stands (sum : ℕ × ℕ) (total power : ℕ) : Prop where
  /-- There are no more digits behind the point. -/
  scale_le : sum.2 ≤ power
  /-- With zeros behind it the coefficient is the total. -/
  value_eq : sum.1 * 10 ^ (power - sum.2) = total

/-- A number has room in a coefficient if up to `places` zeros at its end are left out. -/
def HasRoom (n places : ℕ) : Prop :=
  ∃ zeros ≤ places, ∃ coefficient < Decimal.capacity, n = coefficient * 10 ^ zeros

theorem hasRoom_of_lt {n : ℕ} (h : n < Decimal.capacity) (places : ℕ) : HasRoom n places :=
  ⟨0, Nat.zero_le _, n, h, by simp⟩

theorem HasRoom.mono {n places' : ℕ} (h : HasRoom n places) (hle : places ≤ places') :
    HasRoom n places' := by
  obtain ⟨zeros, hzeros, hn⟩ := h
  exact ⟨zeros, hzeros.trans hle, hn⟩

/-- What ends with more digits than a coefficient can leave out has room without them. -/
theorem HasRoom.lt_capacity {m n : ℕ} (h : HasRoom n 3) (hle : m * 10000 ≤ n) :
    m < Decimal.capacity := by
  obtain ⟨zeros, hzeros, coefficient, hlt, rfl⟩ := h
  have hten : coefficient * 10 ^ zeros ≤ coefficient * 10 ^ 3 :=
    Nat.mul_le_mul_left _ (Nat.pow_le_pow_right (by decide) hzeros)
  omega

/-- A number that has room has no more than eight groups. -/
theorem HasRoom.lt_pow {n : ℕ} (h : HasRoom n 3) : n < 10000 ^ 8 := by
  obtain ⟨zeros, hzeros, coefficient, hlt, rfl⟩ := h
  have hcapacity : coefficient < 79228162514264337593543950336 := hlt
  calc coefficient * 10 ^ zeros ≤ coefficient * 10 ^ 3 :=
        Nat.mul_le_mul_left _ (Nat.pow_le_pow_right (by decide) hzeros)
    _ < 10000 ^ 8 := by omega

/-- Zeros behind a sum do not change it. -/
theorem Stands.pad (h : Stands sum total power) (k : ℕ) :
    Stands sum (total * 10 ^ k) (power + k) := by
  refine ⟨h.scale_le.trans (Nat.le_add_right _ _), ?_⟩
  rw [← h.value_eq, Nat.mul_assoc, ← pow_add, Nat.sub_add_comm h.scale_le]

/-! ### Adding up groups -/

/-- Only zeros are left out of a number that has room then. -/
theorem exists_shrink? {n : ℕ} (h : HasRoom n scale) :
    ∃ sum, shrink? n scale = some sum ∧ Stands sum n scale := by
  obtain ⟨zeros, hzeros, coefficient, hlt, rfl⟩ := h
  have hpos : ∀ k, 0 < 10 ^ k := fun k => Nat.pow_pos (by decide)
  have hfits : coefficient * 10 ^ zeros / 10 ^ zeros < Decimal.capacity := by
    rwa [Nat.mul_div_cancel _ (hpos zeros)]
  rw [shrink?]
  simp only [Numeral.pow10_eq]
  -- The number of zeros that are left out is the least that is enough.
  cases hfind : (List.range (scale + 1)).find? fun drop =>
      coefficient * 10 ^ zeros / 10 ^ drop < Decimal.capacity with
  | none =>
    have hnone := List.find?_eq_none.1 hfind zeros (List.mem_range.2 (by omega))
    exact absurd hfits (by simpa only [decide_eq_true_eq] using hnone)
  | some drop =>
    obtain ⟨hroom, -, hleast⟩ := List.find?_range_eq_some.1 hfind
    have hle : drop ≤ zeros := by
      by_contra hgt
      have hearlier := hleast zeros (by omega)
      rw [decide_eq_true hfits] at hearlier
      cases hearlier
    have hsplit : coefficient * 10 ^ zeros = coefficient * 10 ^ (zeros - drop) * 10 ^ drop := by
      rw [Nat.mul_assoc, ← pow_add, Nat.sub_add_cancel hle]
    rw [decide_eq_true_eq, hsplit, Nat.mul_div_cancel _ (hpos drop)] at hroom
    refine ⟨(coefficient * 10 ^ (zeros - drop), scale - drop), ?_, Nat.sub_le _ _, ?_⟩
    · simp only [hsplit, Option.bind_eq_bind, Option.bind_some,
        Numeral.divNearestEven_mul _ (hpos drop), if_pos hroom, Option.pure_def]
    · rw [hsplit, Nat.sub_sub_self (hle.trans hzeros)]

/-- A group is added to a sum without rounding if there is room. -/
theorem exists_addPart? (hsum : Stands sum total power)
    (hroom : HasRoom (total * 10000 + part) (power + 4)) :
    ∃ sum', addPart? sum part (power + 4) = some sum' ∧
      Stands sum' (total * 10000 + part) (power + 4) := by
  have hpadded : Stands sum (total * 10000) (power + 4) := hsum.pad 4
  rw [addPart?]
  split_ifs with hpart
  · exact ⟨sum, rfl, by rwa [hpart, Nat.add_zero]⟩
  · have hmax : max sum.2 (power + 4) = power + 4 := Nat.max_eq_right hpadded.scale_le
    have htotal : sum.1 * pow10 (power + 4 - sum.2) + part * pow10 (power + 4 - (power + 4)) =
        total * 10000 + part := by
      rw [Numeral.pow10_eq, hpadded.value_eq, Nat.sub_self, Numeral.pow10_eq, pow_zero, Nat.mul_one]
    simp only [hmax, htotal]
    exact exists_shrink? hroom

/-- Groups behind the point are added up without rounding, if the number has room up to three zeros
at its end. What was added up before the last group is less than it without these zeros. -/
theorem exists_addFraction? (hsum : Stands sum total power)
    (hplaces : power + 4 * groups.length ≤ Decimal.maxScale)
    (hroom : HasRoom (groupsValue total groups) 3) :
    ∃ sum', addFraction? (power + 4) groups sum = some sum' ∧
      Stands sum' (groupsValue total groups) (power + 4 * groups.length) := by
  induction groups generalizing sum total power with
  | nil => exact ⟨sum, rfl, hsum⟩
  | cons group groups ih =>
    rw [List.length_cons] at hplaces
    have hnext : HasRoom (total * 10000 + group) (power + 4) := by
      cases groups with
      | nil => exact hroom.mono (by omega)
      | cons second groups =>
        rw [groupsValue_cons] at hroom
        refine hasRoom_of_lt (hroom.lt_capacity ?_) _
        calc (total * 10000 + group) * 10000
            ≤ (total * 10000 + group) * 10000 ^ (second :: groups).length :=
              Nat.mul_le_mul_left _ (Nat.le_self_pow (by simp) _)
          _ ≤ groupsValue (total * 10000 + group) (second :: groups) := mul_pow_le_groupsValue _ _
    obtain ⟨next, hadd, hstands⟩ := exists_addPart? hsum hnext
    obtain ⟨sum', hrest, hstands'⟩ := ih hstands (by omega) hroom
    refine ⟨sum', ?_, ?_⟩
    · rw [addFraction?, if_pos (by omega), hadd]
      exact hrest
    · have hpower : power + 4 + 4 * groups.length = power + 4 * (groups.length + 1) := by ring
      exact hpower ▸ hstands'

/-- Groups before the point are added up if they have room. -/
theorem integerPart?_eq (hlength : places ≤ groups.length)
    (hlt : groupsValue total (groups.take places) < Decimal.capacity) :
    integerPart? places groups total = some (groupsValue total (groups.take places)) := by
  induction places generalizing groups total with
  | zero => rfl
  | succ places ih =>
    cases groups with
    | nil => cases hlength
    | cons group groups =>
      rw [List.take_succ_cons, groupsValue_cons] at hlt ⊢
      have hahead : total * 10000 + group < Decimal.capacity :=
        lt_of_le_of_lt ((Nat.le_mul_of_pos_right _ (Nat.pow_pos (by decide))).trans
          (mul_pow_le_groupsValue _ _)) hlt
      exact (if_pos hahead).trans (ih (Nat.le_of_succ_le_succ hlength) hlt)

/-! ### The scale of a sum -/

/-- A coefficient takes as many zeros as it has room for. -/
theorem growScale_eq {steps : ℕ} (h : coefficient * 10 ^ steps < Decimal.capacity) :
    growScale steps coefficient scale = (coefficient * 10 ^ steps, scale + steps) := by
  induction steps generalizing coefficient scale with
  | zero => simp [growScale]
  | succ steps ih =>
    have hsplit : coefficient * 10 ^ (steps + 1) = coefficient * 10 * 10 ^ steps := by ring
    have hnext : coefficient * 10 < Decimal.capacity :=
      lt_of_le_of_lt (Nat.le_mul_of_pos_right _ (Nat.pow_pos (by decide))) (hsplit ▸ h)
    rw [growScale, if_pos hnext, ih (hsplit ▸ h), hsplit, Nat.add_assoc, Nat.add_comm 1]

/-- The sum for a decimal is brought back to its coefficient and scale. -/
theorem rescale_eq (hsum : Stands sum (coefficient * 10 ^ (power - scale)) power)
    (hscale : scale ≤ power) (hne : coefficient ≠ 0) (hlt : coefficient < Decimal.capacity) :
    rescale sum.1 sum.2 scale = (coefficient, scale) := by
  obtain ⟨hfound, hvalue⟩ := hsum
  have hpos : ∀ k, 0 < 10 ^ k := fun k => Nat.pow_pos (by decide)
  have hsum : sum.1 ≠ 0 := by
    intro hzero
    rw [hzero, Nat.zero_mul] at hvalue
    exact hne ((Nat.mul_eq_zero.1 hvalue.symm).resolve_right (hpos _).ne')
  rw [rescale, if_neg hsum]
  split_ifs with htarget
  · -- The zeros that were kept at the end are dropped.
    have hkept : sum.1 = coefficient * 10 ^ (sum.2 - scale) := by
      have hsplit : power - scale = sum.2 - scale + (power - sum.2) := by omega
      rw [hsplit, pow_add, ← Nat.mul_assoc] at hvalue
      exact Nat.eq_of_mul_eq_mul_right (hpos _) hvalue
    rw [hkept, Numeral.pow10_eq, Numeral.divNearestUp_mul _ (hpos _)]
  · -- Too many zeros were left out.
    have hout : sum.1 * 10 ^ (scale - sum.2) = coefficient := by
      have hsplit : power - sum.2 = scale - sum.2 + (power - scale) := by omega
      rw [hsplit, pow_add, ← Nat.mul_assoc] at hvalue
      exact Nat.eq_of_mul_eq_mul_right (hpos _) hvalue
    rw [growScale_eq (hout ▸ hlt), hout, Nat.add_sub_cancel' (by omega)]

/-! ### The binary form of a decimal -/

/-- The sum of groups of which the first counts for `10000 ^ weight`. -/
def sumGroups? (weight : ℤ) (groups : List ℕ) : Option (ℕ × ℕ) := do
  let integer ← integerPart? (weight + 1).toNat groups 0
  addFraction? (4 * ((-(weight + 1)).toNat + 1)) (groups.drop (weight + 1).toNat) (integer, 0)

/-- The binary form of a decimal. -/
def numericLayout (negative : Bool) (scale : ℕ) (weight : ℤ) (groups : List ℕ) : List UInt8 :=
  natBytes 2 groups.length ++ intBytes 2 weight ++
    natBytes 2 (if negative then minusSign else 0) ++ natBytes 2 scale ++
    groups.flatMap (natBytes 2)

/-- What the binary form of a decimal is made of. -/
structure NumericParts where
  /-- Whether there is a minus sign. -/
  negative : Bool
  /-- How many digits stand behind the point. -/
  scale : ℕ
  /-- The first group counts for `10000 ^ weight`. -/
  weight : ℤ
  /-- The groups of four digits. -/
  groups : List ℕ

/-- Read the parts of a binary form. -/
def numericParts? (bytes : List UInt8) : Option NumericParts := do
  let (count, bytes) ← takeNat? 2 bytes
  let (weight, bytes) ← takeNat? 2 bytes
  let (sign, bytes) ← takeNat? 2 bytes
  let (scale, bytes) ← takeNat? 2 bytes
  let groups ← readGroups? count bytes
  guard (sign = 0 ∨ sign = minusSign)
  return ⟨sign = minusSign, scale, (weight : ℤ).bmod 65536, groups⟩

/-- The parts of a binary form are read back. -/
theorem numericParts?_numericLayout {negative : Bool} {weight : ℤ}
    (hgroups : ∀ g ∈ groups, g < 10000) (hlength : groups.length < 2 ^ 15)
    (hweight : -2 ^ 15 ≤ weight ∧ weight < 2 ^ 15) (hscale : scale ≤ Decimal.maxScale) :
    numericParts? (numericLayout negative scale weight groups) =
      some ⟨negative, scale, weight, groups⟩ := by
  have hcount : groups.length < pow2 (8 * 2) := lt_trans hlength (by decide)
  have hsign : (if negative then minusSign else 0) < pow2 (8 * 2) := by
    cases negative <;> decide
  have hbits : (weight % (pow2 (8 * 2) : ℕ)).toNat < pow2 (8 * 2) := by
    have := Int.emod_lt_of_pos weight (by decide : (0 : ℤ) < (pow2 (8 * 2) : ℕ))
    omega
  have hread : (((weight % (pow2 (8 * 2) : ℕ)).toNat : ℤ)).bmod 65536 = weight := by
    rw [Int.toNat_of_nonneg (Int.emod_nonneg _ (by decide))]
    exact (Int.emod_bmod weight 65536).trans (Int.bmod_eq_of_le_mul_two (by omega) (by omega))
  have hplaces : scale < pow2 (8 * 2) := lt_of_le_of_lt hscale (by decide)
  have hguard : (guard ((if negative then minusSign else 0) = 0 ∨
      (if negative then minusSign else 0) = minusSign) : Option Unit) = some () := by
    cases negative <;> rfl
  rw [numericParts?, numericLayout, intBytes]
  simp only [List.append_assoc]
  -- The parts are read in turn; each reader leaves the next part in front.
  simp only [takeNat?_natBytes hcount, takeNat?_natBytes hbits, takeNat?_natBytes hsign,
    takeNat?_natBytes hplaces, readGroups?_flatMap hgroups, hguard, hread, Option.bind_eq_bind,
    Option.bind_some]
  cases negative <;> rfl

/-- What becomes of the parts of a binary form, field by field. -/
theorem numericParts?_bind {α : Type} (bytes : List UInt8) (f : NumericParts → Option α) :
    (numericParts? bytes).bind f =
      (takeNat? 2 bytes).bind fun (count, bytes) => (takeNat? 2 bytes).bind fun (weight, bytes) =>
      (takeNat? 2 bytes).bind fun (sign, bytes) => (takeNat? 2 bytes).bind fun (scale, bytes) =>
      (readGroups? count bytes).bind fun groups =>
      (guard (sign = 0 ∨ sign = minusSign) : Option Unit).bind fun _ =>
        f ⟨sign = minusSign, scale, (weight : ℤ).bmod 65536, groups⟩ := by
  rw [numericParts?]
  simp only [Option.bind_eq_bind, Option.bind_assoc]
  rfl

/-- A decimal is the sum of the groups, brought to the number of digits that was sent. -/
theorem readNumeric?_eq (bytes : List UInt8) :
    readNumeric? bytes = (numericParts? bytes).bind fun parts =>
      (sumGroups? parts.weight parts.groups).bind fun sum =>
        let (coefficient, scale) := rescale sum.1 sum.2 (min parts.scale Decimal.maxScale)
        Decimal.ofSignedParts? parts.negative coefficient scale := by
  rw [readNumeric?, numericParts?_bind]
  simp only [sumGroups?, Option.bind_eq_bind, Option.bind_assoc]

/-- Groups that are left out at the end are zeros behind the number. -/
theorem groupsValue_of_kept (hkept : groups = kept ++ List.replicate zeros 0) :
    groupsValue 0 groups = groupsValue 0 kept * 10000 ^ zeros := by
  rw [hkept, groupsValue_append, groupsValue_replicate_zero]

/-- Groups are added up, and those that are left out at the end behind the point do not matter. -/
theorem exists_sumGroups? (hkept : groups = kept ++ List.replicate zeros 0)
    (hbefore : groups.length - places ≤ kept.length) (hscale : 4 * places ≤ Decimal.maxScale)
    (hroom : HasRoom (groupsValue 0 groups) 3)
    (hinteger : groupsValue 0 (groups.take (groups.length - places)) < Decimal.capacity) :
    ∃ sum, sumGroups? ((groups.length : ℤ) - places - 1) kept = some sum ∧
      Stands sum (groupsValue 0 groups) (4 * places) := by
  have hlength : groups.length = kept.length + zeros := by
    rw [hkept, List.length_append, List.length_replicate]
  have hvalue := groupsValue_of_kept hkept
  have htake : groups.take (groups.length - places) = kept.take (groups.length - places) :=
    (congrArg (List.take _) hkept).trans (List.take_append_of_le_length hbefore)
  have hahead : ((groups.length : ℤ) - places - 1 + 1).toNat = groups.length - places := by omega
  have hbehind : (-((groups.length : ℤ) - places - 1 + 1)).toNat = places - groups.length := by
    omega
  rw [htake] at hinteger
  have hpart := integerPart?_eq hbefore hinteger
  -- There are zeros in front of the first group only where nothing stands before the point.
  have hstart : Stands (groupsValue 0 (kept.take (groups.length - places)), 0)
      (groupsValue 0 (kept.take (groups.length - places))) (4 * (places - groups.length)) := by
    rcases Nat.le_total places groups.length with hle | hle
    · rw [Nat.sub_eq_zero_of_le hle]
      exact ⟨le_rfl, Nat.mul_one _⟩
    · rw [Nat.sub_eq_zero_of_le hle]
      exact ⟨Nat.zero_le _, Nat.zero_mul _⟩
  have hsplit : groupsValue (groupsValue 0 (kept.take (groups.length - places)))
      (kept.drop (groups.length - places)) = groupsValue 0 kept := by
    rw [← groupsValue_append, List.take_append_drop]
  have hrest : HasRoom (groupsValue 0 kept) 3 := by
    rcases Nat.eq_zero_or_pos zeros with rfl | hpos
    · rwa [hvalue, pow_zero, Nat.mul_one] at hroom
    · exact hasRoom_of_lt (hroom.lt_capacity (hvalue ▸
        Nat.mul_le_mul_left _ (Nat.le_self_pow hpos.ne' _))) _
  obtain ⟨sum, hadd, hstands⟩ := exists_addFraction? hstart
    (by rw [List.length_drop]; omega) (hsplit ▸ hrest)
  refine ⟨sum, ?_, ?_⟩
  · rw [sumGroups?, hahead, hpart, hbehind]
    exact hadd
  · have hpadded := hstands.pad (4 * zeros)
    have hpower : 4 * (places - groups.length) +
        4 * (kept.drop (groups.length - places)).length + 4 * zeros = 4 * places := by
      rw [List.length_drop]
      omega
    have hzeros : (10 : ℕ) ^ (4 * zeros) = 10000 ^ zeros := pow_mul 10 4 zeros
    rwa [hpower, hsplit, hzeros, ← hvalue] at hpadded

/-- How a decimal is sent: as its sign, its scale and groups, of which `places` stand behind the point
and `zeros` are left out. -/
structure SentAs (d : Decimal) (groups kept : List ℕ) (places zeros : ℕ) : Prop where
  /-- The binary form. -/
  bytes_eq : numericBytes d =
    numericLayout d.negative d.scale ((groups.length : ℤ) - places - 1) kept
  /-- Only groups that are zero are left out, at the end. -/
  groups_eq : groups = kept ++ List.replicate zeros 0
  /-- Only groups behind the point are left out. -/
  before_le : groups.length - places ≤ kept.length
  /-- No group has more than four digits. -/
  lt_of_mem : ∀ g ∈ groups, g < 10000
  /-- There are few groups. -/
  length_le : groups.length ≤ 8
  /-- There are as many groups behind the point as the scale needs. -/
  places_eq : (d.scale + 3) / 4 = places
  /-- The groups stand for the coefficient, filled up with zeros. -/
  value_eq : groupsValue 0 groups = d.coefficient * 10 ^ (4 * places - d.scale)

/-- A decimal other than zero is sent as groups. -/
theorem exists_sentAs {d : Decimal} (hne : d.coefficient ≠ 0) :
    ∃ groups kept places zeros, SentAs d groups kept places zeros := by
  have hscale : d.scale ≤ 28 := d.scale_le
  obtain ⟨places, hplaces⟩ : ∃ places, (d.scale + 3) / 4 = places := ⟨_, rfl⟩
  have hroom : HasRoom (d.coefficient * 10 ^ (4 * places - d.scale)) 3 :=
    ⟨_, by omega, d.coefficient, d.coefficient_lt, rfl⟩
  have hbytes := if_neg hne ▸ numericBytes.eq_1 d
  have hvalue := groupsValue_digitGroups (d.coefficient * 10 ^ (4 * places - d.scale))
  have hdigits : ∀ g ∈ digitGroups (d.coefficient * 10 ^ (4 * places - d.scale)), g < 10000 :=
    fun _ => lt_of_mem_digitGroups
  have hlength := length_digitGroups_le hroom.lt_pow
  simp only [Numeral.pow10_eq, hplaces] at hbytes
  -- Of the groups only their value, their size and their number matter from here on.
  generalize digitGroups (d.coefficient * 10 ^ (4 * places - d.scale)) = groups at *
  rw [← numericLayout] at hbytes
  by_cases hweight : ((groups.length : ℤ) - places - 1) < 0
  · rw [if_pos hweight] at hbytes
    exact ⟨groups, groups, places, 0, hbytes, by simp, Nat.sub_le _ _, hdigits, hlength, hplaces,
      hvalue⟩
  · rw [if_neg hweight] at hbytes
    obtain ⟨zeros, hzeros⟩ := exists_trimmed (groups.drop (groups.length - places))
    refine ⟨groups, _, places, zeros, hbytes, ?_, ?_, hdigits, hlength, hplaces, hvalue⟩
    · rw [List.append_assoc, ← hzeros, List.take_append_drop]
    · rw [List.length_append, List.length_take]
      omega

/-- The parts of what is sent for a decimal other than zero. -/
theorem SentAs.numericParts?_eq {d : Decimal} (h : SentAs d groups kept places zeros) :
    numericParts? (numericBytes d) =
      some ⟨d.negative, d.scale, (groups.length : ℤ) - places - 1, kept⟩ := by
  have hscale : d.scale ≤ 28 := d.scale_le
  have hlength := h.length_le
  have hplaces := h.places_eq
  have hkept : kept.length ≤ groups.length := by simp [h.groups_eq]
  rw [h.bytes_eq]
  exact numericParts?_numericLayout
    (fun g hg => h.lt_of_mem g (h.groups_eq ▸ List.mem_append_left _ hg)) (by omega) (by omega)
    d.scale_le

/-- What is sent for a decimal other than zero is read as this decimal. -/
theorem readNumeric?_numericBytes {d : Decimal} (hne : d.coefficient ≠ 0) :
    readNumeric? (numericBytes d) = some d := by
  obtain ⟨groups, kept, places, zeros, h⟩ := exists_sentAs hne
  have hscale : d.scale ≤ 28 := d.scale_le
  have hplaces := h.places_eq
  have hvalue := h.value_eq
  have hmax : 4 * places ≤ Decimal.maxScale := show 4 * places ≤ 28 by omega
  have hroom : HasRoom (groupsValue 0 groups) 3 :=
    ⟨4 * places - d.scale, by omega, d.coefficient, d.coefficient_lt, hvalue⟩
  have hbehind : 10 ^ (4 * places - d.scale) ≤ 10000 ^ places :=
    (Nat.pow_le_pow_right (by decide) (Nat.sub_le _ _)).trans (pow_mul 10 4 places).le
  have hinteger : groupsValue 0 (groups.take (groups.length - places)) < Decimal.capacity := by
    rcases Nat.le_total places groups.length with hle | hle
    · exact lt_of_le_of_lt (groupsValue_take_le hle (hvalue ▸ Nat.mul_le_mul_left _ hbehind))
        d.coefficient_lt
    · rw [Nat.sub_eq_zero_of_le hle, List.take_zero]
      decide
  obtain ⟨sum, hsum, hstands⟩ := exists_sumGroups? h.groups_eq h.before_le hmax hroom hinteger
  have hrescale : rescale sum.1 sum.2 d.scale = (d.coefficient, d.scale) :=
    rescale_eq (hvalue ▸ hstands) (by omega) hne d.coefficient_lt
  have hmin : min d.scale Decimal.maxScale = d.scale := Nat.min_eq_left d.scale_le
  rw [readNumeric?_eq, h.numericParts?_eq]
  simp only [Option.bind_some, hsum, hmin, hrescale]
  simp [Decimal.ofSignedParts?, Decimal.ofParts?, d.coefficient_lt, d.scale_le]

/-- What is sent for a decimal that is zero is read as zero without sign and scale. -/
theorem readNumeric?_numericBytes_zero {d : Decimal} (h : d.coefficient = 0) :
    readNumeric? (numericBytes d) = some ⟨false, 0, 0, by decide, by decide⟩ := by
  rw [numericBytes, if_pos h]
  decide +kernel

end Wire

end BoundSql
