import BoundSql.Proofs.Wire.Integers
import BoundSql.Wire.Numeric
import Mathlib.Data.List.TakeWhile
import Mathlib.Tactic.NormNum

/-!
# Groups of four digits

The groups of four digits of a number stand for it (`groupsValue_digitGroups`), those at the end
that are zero for its last digits (`exists_trimmed`), and they are read from their bytes again
(`readGroups?_flatMap`).
-/

namespace BoundSql.Wire

open Numeral (pow2)

variable {total n k group : ℕ} {groups : List ℕ}

/-- The number that groups of four digits stand for behind the digits of another number. -/
def groupsValue (total : ℕ) (groups : List ℕ) : ℕ :=
  groups.foldl (fun total group => total * 10000 + group) total

@[simp]
theorem groupsValue_nil (total : ℕ) : groupsValue total [] = total := rfl

@[simp]
theorem groupsValue_cons (total group : ℕ) (groups : List ℕ) :
    groupsValue total (group :: groups) = groupsValue (total * 10000 + group) groups := rfl

theorem groupsValue_append (total : ℕ) (first second : List ℕ) :
    groupsValue total (first ++ second) = groupsValue (groupsValue total first) second :=
  List.foldl_append

/-- More groups do not make a number less. -/
theorem mul_pow_le_groupsValue (total : ℕ) (groups : List ℕ) :
    total * 10000 ^ groups.length ≤ groupsValue total groups := by
  induction groups generalizing total with
  | nil => simp
  | cons group groups ih =>
    calc total * 10000 ^ (groups.length + 1)
        = total * 10000 * 10000 ^ groups.length := by ring
      _ ≤ (total * 10000 + group) * 10000 ^ groups.length :=
        Nat.mul_le_mul_right _ (Nat.le_add_right _ _)
      _ ≤ groupsValue (total * 10000 + group) groups := ih _

/-- The groups in front of the last ones stand for no more than the number without these. -/
theorem groupsValue_take_le {places bound : ℕ} (hplaces : places ≤ groups.length)
    (hvalue : groupsValue 0 groups ≤ bound * 10000 ^ places) :
    groupsValue 0 (groups.take (groups.length - places)) ≤ bound := by
  have hbehind : groups.length - (groups.length - places) = places := by omega
  have hfirst := mul_pow_le_groupsValue (groupsValue 0 (groups.take (groups.length - places)))
    (groups.drop (groups.length - places))
  rw [← groupsValue_append, List.take_append_drop, List.length_drop, hbehind] at hfirst
  exact Nat.le_of_mul_le_mul_right (hfirst.trans hvalue) (Nat.pow_pos (by decide))

/-- Groups of zero count like zeros behind a number. -/
theorem groupsValue_replicate_zero (total k : ℕ) :
    groupsValue total (List.replicate k 0) = total * 10000 ^ k := by
  induction k generalizing total with
  | zero => simp
  | succ k ih =>
    rw [List.replicate_succ, groupsValue_cons, ih]
    ring

/-! ### The groups of a number -/

/-- The groups of a number stand for it. -/
theorem groupsValue_digitGroups (n : ℕ) : groupsValue 0 (digitGroups n) = n := by
  fun_induction digitGroups n with
  | case1 => rfl
  | case2 n hne ih =>
    rw [groupsValue_append, ih, groupsValue_cons, groupsValue_nil]
    omega

/-- No group of a number has more than four digits. -/
theorem lt_of_mem_digitGroups (h : group ∈ digitGroups n) : group < 10000 := by
  fun_induction digitGroups n with
  | case1 => cases h
  | case2 n hne ih =>
    rcases List.mem_append.1 h with h | h
    · exact ih h
    · rw [List.mem_singleton.1 h]
      exact Nat.mod_lt _ (by decide)

/-- A number has no more groups than its size allows. -/
theorem length_digitGroups_le (h : n < 10000 ^ k) : (digitGroups n).length ≤ k := by
  fun_induction digitGroups n generalizing k with
  | case1 => exact Nat.zero_le k
  | case2 n hne ih =>
    cases k with
    | zero => omega
    | succ k =>
      have hlt : n / 10000 < 10000 ^ k := by
        rw [Nat.div_lt_iff_lt_mul (by decide)]
        rwa [← pow_succ]
      have hle := ih hlt
      simpa using hle

/-- Groups that are zero are left out at the end only. -/
theorem exists_trimmed (groups : List ℕ) :
    ∃ zeros, groups = trimGroups groups ++ List.replicate zeros 0 := by
  have hzero : groups.reverse.takeWhile (· = 0) =
      List.replicate (groups.reverse.takeWhile (· = 0)).length 0 :=
    List.eq_replicate_of_mem fun g hg => by simpa using List.mem_takeWhile_imp hg
  refine ⟨(groups.reverse.takeWhile (· = 0)).length, ?_⟩
  calc groups
      = (groups.reverse.takeWhile (· = 0) ++ groups.reverse.dropWhile (· = 0)).reverse := by
        rw [List.takeWhile_append_dropWhile, List.reverse_reverse]
    _ = trimGroups groups ++ (groups.reverse.takeWhile (· = 0)).reverse := by
        rw [List.reverse_append]
        rfl
    _ = trimGroups groups ++ List.replicate (groups.reverse.takeWhile (· = 0)).length 0 := by
        rw [← List.reverse_replicate, ← hzero]

/-! ### The bytes of groups -/

/-- Groups are read from their bytes. -/
theorem readGroups?_flatMap (h : ∀ g ∈ groups, g < 10000) :
    readGroups? groups.length (groups.flatMap (natBytes 2)) = some groups := by
  induction groups with
  | nil => rfl
  | cons group groups ih =>
    have hgroup : group < pow2 (8 * 2) := lt_trans (h group (by simp)) (by norm_num)
    rw [List.length_cons, readGroups?, List.flatMap_cons, takeNat?_natBytes hgroup]
    simp only [Option.bind_eq_bind, Option.bind_some, ih fun g hg => h g (List.mem_cons_of_mem _ hg),
      Option.pure_def]

end BoundSql.Wire
