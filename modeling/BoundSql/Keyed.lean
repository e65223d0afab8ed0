/-!
# Keyed lists

Lists of key-value pairs in insertion order, in which a key occurs at most once. Putting a key that
is present replaces its value and keeps its place; putting a new key appends.
-/

namespace BoundSql

/-- A list of pairs read as a finite map in insertion order. -/
abbrev Keyed (α β : Type) : Type := List (α × β)

namespace Keyed

variable {α β : Type} [DecidableEq α]

/-- Put `value` under `key`: in place of the present value, or at the end. -/
def put (key : α) (value : β) : Keyed α β → Keyed α β
  | [] => [(key, value)]
  | entry :: rest => if entry.1 = key then (key, value) :: rest else entry :: put key value rest

/-- The value under `key`. -/
def get? (key : α) : Keyed α β → Option β
  | [] => none
  | entry :: rest => if entry.1 = key then some entry.2 else get? key rest

/-- Put all pairs of a list in order. -/
def putAll (pairs : List (α × β)) (entries : Keyed α β) : Keyed α β :=
  pairs.foldl (fun entries pair => put pair.1 pair.2 entries) entries

/-- The keys in insertion order. -/
def keys (entries : Keyed α β) : List α := entries.map Prod.fst

/-- What was put under a key is found there. -/
@[simp]
theorem get?_put_self (key : α) (value : β) (entries : Keyed α β) :
    get? key (put key value entries) = some value := by
  induction entries with
  | nil => simp [put, get?]
  | cons entry rest ih =>
    by_cases h : entry.1 = key
    · simp [put, get?, h]
    · simp [put, get?, h, ih]

/-- What is under the other keys stays. -/
theorem get?_put_of_ne {key other : α} (h : other ≠ key) (value : β) (entries : Keyed α β) :
    get? other (put key value entries) = get? other entries := by
  induction entries with
  | nil => simp [put, get?, Ne.symm h]
  | cons entry rest ih =>
    by_cases hk : entry.1 = key
    · have : entry.1 ≠ other := fun he => h (he.symm.trans hk)
      simp [put, get?, hk, Ne.symm h]
    · simp [put, get?, hk, ih]

/-- A new key comes last; a present one keeps its place. -/
theorem keys_put (key : α) (value : β) (entries : Keyed α β) :
    keys (put key value entries) =
      if key ∈ keys entries then keys entries else keys entries ++ [key] := by
  induction entries with
  | nil => simp [put, keys]
  | cons entry rest ih =>
    by_cases hk : entry.1 = key
    · simp [put, keys, hk]
    · have hk' : key ≠ entry.1 := Ne.symm hk
      simp only [keys] at ih
      by_cases hm : key ∈ rest.map Prod.fst <;> simp [put, keys, hk, hk', ih, hm]

end Keyed

end BoundSql
