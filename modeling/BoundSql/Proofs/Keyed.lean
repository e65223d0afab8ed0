import BoundSql.Keyed
import Mathlib.Data.List.Induction

/-!
# Putting many pairs

What is found in a keyed list after pairs were put one after the other: under each key the value of
the last pair with that key (`get?_putAll`). Pairs whose keys are all new and all different are
appended as they are (`putAll_of_nodup`).
-/

namespace BoundSql.Keyed

variable {α β : Type} [DecidableEq α]

/-- What is found after all values were turned into others. -/
theorem get?_map {γ : Type} (f : β → γ) (key : α) (entries : Keyed α β) :
    get? key (entries.map fun entry => (entry.1, f entry.2)) = (get? key entries).map f := by
  induction entries with
  | nil => rfl
  | cons entry rest ih =>
    rw [List.map_cons, get?, get?]
    split
    · rfl
    · exact ih

/-- The first value under a key is found. -/
theorem get?_eq_head? (key : α) (entries : Keyed α β) :
    get? key entries = ((entries.filter fun entry => entry.1 = key).map Prod.snd).head? := by
  induction entries with
  | nil => rfl
  | cons entry rest ih =>
    rw [get?, List.filter_cons]
    split <;> simp_all

omit [DecidableEq α] in
/-- Turning all values into others leaves the keys alone. -/
theorem keys_map {γ : Type} (f : β → γ) (entries : Keyed α β) :
    keys (entries.map fun entry => (entry.1, f entry.2)) = keys entries := by
  rw [keys, keys, List.map_map]
  rfl

/-- Putting pairs after others. -/
theorem putAll_append (a b : List (α × β)) (entries : Keyed α β) :
    putAll (a ++ b) entries = putAll b (putAll a entries) := by
  rw [putAll, List.foldl_append]
  rfl

/-- Under a key is found what the last pair with the key put there, or what was there before. -/
theorem get?_putAll (key : α) (pairs : List (α × β)) (entries : Keyed α β) :
    get? key (putAll pairs entries) = (get? key pairs.reverse).or (get? key entries) := by
  -- The last pair is the one that decides, so the pairs are taken off at their end.
  induction pairs using List.reverseRecOn with
  | nil => simp [putAll, get?]
  | append_singleton pairs pair ih =>
    rw [putAll_append, List.reverse_append, List.reverse_singleton, List.singleton_append, get?]
    change get? key (put pair.1 pair.2 (putAll pairs entries)) = _
    by_cases h : pair.1 = key
    · rw [if_pos h, ← h, get?_put_self]
      rfl
    · rw [if_neg h, get?_put_of_ne (Ne.symm h), ih]

/-- What is found under a key is the value of one of the entries. -/
theorem exists_mem_of_get? {key : α} {value : β} {entries : Keyed α β}
    (h : entries.get? key = some value) : ∃ entry ∈ entries, entry.1 = key ∧ entry.2 = value := by
  induction entries with
  | nil => cases h
  | cons entry rest ih =>
    rw [get?] at h
    split at h
    · next hkey => exact ⟨entry, by simp, hkey, Option.some.inj h⟩
    · obtain ⟨found, hfound, hentry⟩ := ih h
      exact ⟨found, by simp [hfound], hentry⟩

/-- A key that is among the pairs is found there. -/
theorem exists_get?_of_mem {pair : α × β} {pairs : List (α × β)} (h : pair ∈ pairs) :
    ∃ value, get? pair.1 pairs = some value ∧ (pair.1, value) ∈ pairs := by
  induction pairs with
  | nil => cases h
  | cons entry rest ih =>
    rw [get?]
    -- An earlier entry with the same key is found in its place.
    by_cases hkey : entry.1 = pair.1
    · exact ⟨entry.2, if_pos hkey, by simp [← hkey]⟩
    · have hrest : pair ∈ rest := (List.mem_cons.1 h).resolve_left fun heq => hkey (heq ▸ rfl)
      obtain ⟨value, hget, hmem⟩ := ih hrest
      exact ⟨value, by rw [if_neg hkey, hget], List.mem_cons_of_mem entry hmem⟩

/-- Putting pairs one after the other keeps all of them exactly if no two of them give different
values to one key. -/
theorem get?_putAll_iff (pairs : List (α × β)) :
    (∀ pair ∈ pairs, get? pair.1 (putAll pairs []) = some pair.2) ↔
      ∀ a ∈ pairs, ∀ b ∈ pairs, a.1 = b.1 → a.2 = b.2 := by
  constructor
  · intro h a ha b hb hkey
    have hvalue := (h a ha).symm.trans (hkey ▸ h b hb)
    exact Option.some.inj hvalue
  · intro h pair hpair
    -- The last pair with the key is found, and by assumption it has the same value.
    obtain ⟨value, hget, hmem⟩ := exists_get?_of_mem (List.mem_reverse.2 hpair)
    rw [get?_putAll, hget, h pair hpair (pair.1, value) (List.mem_reverse.1 hmem) rfl]
    rfl

/-- A pair with a new key is appended. -/
theorem put_of_not_mem {key : α} {entries : Keyed α β} (h : key ∉ entries.map Prod.fst)
    (value : β) : put key value entries = entries ++ [(key, value)] := by
  induction entries with
  | nil => rfl
  | cons entry rest ih =>
    simp only [List.map_cons, List.mem_cons, not_or] at h
    rw [put, if_neg (Ne.symm h.1), ih h.2, List.cons_append]

/-- Pairs with new and different keys are appended as they are. -/
theorem putAll_of_nodup {pairs : List (α × β)} {entries : Keyed α β}
    (h : ((entries ++ pairs).map Prod.fst).Nodup) : putAll pairs entries = entries ++ pairs := by
  induction pairs generalizing entries with
  | nil => simp [putAll]
  | cons pair pairs ih =>
    have hsplit : entries ++ pair :: pairs = (entries ++ [pair]) ++ pairs := by simp
    -- The first pair is new to the entries; with it they are new to the others.
    have hnew : pair.1 ∉ entries.map Prod.fst := by
      rw [List.map_append, List.nodup_append] at h
      exact fun hmem => h.2.2 _ hmem pair.1 (by simp) rfl
    change putAll pairs (put pair.1 pair.2 entries) = _
    rw [put_of_not_mem hnew, ih (by rw [← hsplit]; exact h), hsplit]

end BoundSql.Keyed
