/-!
Lists of entries with a key, in the order in which the keys were first inserted. Main statements:
what a look-up gives after an insertion, and that an insertion keeps the order of the keys.
-/

namespace Schemata

abbrev Keyed (α : Type _) := List (String × α)

namespace Keyed

variable {α : Type _}

def get? : Keyed α → String → Option α
  | [], _ => none
  | (k, v) :: rest, key => if k = key then some v else get? rest key

def hasKey (entries : Keyed α) (key : String) : Bool := (entries.get? key).isSome

def keys (entries : Keyed α) : List String := entries.map Prod.fst

def insert : Keyed α → String → α → Keyed α
  | [], key, value => [(key, value)]
  | (k, v) :: rest, key, value =>
    if k = key then (k, value) :: rest else (k, v) :: insert rest key value

/-- The ordered map of entries with repeated keys: the place of the first, the value of the last. -/
def ofEntries (entries : List (String × α)) : Keyed α :=
  entries.foldl (fun acc entry => acc.insert entry.1 entry.2) []

def Distinct (entries : Keyed α) : Prop := entries.keys.Nodup

theorem get?_insert (entries : Keyed α) (key other : String) (value : α) :
    (entries.insert key value).get? other =
      if key = other then some value else entries.get? other := by
  induction entries with
  | nil => simp [insert, get?]
  | cons entry rest ih =>
    obtain ⟨k, v⟩ := entry
    by_cases hk : k = key
    · subst hk
      by_cases ho : k = other <;> simp [insert, get?, ho]
    · by_cases ho : k = other
      · subst ho
        simp [insert, get?, hk, Ne.symm hk]
      · simp [insert, get?, hk, ho, ih]

@[simp] theorem get?_insert_self (entries : Keyed α) (key : String) (value : α) :
    (entries.insert key value).get? key = some value := by
  simp [get?_insert]

theorem mem_of_get? {entries : Keyed α} {key : String} {value : α}
    (h : entries.get? key = some value) : (key, value) ∈ entries := by
  induction entries with
  | nil => cases h
  | cons entry rest ih =>
    rw [get?] at h
    split at h
    · rename_i hk
      obtain rfl := Option.some.inj h
      exact hk ▸ List.mem_cons_self
    · exact List.mem_cons_of_mem _ (ih h)

theorem hasKey_iff_mem_keys {entries : Keyed α} {key : String} :
    entries.hasKey key = true ↔ key ∈ entries.keys := by
  induction entries with
  | nil => simp [hasKey, get?, keys]
  | cons entry rest ih =>
    obtain ⟨k, v⟩ := entry
    by_cases hk : k = key
    · simp [hasKey, get?, keys, hk]
    · simp only [hasKey, keys] at ih
      simp [hasKey, get?, keys, hk, Ne.symm hk, ih]

theorem keys_insert (entries : Keyed α) (key : String) (value : α) :
    (entries.insert key value).keys =
      if key ∈ entries.keys then entries.keys else entries.keys ++ [key] := by
  induction entries with
  | nil => simp [insert, keys]
  | cons entry rest ih =>
    obtain ⟨k, v⟩ := entry
    simp only [keys] at ih
    by_cases hk : k = key
    · simp [insert, keys, hk]
    · by_cases hm : key ∈ rest.map Prod.fst
      · simp [insert, keys, hk, hm, ih]
      · simp [insert, keys, hk, Ne.symm hk, ih, hm]

end Keyed
end Schemata
