/-!
# Sorted tables

A table from texts to values as the list of its entries, sorted by key in the order of code points.
Main statements: looking up what was inserted or erased.
-/

namespace Switchboard

/-- Entries sorted by key. -/
abbrev Keyed (α : Type) := List (String × α)

namespace Keyed

variable {α : Type}

/-- The value under a key. -/
def find? (key : String) : Keyed α → Option α
  | [] => none
  | (k, v) :: rest => if k = key then some v else find? key rest

/-- Whether a key has a value. -/
def hasKey (key : String) (t : Keyed α) : Bool := (find? key t).isSome

/-- Puts a value under a key, in the place of the value that was there. -/
def insert (key : String) (value : α) : Keyed α → Keyed α
  | [] => [(key, value)]
  | (k, v) :: rest =>
    if k = key then (key, value) :: rest
    else if key < k then (key, value) :: (k, v) :: rest
    else (k, v) :: insert key value rest

/-- Removes the value under a key. -/
def erase (key : String) (t : Keyed α) : Keyed α := t.filter fun e => e.1 != key

/-- The table of these entries; of two with one key the later stays. -/
def ofList (entries : List (String × α)) : Keyed α :=
  entries.foldl (fun t e => insert e.1 e.2 t) []

/-- The keys are strictly increasing. -/
def Sorted : Keyed α → Prop
  | [] => True
  | (k, _) :: rest => (∀ e ∈ rest, k < e.1) ∧ Sorted rest

/-- A key that was just given a value has it. -/
theorem find?_insert_self (key : String) (value : α) (t : Keyed α) :
    find? key (insert key value t) = some value := by
  induction t with
  | nil => simp [insert, find?]
  | cons e rest ih =>
    obtain ⟨k, v⟩ := e
    by_cases hk : k = key
    · simp [insert, hk, find?]
    · by_cases hlt : key < k
      · simp [insert, hk, hlt, find?]
      · simp [insert, hk, hlt, find?, ih]

/-- Giving a key a value leaves every other key alone. -/
theorem find?_insert_of_ne {key other : String} (h : other ≠ key) (value : α) (t : Keyed α) :
    find? other (insert key value t) = find? other t := by
  induction t with
  | nil => simp [insert, find?, Ne.symm h]
  | cons e rest ih =>
    obtain ⟨k, v⟩ := e
    by_cases hk : k = key
    · subst hk
      simp [insert, find?, Ne.symm h]
    · by_cases hlt : key < k
      · simp [insert, hk, hlt, find?, Ne.symm h]
      · simp [insert, hk, hlt, find?, ih]

/-- A removed key has no value. -/
theorem find?_erase_self (key : String) (t : Keyed α) : find? key (erase key t) = none := by
  induction t with
  | nil => rfl
  | cons e rest ih =>
    obtain ⟨k, v⟩ := e
    by_cases hk : k = key
    · simpa [erase, hk] using ih
    · simpa [erase, hk, find?] using ih

/-- Removing a key leaves every other key alone. -/
theorem find?_erase_of_ne {key other : String} (h : other ≠ key) (t : Keyed α) :
    find? other (erase key t) = find? other t := by
  induction t with
  | nil => rfl
  | cons e rest ih =>
    obtain ⟨k, v⟩ := e
    by_cases hk : k = key
    · subst hk
      simpa [erase, find?, Ne.symm h] using ih
    · by_cases ho : k = other
      · simp [erase, find?, ho, h]
      · simpa [erase, hk, find?, ho] using ih

end Keyed

end Switchboard
