/-!
# Named entries

Lists of named things in the order in which they came, as the children of a unit or the controls of
a behavior are kept. No two entries of one list have the same name; a name is added once.
-/

namespace Switchboard

/-- Entries with their names, in order of entry. -/
abbrev Named (α : Type) := List (String × α)

namespace Named

variable {α β : Type}

/-- The entry of a name. -/
def find? (name : String) : Named α → Option α
  | [] => none
  | (n, a) :: rest => if n = name then some a else find? name rest

/-- Whether a name has an entry. -/
def has (name : String) (t : Named α) : Bool := (find? name t).isSome

/-- The list with one more entry behind the others. -/
def push (name : String) (a : α) (t : Named α) : Named α := t ++ [(name, a)]

/-- The list without the entries of a name. -/
def erase (name : String) (t : Named α) : Named α := t.filter fun e => e.1 != name

/-- The names in the order in which the entries were made. -/
def names (t : Named α) : List String := t.map Prod.fst

/-- Changes every entry under its name. -/
def mapEntries (f : α → β) (t : Named α) : Named β := t.map fun e => (e.1, f e.2)

/-- A name that was free has the entry that is put behind the others. -/
theorem find?_push_self {name : String} {t : Named α} (h : find? name t = none) (a : α) :
    find? name (push name a t) = some a := by
  induction t with
  | nil => simp [push, find?]
  | cons e rest ih =>
    obtain ⟨n, b⟩ := e
    by_cases hn : n = name
    · simp [find?, hn] at h
    · simp only [find?, hn, ↓reduceIte] at h
      simpa [push, find?, hn] using ih h

/-- An entry put behind the others leaves every other name alone. -/
theorem find?_push_of_ne {name other : String} (h : other ≠ name) (a : α) (t : Named α) :
    find? other (push name a t) = find? other t := by
  induction t with
  | nil => simp [push, find?, Ne.symm h]
  | cons e rest ih =>
    obtain ⟨n, b⟩ := e
    by_cases hn : n = other
    · simp [push, find?, hn]
    · simpa [push, find?, hn] using ih

/-- A removed name has no entry. -/
theorem find?_erase_self (name : String) (t : Named α) : find? name (erase name t) = none := by
  induction t with
  | nil => rfl
  | cons e rest ih =>
    obtain ⟨n, a⟩ := e
    by_cases hn : n = name
    · simpa [erase, hn] using ih
    · simpa [erase, hn, find?] using ih

end Named

end Switchboard
