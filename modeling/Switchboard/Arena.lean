/-!
# Arenas

An arena stores values in slots and hands out handles. A slot that has been emptied is used again,
the last emptied first, but under a new generation, so that an old handle never finds a new value.
-/

namespace Switchboard

/-- A handle: the number of a slot and the generation of its value. -/
structure Handle where
  index : Nat
  generation : UInt32
deriving DecidableEq

namespace Handle

/-- Handles are ordered by slot, then by generation. -/
def compare (a b : Handle) : Ordering :=
  (compareOfLessAndEq a.index b.index).then (compareOfLessAndEq a.generation b.generation)

end Handle

/-- A place for one value, with the generation of the value that it holds or will hold next. -/
structure Slot (α : Type) where
  generation : UInt32
  value : Option α

/-- Values in slots. -/
structure Arena (α : Type) where
  slots : List (Slot α) := []
  /-- The empty slots, the last emptied first. -/
  free : List Nat := []
  /-- The number of values. -/
  size : Nat := 0

namespace Arena

variable {α : Type}

instance : Inhabited (Arena α) := ⟨{}⟩

/-- The number of slots, which no number of values exceeds. -/
def capacity (a : Arena α) : Nat := a.slots.length

/-- Stores a value and gives its handle. -/
def insert (a : Arena α) (value : α) : Handle × Arena α :=
  match a.free with
  | [] =>
    (⟨a.slots.length, 0⟩, { a with slots := a.slots ++ [⟨0, some value⟩], size := a.size + 1 })
  | i :: free =>
    let generation := (a.slots[i]?.map Slot.generation).getD 0
    (⟨i, generation⟩, ⟨a.slots.set i ⟨generation, some value⟩, free, a.size + 1⟩)

/-- The value of a handle; an old handle has none. -/
def get? (a : Arena α) (h : Handle) : Option α :=
  match a.slots[h.index]? with
  | some s => if s.generation = h.generation then s.value else none
  | none => none

/-- Whether a handle has a value. -/
def contains (a : Arena α) (h : Handle) : Bool := (a.get? h).isSome

/-- The arena with another value under a handle that has one. -/
def set (a : Arena α) (h : Handle) (value : α) : Arena α :=
  if a.contains h then { a with slots := a.slots.set h.index ⟨h.generation, some value⟩ } else a

/-- Changes the value under a handle that has one. -/
def modify (a : Arena α) (h : Handle) (f : α → α) : Arena α :=
  match a.get? h with
  | some value => a.set h (f value)
  | none => a

/-- Takes the value of a handle out and empties its slot. -/
def remove (a : Arena α) (h : Handle) : Option α × Arena α :=
  match a.get? h with
  | none => (none, a)
  | some value =>
    (some value,
      ⟨a.slots.set h.index ⟨h.generation + 1, none⟩, h.index :: a.free, a.size - 1⟩)

end Arena

end Switchboard
