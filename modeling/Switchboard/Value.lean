import Switchboard.Address
import Switchboard.Fault
import Switchboard.Keyed
import Switchboard.Decimal.Binary64

/-!
# Values

What calls, properties and script variables carry. The entries of a map are sorted by key; `Sorted`
says so at every depth, and `ofEntries` builds such a map from entries in any order.
-/

namespace Switchboard

/-- A value that a call, a property or a script variable carries. -/
inductive Value where
  | none
  | bool (flag : Bool)
  | int (number : Int64)
  | float (number : Binary64)
  | text (text : String)
  | list (items : List Value)
  | map (entries : List (String × Value))
  | address (address : Address)
  | fault (fault : Fault)

namespace Value

instance : Inhabited Value := ⟨.none⟩

/-- The map of these entries; of two with one key the later stays. -/
def ofEntries (entries : List (String × Value)) : Value := .map (Keyed.ofList entries)

/-- The value of the address of an endpoint. -/
def ofEndpoint (e : Endpoint) : Value := .address (.endpoint e)

/-- The value of the path of a unit. -/
def ofPath (p : Path) : Value := .address (.unit p)

/-- The value of a path that may be absent. -/
def ofPath? (p : Option Path) : Value := (p.map ofPath).getD .none

/-- The value of a whole number, modulo `2 ^ 64`. -/
def ofNat (n : Nat) : Value := .int (Int64.ofNat n)

/-- Whether a value stands for absence. -/
def isNone : Value → Bool
  | .none => true
  | _ => false

mutual

/-- How deep lists and maps are nested in a value; at least one. -/
def depth : Value → Nat
  | .list items => depthItems items + 1
  | .map entries => depthEntries entries + 1
  | _ => 1

/-- The greatest depth among the items of a list. -/
def depthItems : List Value → Nat
  | [] => 0
  | v :: vs => max (depth v) (depthItems vs)

/-- The greatest depth among the entries of a map. -/
def depthEntries : List (String × Value) → Nat
  | [] => 0
  | (_, v) :: es => max (depth v) (depthEntries es)

end

/-! ## Equality -/

mutual

/-- Equality of values; two floating point numbers are equal when their bits are. -/
def same : Value → Value → Bool
  | .none, .none => true
  | .bool a, .bool b => a == b
  | .int a, .int b => a == b
  | .float a, .float b => a == b
  | .text a, .text b => a == b
  | .list as, .list bs => sameItems as bs
  | .map as, .map bs => sameEntries as bs
  | .address a, .address b => a == b
  | .fault a, .fault b => a == b
  | _, _ => false

/-- Whether items agree one by one. -/
def sameItems : List Value → List Value → Bool
  | [], [] => true
  | a :: as, b :: bs => same a b && sameItems as bs
  | _, _ => false

/-- Whether entries agree one by one, keys included. -/
def sameEntries : List (String × Value) → List (String × Value) → Bool
  | [], [] => true
  | (k, a) :: as, (l, b) :: bs => k == l && same a b && sameEntries as bs
  | _, _ => false

end

mutual

/-- Every value agrees with itself. -/
theorem same_self : ∀ v : Value, same v v = true
  | .none => by simp [same]
  | .bool _ => by simp [same]
  | .int _ => by simp [same]
  | .float _ => by simp [same]
  | .text _ => by simp [same]
  | .list items => by simp [same, sameItems_self items]
  | .map entries => by simp [same, sameEntries_self entries]
  | .address _ => by simp [same]
  | .fault _ => by simp [same]

/-- Items agree with themselves. -/
theorem sameItems_self : ∀ vs : List Value, sameItems vs vs = true
  | [] => by simp [sameItems]
  | v :: vs => by simp [sameItems, same_self v, sameItems_self vs]

/-- Entries agree with themselves. -/
theorem sameEntries_self : ∀ es : List (String × Value), sameEntries es es = true
  | [] => by simp [sameEntries]
  | (_, v) :: es => by simp [sameEntries, same_self v, sameEntries_self es]

end

mutual

/-- Values that agree are equal. -/
theorem eq_of_same : ∀ {v w : Value}, same v w = true → v = w
  | .none, w, h => by cases w <;> simp_all [same]
  | .bool _, w, h => by cases w <;> simp_all [same]
  | .int _, w, h => by cases w <;> simp_all [same]
  | .float _, w, h => by cases w <;> simp_all [same]
  | .text _, w, h => by cases w <;> simp_all [same]
  | .list items, w, h => by
    cases w with
    | list others =>
      simp only [same] at h
      rw [eq_of_sameItems h]
    | _ => simp [same] at h
  | .map entries, w, h => by
    cases w with
    | map others =>
      simp only [same] at h
      rw [eq_of_sameEntries h]
    | _ => simp [same] at h
  | .address _, w, h => by cases w <;> simp_all [same]
  | .fault _, w, h => by cases w <;> simp_all [same]

/-- Items that agree are equal. -/
theorem eq_of_sameItems : ∀ {vs ws : List Value}, sameItems vs ws = true → vs = ws
  | [], ws, h => by cases ws <;> simp_all [sameItems]
  | v :: vs, ws, h => by
    cases ws with
    | nil => simp [sameItems] at h
    | cons w ws =>
      simp only [sameItems, Bool.and_eq_true] at h
      rw [eq_of_same h.1, eq_of_sameItems h.2]

/-- Entries that agree are equal. -/
theorem eq_of_sameEntries :
    ∀ {es fs : List (String × Value)}, sameEntries es fs = true → es = fs
  | [], fs, h => by cases fs <;> simp_all [sameEntries]
  | (k, v) :: es, fs, h => by
    cases fs with
    | nil => simp [sameEntries] at h
    | cons f fs =>
      obtain ⟨l, w⟩ := f
      simp only [sameEntries, Bool.and_eq_true, beq_iff_eq] at h
      rw [h.1.1, eq_of_same h.1.2, eq_of_sameEntries h.2]

end

instance : DecidableEq Value := fun v w =>
  if h : same v w = true then .isTrue (eq_of_same h)
  else .isFalse fun e => h (e ▸ same_self v)

/-! ## Sorted maps -/

mutual

/-- The entries of every map inside the value are sorted by key. -/
def Sorted : Value → Prop
  | .list items => SortedItems items
  | .map entries => Keyed.Sorted entries ∧ SortedEntries entries
  | _ => True

/-- Whether the maps in all items are in key order. -/
def SortedItems : List Value → Prop
  | [] => True
  | v :: vs => Sorted v ∧ SortedItems vs

/-- Whether the maps in all entries are in key order. -/
def SortedEntries : List (String × Value) → Prop
  | [] => True
  | (_, v) :: es => Sorted v ∧ SortedEntries es

end

end Value

end Switchboard
