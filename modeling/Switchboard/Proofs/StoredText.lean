import Mathlib
import Switchboard.Proofs.PreservesText
import Switchboard.Proofs.StoredValues

/-!
# Values survive their stored form

A value is stored as a document, and the document as a text.  The main theorem `survives_preserves`
says that nothing is lost on the way: the document stands for the value, the text for the document,
and so values with the same text are the same.  For the text this holds of every printer and reader
of documents that go together.  Those given here do for the document of any value if they do for the
finite floating point numbers in it, since no other part of a document depends on how decimals are
rounded.
-/

namespace Switchboard.Value

mutual

/-- The floating point numbers in a value. -/
def floats : Value → List Binary64
  | .float x => [x]
  | .list items => floatsOfItems items
  | .map entries => floatsOfEntries entries
  | _ => []

/-- The floating point numbers in items. -/
def floatsOfItems : List Value → List Binary64
  | [] => []
  | v :: vs => floats v ++ floatsOfItems vs

/-- The floating point numbers in entries. -/
def floatsOfEntries : List (String × Value) → List Binary64
  | [] => []
  | (_, v) :: es => floats v ++ floatsOfEntries es

end

/-- Whether the reader gives back the finite ones of some floating point numbers. -/
def ReadBack (xs : List Binary64) : Prop :=
  ∀ x ∈ xs, x.isFinite = true →
    Preserves.ofText? (Preserves.renderFloat x) = some (.float x)

/-- Numbers are given back together if they are given back one by one. -/
lemma readBack_append {xs ys : List Binary64} :
    ReadBack (xs ++ ys) ↔ ReadBack xs ∧ ReadBack ys := by
  simp [ReadBack, or_imp, forall_and]

mutual

/-- The document of a value is readable if the floating point numbers in the value are. -/
lemma readable_toPreserves : ∀ v : Value, ReadBack v.floats → v.toPreserves.Readable
  | .none, _ => by
    rw [toPreserves, Preserves.Readable]
    decide
  | .bool _, _ => trivial
  | .int _, _ => trivial
  | .float x, h => h x List.mem_cons_self
  | .text _, _ => trivial
  | .list items, h => readableItems_toPreservesAll items h
  | .map entries, h => by
    refine ⟨?_, readableItems_toPreservesEntries entries h⟩
    rw [Preserves.Readable]
    decide
  | .address _, _ => by
    refine ⟨?_, trivial, trivial⟩
    rw [Preserves.Readable]
    decide
  | .fault _, _ => by
    refine ⟨?_, trivial, trivial, trivial⟩
    rw [Preserves.Readable]
    decide

/-- The documents of items are readable if the floating point numbers in the items are. -/
lemma readableItems_toPreservesAll : ∀ vs : List Value, ReadBack (floatsOfItems vs) →
    Preserves.ReadableItems (toPreservesAll vs)
  | [], _ => trivial
  | v :: vs, h => by
    obtain ⟨hv, hvs⟩ := readBack_append.mp h
    exact ⟨readable_toPreserves v hv, readableItems_toPreservesAll vs hvs⟩

/-- The documents of entries are readable if the floating point numbers in the entries are. -/
lemma readableItems_toPreservesEntries : ∀ es : List (String × Value),
    ReadBack (floatsOfEntries es) → Preserves.ReadableItems (toPreservesEntries es)
  | [], _ => trivial
  | (key, v) :: es, h => by
    obtain ⟨hv, hes⟩ := readBack_append.mp h
    refine ⟨⟨?_, trivial, readable_toPreserves v hv, trivial⟩,
      readableItems_toPreservesEntries es hes⟩
    rw [Preserves.Readable]
    decide

end

/-- A value reads back from its text if the reader gives back the document that was printed. -/
lemma ofStoredBy?_storedBy {v : Value} (hv : Sorted v) {print : Preserves → String}
    {read : String → Option Preserves} (hread : read (print v.toPreserves) = some v.toPreserves) :
    ofStoredBy? read (storedBy print v) = .ok v := by
  rw [ofStoredBy?, storedBy, hread]
  simp only [ofPreserves?_toPreserves v hv]

/-- Values survive their stored form.  A value with maps in key order is what its document stands
for.  Whatever the printer and the reader of documents are, if the reader gives back the document
that the printer wrote, the value is what the text stands for, and no other such value has this
text.  The printer and the reader given here are such a pair for a value if they are for the finite
floating point numbers in it. -/
theorem survives_preserves (v : Value) (hv : Sorted v) :
    ofPreserves? v.toPreserves = some v ∧
    (∀ (print : Preserves → String) (read : String → Option Preserves),
      read (print v.toPreserves) = some v.toPreserves →
      ofStoredBy? read (storedBy print v) = .ok v ∧
      ∀ w, Sorted w → read (print w.toPreserves) = some w.toPreserves →
        storedBy print w = storedBy print v → w = v) ∧
    (ReadBack v.floats → Preserves.ofText? v.stored = some v.toPreserves) := by
  refine ⟨ofPreserves?_toPreserves v hv, fun print read hread => ?_,
    fun hfloats => Preserves.ofText?_render (readable_toPreserves v hfloats)⟩
  have hstored := ofStoredBy?_storedBy hv hread
  refine ⟨hstored, fun w hw hreadw hsame => ?_⟩
  have hboth : Except.ok w = Except.ok v :=
    (ofStoredBy?_storedBy hw hreadw).symm.trans
      ((congrArg (ofStoredBy? read) hsame).trans hstored)
  exact Except.ok.inj hboth

/-- A map with a text that looks like absence, absence itself, a half and a text that needs all
kinds of marks. -/
def keepsake : Value :=
  .map [("absent", .list [.none, .text "none"]), ("gain", .float ⟨0x3FE0000000000000⟩),
    ("note", .fault ⟨"say \"none\"", "\\ \t\n"⟩)]

/-- The map is what its text stands for. -/
theorem survives_preserves_keepsake :
    Sorted keepsake ∧ ofStored? keepsake.stored = .ok keepsake := by
  have hsorted : Sorted keepsake := by
    simp only [keepsake, Sorted, SortedEntries, SortedItems, Keyed.Sorted, and_true]
    decide
  obtain ⟨-, hread, hfloats⟩ := survives_preserves keepsake hsorted
  have hhalf : ReadBack keepsake.floats := by
    intro x hx _
    rw [List.mem_singleton.mp hx]
    rfl
  exact ⟨hsorted, (hread Preserves.render Preserves.ofText? (hfloats hhalf)).1⟩

end Switchboard.Value
