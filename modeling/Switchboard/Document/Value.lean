import Switchboard.Async
import Switchboard.Call
import Switchboard.Json
import Switchboard.Preserves.Reader

/-!
# Documents of values

A short JSON form of values, for those who describe behaviors to the runtime or look at what it
does. Texts, whole numbers, truth values and lists stand for themselves; an object with one member
stands for any other value. What cannot be read is absent, or empty, or zero.
-/

namespace Switchboard.Document

/-- The sixteen digits of the bits of a number. -/
def bitsText (x : Binary64) : String :=
  String.ofList (Preserves.hexDigits 16 x.canonical.bits.toNat)

/-- The document of a fault: category and message. -/
def ofFault (f : Fault) : Json := .array [.text f.category, .text f.message]

mutual

/-- The document of a value. -/
def ofValue : Value → Json
  | .none => .null
  | .bool flag => .bool flag
  | .int n => .ofInt n.toInt
  | .float x => .object [("f", .text (bitsText x))]
  | .text s => .text s
  | .list items => .array (ofItems items)
  | .map entries => .object [("m", .array (ofEntries entries))]
  | .address a => .object [("a", .text a.text)]
  | .fault f => .object [("e", ofFault f)]

/-- The documents of the items of a list. -/
def ofItems : List Value → List Json
  | [] => []
  | v :: vs => ofValue v :: ofItems vs

/-- The documents of the entries of a map, each a pair. -/
def ofEntries : List (String × Value) → List Json
  | [] => []
  | (key, v) :: es => .array [.text key, ofValue v] :: ofEntries es

end

/-- The document of several values. -/
def ofValues (vs : List Value) : Json := .array (ofItems vs)

/-- The document of a value that may be absent, which is not the value that stands for absence. -/
def ofValue? (v : Option Value) : Json := .optional (fun v => .array [ofValue v]) v

/-- The document of an outcome. -/
def ofOutcome : Outcome → Json
  | .ok vs => .object [("ok", ofValues vs)]
  | .error f => .object [("err", ofFault f)]

/-! ## Reading -/

/-- The whole number of a document, modulo `2 ^ 64`. -/
def int64 (j : Json) : Int64 := Int64.ofInt j.asInt

/-- The fault of a document. -/
def fault : Json → Fault
  | .array [.text category, .text message] => ⟨category, message⟩
  | _ => .unknown

/-- The number whose bits a text gives in hexadecimal digits. -/
def bits (text : String) : Binary64 := ⟨((Preserves.hexNumber? text.toList).getD 0).toUInt64⟩

mutual

/-- The value that a document stands for. -/
def value : Json → Value
  | .null => .none
  | .bool flag => .bool flag
  | .number digits => .int (int64 (.number digits))
  | .text s => .text s
  | .broken => .none
  | .array items => .list (valuesOf items)
  | .object [("f", .text s)] => .float (bits s)
  | .object [("m", .array items)] => .ofEntries (entriesOf items)
  | .object [("a", .text s)] =>
    match Address.ofText? s with
    | .ok a => .address a
    | .error _ => .none
  | .object [("e", f)] => .fault (fault f)
  | .object [("mid", n)] => .int (int64 n)
  | .object _ => .none

/-- The values of documents. -/
def valuesOf : List Json → List Value
  | [] => []
  | j :: js => value j :: valuesOf js

/-- The entries of pairs, up to the first document that is no pair. -/
def entriesOf : List Json → List (String × Value)
  | .array [.text key, j] :: js => (key, value j) :: entriesOf js
  | _ => []

end

/-- The values of an array. -/
def values (j : Json) : List Value := valuesOf j.items

/-- The values under a name, unless there is no array. -/
def values? (key : String) (j : Json) : Option (List Value) :=
  match j.member? key with
  | some (.array items) => some (valuesOf items)
  | _ => none

/-- The time under a name, unless there is no number. -/
def time? (key : String) (j : Json) : Option Int64 :=
  ((j.member? key).bind Json.int?).map Int64.ofInt

end Switchboard.Document
