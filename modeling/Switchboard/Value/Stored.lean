import Switchboard.Value.Display
import Switchboard.Preserves.Reader
import Switchboard.Json
import Switchboard.Decimal.Stepwise

/-!
# Stored values

Two forms in which values are kept outside a running program. As Preserves documents absence is the
symbol `none`, a map a record of entries, an address and a fault records of their texts; as JSON
documents a value is an object whose only member is named after its kind.
-/

namespace Switchboard.Value

/-! ## Preserves -/

mutual

/-- The Preserves document of a value. -/
def toPreserves : Value → Preserves
  | .none => .symbol "none"
  | .bool flag => .bool flag
  | .int n => .int n.toInt
  | .float x => .float x
  | .text s => .text s
  | .list items => .sequence (toPreservesAll items)
  | .map entries => .record (.symbol "map") (toPreservesEntries entries)
  | .address a => .record (.symbol "address") [.text a.text]
  | .fault f => .record (.symbol "error") [.text f.category, .text f.message]

/-- The stored forms of items. -/
def toPreservesAll : List Value → List Preserves
  | [] => []
  | v :: vs => toPreserves v :: toPreservesAll vs

/-- The stored forms of entries. -/
def toPreservesEntries : List (String × Value) → List Preserves
  | [] => []
  | (key, v) :: es =>
    .record (.symbol "entry") [.text key, toPreserves v] :: toPreservesEntries es

end

mutual

/-- The value that a Preserves document stands for, if it stands for one. -/
def ofPreserves? : Preserves → Option Value
  | .symbol name => some (if name = "none" then .none else .text name)
  | .text s => some (.text s)
  | .bool flag => some (.bool flag)
  | .int n => (Decimal.int64? n).map .int
  | .float x => some (.float x)
  | .sequence items => (ofPreservesAll? items).map .list
  | .record (.symbol "map") entries => (ofPreservesEntries? entries).map ofEntries
  | .record (.symbol "address") (.text a :: _) => (Address.ofText? a).toOption.map .address
  | .record (.symbol "error") (.text category :: .text message :: _) =>
    some (.fault ⟨category, message⟩)
  | _ => Option.none

/-- The items of stored forms, if all of them are values. -/
def ofPreservesAll? : List Preserves → Option (List Value)
  | [] => some []
  | d :: ds =>
    match ofPreserves? d with
    | Option.none => Option.none
    | some v => (ofPreservesAll? ds).map (v :: ·)

/-- The entries of stored forms, if all of them are entries. -/
def ofPreservesEntries? : List Preserves → Option (List (String × Value))
  | [] => some []
  | .record (.symbol "entry") [.text key, d] :: ds =>
    match ofPreserves? d with
    | Option.none => Option.none
    | some v => (ofPreservesEntries? ds).map ((key, v) :: ·)
  | _ :: _ => Option.none

end

/-- The text of a value in the form that a printer of documents gives it. -/
def storedBy (print : Preserves → String) (v : Value) : String := print v.toPreserves

/-- The Preserves text of a value. -/
def stored (v : Value) : String := storedBy Preserves.render v

/-- Why a text gives back no value. -/
inductive StoredError where
  /-- The text is no document. -/
  | unreadable
  /-- The document stands for no value. -/
  | unsupported
deriving DecidableEq

/-- The text of a stored form that is no value. -/
def StoredError.message : StoredError → String
  | .unreadable => "invalid preserves text"
  | .unsupported => "unsupported preserves value"

/-- Reads a value from a text that a reader of documents can read. -/
def ofStoredBy? (read : String → Option Preserves) (source : String) : Except StoredError Value :=
  match read source with
  | Option.none => .error .unreadable
  | some d =>
    match ofPreserves? d with
    | Option.none => .error .unsupported
    | some v => .ok v

/-- Reads a value from its Preserves text. -/
def ofStored? (source : String) : Except StoredError Value := ofStoredBy? Preserves.ofText? source

/-! ## JSON -/

/-- Floating point numbers in JSON are positional where the point stands at most four places before
the first digit or at most sixteen behind it. -/
def jsonLayout : Decimal.Layout := ⟨some (-5, 16), true⟩

/-- A floating point number in JSON has a point or an exponent; where it is not finite it is
absent. -/
def floatJson (x : Binary64) : Json :=
  match x.magnitude with
  | .finite m q => .number (jsonLayout.text x.isNegative (Decimal.shortest m q))
  | _ => .null

/-- A document that names the kind of its content. -/
def tagged (kind : String) (content : Json) : Json := .object [(kind, content)]

mutual

/-- The JSON document of a value. -/
def toJson : Value → Json
  | .none => .text "None"
  | .bool flag => tagged "Bool" (.bool flag)
  | .int n => tagged "Int" (.ofInt n.toInt)
  | .float x => tagged "Float" (floatJson x)
  | .text s => tagged "Text" (.text s)
  | .list items => tagged "List" (.array (toJsonAll items))
  | .map entries => tagged "Map" (.object (toJsonEntries entries))
  | .address a => tagged "Address" (.text a.text)
  | .fault f =>
    tagged "Error" (.object [("category", .text f.category), ("message", .text f.message)])

/-- The documents of items. -/
def toJsonAll : List Value → List Json
  | [] => []
  | v :: vs => toJson v :: toJsonAll vs

/-- The documents of entries. -/
def toJsonEntries : List (String × Value) → List (String × Json)
  | [] => []
  | (key, v) :: es => (key, toJson v) :: toJsonEntries es

end

/-- The floating point number of a JSON number, which is read in steps. -/
def floatOfJson? : Json → Option Binary64
  | .number digits => Decimal.readStepwise? digits.toList
  | _ => Option.none

/-- A fault is an object of its two texts, others aside, or the array of the two. -/
def faultOfJson? : Json → Option Fault
  | .object members =>
    match Keyed.find? "category" members, Keyed.find? "message" members with
    | some (.text category), some (.text message) => some ⟨category, message⟩
    | _, _ => Option.none
  | .array [.text category, .text message] => some ⟨category, message⟩
  | _ => Option.none

mutual

/-- The value that a JSON document stands for, if it stands for one. -/
def ofJson? : Json → Option Value
  | .text "None" => some .none
  | .object [("None", .null)] => some .none
  | .object [("Bool", .bool flag)] => some (.bool flag)
  | .object [("Int", content)] => (content.int?.bind Decimal.int64?).map .int
  | .object [("Float", content)] => (floatOfJson? content).map .float
  | .object [("Text", .text s)] => some (.text s)
  | .object [("List", .array items)] => (ofJsonAll? items).map .list
  | .object [("Map", .object members)] => (ofJsonEntries? members).map ofEntries
  | .object [("Address", .text s)] => (Address.ofText? s).toOption.map .address
  | .object [("Error", content)] => (faultOfJson? content).map .fault
  | _ => Option.none

/-- The items of documents, if all of them are values. -/
def ofJsonAll? : List Json → Option (List Value)
  | [] => some []
  | d :: ds =>
    match ofJson? d with
    | Option.none => Option.none
    | some v => (ofJsonAll? ds).map (v :: ·)

/-- The entries of documents, if all of them are values. -/
def ofJsonEntries? : List (String × Json) → Option (List (String × Value))
  | [] => some []
  | (key, d) :: ds =>
    match ofJson? d with
    | Option.none => Option.none
    | some v => (ofJsonEntries? ds).map ((key, v) :: ·)

end

end Switchboard.Value
