import Switchboard.Value.Display
import Switchboard.Decimal.Reading

/-!
# Views of values

A value can be looked at as a value of another shape: text is read as a number, an address or a
list of words where its form allows, and every value has a text. Coercion into a shape succeeds
exactly when that view exists.
-/

namespace Switchboard

/-- What a property may be required to hold. -/
inductive Shape where
  | any
  | bool
  | int
  | float
  | text
  | list
  | map
  | address
deriving DecidableEq

namespace Shape

/-- The name of a shape. -/
def name : Shape → String
  | .any => "any"
  | .bool => "bool"
  | .int => "int"
  | .float => "float"
  | .text => "text"
  | .list => "list"
  | .map => "map"
  | .address => "address"

/-- All shapes. -/
def all : List Shape := [.any, .bool, .int, .float, .text, .list, .map, .address]

/-- The shape of a name. -/
def ofName? (name : String) : Option Shape := all.find? fun s => s.name == name

/-- Every shape is found by its name. -/
theorem ofName?_name (s : Shape) : ofName? s.name = some s := by cases s <;> decide

end Shape

namespace Value

/-- The text of a value that is one. -/
def text? : Value → Option String
  | .text s => some s
  | _ => Option.none

/-- A whole number, a floating point number that is whole, or a text that writes one. -/
def int? : Value → Option Int64
  | .int n => some n
  | .float x => x.toInt64?
  | .text s => Decimal.readInt64? (Text.trim s.toList)
  | _ => Option.none

/-- A floating point number, the nearest one to a whole number, or a text that writes one. -/
def float? : Value → Option Binary64
  | .float x => some x
  | .int n => some (.ofInt n.toInt)
  | .text s => Decimal.readBinary64? (Text.trim s.toList)
  | _ => Option.none

/-- A truth value, or a text that names one. -/
def bool? : Value → Option Bool
  | .bool flag => some flag
  | .text "true" => some true
  | .text "false" => some false
  | _ => Option.none

/-- The entries of a value that is a map. -/
def map? : Value → Option (Keyed Value)
  | .map entries => some entries
  | _ => Option.none

/-- The items of a list and the words of a text; absence has none and any other value is one. -/
def toList : Value → List Value
  | .list items => items
  | .text s => (Text.words s.toList).map fun w => .text (String.ofList w)
  | .none => []
  | v => [v]

/-- An address, or a text that writes one. -/
def address? : Value → Option Address
  | .address a => some a
  | .text s => (Address.ofText? s).toOption
  | _ => Option.none

/-- The control that a value addresses. -/
def endpoint? (v : Value) : Option Endpoint :=
  match v.address? with
  | some (.endpoint e) => some e
  | _ => Option.none

/-- The unit that a value addresses. -/
def path? (v : Value) : Option Path :=
  match v.address? with
  | some (.unit p) => some p
  | _ => Option.none

/-- The shape of a value; absence and faults fit every shape. -/
def shape : Value → Shape
  | .none => .any
  | .fault _ => .any
  | .bool _ => .bool
  | .int _ => .int
  | .float _ => .float
  | .text _ => .text
  | .list _ => .list
  | .map _ => .map
  | .address _ => .address

/-- The view of a value as a value of the given shape. -/
def coerce? (v : Value) : Shape → Option Value
  | .any => some v
  | .bool => v.bool?.map .bool
  | .int => v.int?.map .int
  | .float => v.float?.map .float
  | .text => some (.text v.render)
  | .list => some (.list v.toList)
  | .map => v.map?.map .map
  | .address => v.address?.map .address

end Value

/-- The argument at a place, absence where there is none. -/
def argAt (args : List Value) (i : Nat) : Value := args[i]?.getD .none

/-- The fault that the arguments of an error answer carry: the first one, or its text. -/
def Fault.ofArgs : List Value → Fault
  | .fault f :: _ => f
  | v :: _ => .other v.render
  | [] => .unknown

end Switchboard
