import Switchboard.Value
import Switchboard.Text.Blank
import Switchboard.Decimal.Shortest

/-!
# The text of a value

A list is written as its items with single spaces between them, and an item that is empty or holds
a blank stands in braces. A map is written like the list of its keys and values, save that keys are
never braced. Absence is the empty text and a fault its message.
-/

namespace Switchboard.Value

/-- A floating point number is written positionally. -/
def floatLayout : Decimal.Layout := ⟨Option.none, false⟩

/-- A number is written with as few digits as read back to it. -/
def renderFloat (x : Binary64) : String :=
  match x.magnitude with
  | .nan => "NaN"
  | .infinite => if x.isNegative then "-inf" else "inf"
  | .finite m q => floatLayout.text x.isNegative (Decimal.shortest m q)

/-- An item of a list, in braces where its text alone would not be one item. -/
def braced (text : String) : String :=
  if text.isEmpty || text.toList.any Text.isBlank then "\x7b" ++ text ++ "\x7d" else text

mutual

/-- The text of a value. -/
def render : Value → String
  | .none => ""
  | .bool flag => if flag then "true" else "false"
  | .int n => Decimal.ofInt n.toInt
  | .float x => renderFloat x
  | .text s => s
  | .list items => Text.join " " (renderItems items)
  | .map entries => Text.join " " (renderEntries entries)
  | .address a => a.text
  | .fault f => f.message

/-- The items of a list, each in its own form. -/
def renderItems : List Value → List String
  | [] => []
  | v :: vs => braced (render v) :: renderItems vs

/-- The entries of a map, each key before its value. -/
def renderEntries : List (String × Value) → List String
  | [] => []
  | (key, v) :: es => (key ++ " " ++ braced (render v)) :: renderEntries es

end

end Switchboard.Value
