/-!
# Log levels

How severe a log line is, the most severe level first; a line is kept when its level is at most the
threshold.
-/

namespace Switchboard

/-- How urgent a log line is. -/
inductive LogLevel where
  | error
  | warning
  | info
  | debug
deriving DecidableEq

namespace LogLevel

/-- The name of a level. -/
def text : LogLevel → String
  | .error => "error"
  | .warning => "warning"
  | .info => "info"
  | .debug => "debug"

/-- Reads the name of a level; a warning has a short name as well. -/
def ofText? : String → Option LogLevel
  | "error" => some .error
  | "warning" => some .warning
  | "warn" => some .warning
  | "info" => some .info
  | "debug" => some .debug
  | _ => none

/-- The place of a level in the order from severe to harmless. -/
def rank : LogLevel → Nat
  | .error => 0
  | .warning => 1
  | .info => 2
  | .debug => 3

/-- Whether a line of level `l` is kept under a threshold. -/
def passes (l threshold : LogLevel) : Bool := l.rank ≤ threshold.rank

/-- Every level reads back from its name. -/
theorem ofText?_text (l : LogLevel) : ofText? l.text = some l := by cases l <;> rfl

end LogLevel

end Switchboard
