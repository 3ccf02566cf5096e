import Switchboard.Error
import Switchboard.Json
import Switchboard.LogLevel

/-!
# Configuration

The settings of a root. They are read from a JSON object, or from an array of the settings in their
order; what is missing has its default, a member of another name is passed over, and a setting given
twice is refused.
-/

namespace Switchboard

/-- The settings of a root. -/
structure Config where
  /-- Identifier of the root unit. -/
  rootId : String := "root"
  /-- Milliseconds between two ticks of the driver; zero for none. -/
  tickPeriod : Nat := 10
  /-- Milliseconds that a hand-off waits at most. -/
  handOffTimeout : Nat := 1000
  /-- How many calls and emissions one pass processes at most. -/
  callBudget : Nat := 10000
  /-- Logical time after which a request of the host fails. -/
  defaultCallTimeout : Int64 := 1000
  /-- Threshold of the log lines of units. -/
  logLevel : LogLevel := .info
  /-- Endpoint that receives the log lines of units. -/
  logDestination : Option Endpoint := none
deriving DecidableEq

namespace Config

/-- Whether the settings fit together. -/
def check (c : Config) : Except ConfigError Unit :=
  if !isId c.rootId.toList then
    .error (.invalid ("root id '" ++ c.rootId ++ "' is not a valid identifier"))
  else if c.callBudget = 0 then .error (.invalid "call budget must be positive")
  else if c.handOffTimeout = 0 then .error (.invalid "hand-off timeout must be positive")
  else .ok ()

/-- The number of a JSON number that fits sixty-four bits without sign. -/
def word64? (j : Json) : Option Nat :=
  match j.int? with
  | some (.ofNat n) => if n < UInt64.size then some n else none
  | _ => none

/-- Log levels have their full names here, as a text or as the only member of an object. -/
def level? : Json → Option LogLevel
  | .text name => ofName name
  | .object [(name, .null)] => ofName name
  | _ => none
where
  ofName (name : String) : Option LogLevel :=
    (LogLevel.ofText? name).filter fun l => l.text == name

/-- A member that is null or the text of a control. -/
def destination? : Json → Option (Option Endpoint)
  | .null => some none
  | .text text => (Endpoint.ofText? text).toOption.map some
  | _ => none

/-- The names of the settings, in their order. -/
def settings : List String :=
  ["root_id", "tick_period_ms", "handoff_timeout_ms", "call_budget", "default_call_timeout",
    "log_level", "log_destination"]

/-- The configuration with one setting read from JSON. -/
def set? (c : Config) (name : String) (j : Json) : Option Config :=
  match name with
  | "root_id" =>
    match j with
    | .text id => some { c with rootId := id }
    | _ => none
  | "tick_period_ms" => (word64? j).map fun n => { c with tickPeriod := n }
  | "handoff_timeout_ms" => (word64? j).map fun n => { c with handOffTimeout := n }
  | "call_budget" => (word64? j).map fun n => { c with callBudget := n }
  | "default_call_timeout" =>
    (j.int?.bind Decimal.int64?).map fun n => { c with defaultCallTimeout := n }
  | "log_level" => (level? j).map fun l => { c with logLevel := l }
  | "log_destination" => (destination? j).map fun d => { c with logDestination := d }
  | _ => some c

/-- Whether a setting is given twice. -/
def hasRepeated (members : List (String × Json)) : Bool :=
  settings.any fun name => 1 < (members.filter fun m => m.1 == name).length

/-- The configuration of a JSON document. -/
def ofJson? : Json → Option Config
  | .object members =>
    if hasRepeated members then none
    else members.foldlM (fun c m => set? c m.1 m.2) {}
  | .array items =>
    if settings.length < items.length then none
    else (settings.zip items).foldlM (fun c m => set? c m.1 m.2) {}
  | _ => none

/-- Reads a configuration and checks it. -/
def ofText? (text : String) : Except ConfigError Config :=
  match (Json.ofText? text).bind ofJson? with
  | none => .error .notJson
  | some c => c.check.map fun _ => c

/-- The text in which a configuration is saved, one setting a line. -/
def text (c : Config) : String :=
  Json.indentedObject
    [("root_id", .text c.rootId),
      ("tick_period_ms", .ofInt c.tickPeriod),
      ("handoff_timeout_ms", .ofInt c.handOffTimeout),
      ("call_budget", .ofInt c.callBudget),
      ("default_call_timeout", .ofInt c.defaultCallTimeout.toInt),
      ("log_level", .text c.logLevel.text),
      ("log_destination", (c.logDestination.map fun e => Json.text e.text).getD .null)]

/-- The time between two ticks, unless ticking is switched off. -/
def tickDuration? (c : Config) : Option Duration :=
  if c.tickPeriod = 0 then none else some ⟨c.tickPeriod⟩

end Config

end Switchboard
