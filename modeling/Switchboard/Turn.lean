import Switchboard.Async
import Switchboard.Call
import Switchboard.Chronicle
import Switchboard.LogLevel

/-!
# Turns

While a unit does something it has a turn. It knows its setting, and nothing of what it does takes
effect outside at once: calls, emissions and log lines are gathered in its outbox, which is emptied
when the turn is over.
-/

namespace Switchboard

/-- What a unit knows of the world during a turn. -/
structure Setting where
  /-- The path of the unit, unless it belongs to no tree. -/
  address : Option Path
  time : Int64
  /-- Units known by a name to all. -/
  services : Keyed Path
  /-- Threshold of log lines. -/
  threshold : LogLevel

/-- A line of the log. -/
structure LogEntry where
  level : LogLevel
  time : Int64
  message : String
deriving DecidableEq

/-- The form in which a log line travels in a call. -/
def LogEntry.value (e : LogEntry) : Value :=
  .list [.text e.level.text, .int e.time, .text e.message]

/-- What a unit has produced during a turn, each in order. -/
structure Outbox where
  calls : List Call := []
  /-- Output ports with the values emitted on them. -/
  emissions : List (String × List Value) := []
  log : List LogEntry := []
deriving DecidableEq

/-- An outbox with nothing in it. -/
def Outbox.empty : Outbox := {}

/-- Whether a turn has produced nothing. -/
def Outbox.isEmpty (o : Outbox) : Bool := o.calls.isEmpty && o.emissions.isEmpty && o.log.isEmpty

/-- An entry of the journal in which behaviors write down what happens to them. -/
inductive Note where
  | values (unit : Option Path) (tag : String) (values : List Value)
  | call (unit : Option Path) (tag : String) (call : Call) (answered : Bool)
  | outcome (tag : String) (outcome : Outcome)

/-- What has become of a script. -/
inductive ScriptFate where
  /-- It has been taken into the queue of its caller. -/
  | accepted
  /-- It has run for a while and has sent these calls. -/
  | ran (sent : List Call)
  /-- It has been handed the answer that it waited for. -/
  | resumed (answer : Call)
  /-- It has run to its end. -/
  | ended
  /-- It has been given up. -/
  | cancelled
  /-- It did not come to rest within the bound on the steps of a run. -/
  | stuck
deriving DecidableEq

/-- An entry of the history of scripts. A script is known by the call that brought it. -/
structure ScriptEvent where
  call : Call
  fate : ScriptFate
deriving DecidableEq

/-- What changes during a turn. -/
structure Turn where
  ledger : Ledger
  outbox : Outbox := {}
  /-- The controls attached so far while a behavior is being installed. -/
  attached : List String := []
  /-- The journal, newest entry first. -/
  journal : List Note := []
  /-- What has become of members and values. Nothing depends on it. -/
  chronicle : Chronicle := {}
  /-- What has become of scripts, in order. Nothing depends on it. -/
  scripts : List ScriptEvent := []

namespace Turn

/-- Sends a call. -/
def send (t : Turn) (c : Call) : Turn :=
  { t with outbox := { t.outbox with calls := t.outbox.calls ++ [c] } }

/-- Sends several calls in turn. -/
def sendAll (t : Turn) (cs : List Call) : Turn :=
  { t with outbox := { t.outbox with calls := t.outbox.calls ++ cs } }

/-- Sends the answer to a call, where it may be answered. -/
def answer (t : Turn) (c : Call) (kind : CallKind) (args : List Value) : Except CallError Turn :=
  (t.ledger.answer c kind args).map fun (a, ledger) => { t with ledger := ledger }.send a

/-- Answers a request with values. -/
def reply (t : Turn) (c : Call) (args : List Value) : Except CallError Turn :=
  t.answer c .reply args

/-- Answers a request with a fault. -/
def error (t : Turn) (c : Call) (f : Fault) : Except CallError Turn := t.answer c .error [.fault f]

/-- Hands values out at a port. -/
def emit (t : Turn) (port : String) (values : List Value) : Turn :=
  { t with outbox := { t.outbox with emissions := t.outbox.emissions ++ [(port, values)] } }

/-- Writes a log line whatever the threshold. -/
def logAlways (s : Setting) (t : Turn) (level : LogLevel) (message : String) : Turn :=
  { t with outbox := { t.outbox with log := t.outbox.log ++ [⟨level, s.time, message⟩] } }

/-- Writes a log line that passes the threshold. -/
def log (s : Setting) (t : Turn) (level : LogLevel) (message : String) : Turn :=
  if level.passes s.threshold then t.logAlways s level message else t

/-- Writes an entry into the journal. -/
def note (t : Turn) (n : Note) : Turn := { t with journal := n :: t.journal }

/-- Changes the chronicle. -/
def record (t : Turn) (f : Chronicle → Chronicle) : Turn := { t with chronicle := f t.chronicle }

/-- Enters something in the history of scripts. -/
def script (t : Turn) (c : Call) (fate : ScriptFate) : Turn :=
  { t with scripts := t.scripts ++ [⟨c, fate⟩] }

end Turn

/-- An endpoint of the unit itself. -/
def Setting.endpoint (s : Setting) (id : String) : Except Fault Endpoint :=
  match s.address with
  | none => .error (.routing "unit is detached")
  | some p => (p.endpoint? id).mapError AddressError.fault

end Switchboard
