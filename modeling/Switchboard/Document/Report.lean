import Switchboard.Document.Error
import Switchboard.Root.Host
import Switchboard.Text.Quoted

/-!
# Documents of what goes on

What can be seen of calls, units and roots from outside.
-/

namespace Switchboard

/-- The name of a kind of call. -/
def CallKind.name : CallKind → String
  | .request => "request"
  | .quiet => "quiet"
  | .reply => "reply"
  | .error => "error"

/-- The name of a state of activity. -/
def Activity.name : Activity → String
  | .fresh => "new"
  | .active => "active"
  | .idle => "idle"

/-- The name of what became of a response. -/
def Resolution.name : Resolution → String
  | .completed => "completed"
  | .failed => "failed"
  | .unexpected => "unexpected"
  | .ignored => "ignored"

namespace Document

/-- The document of a path. -/
def ofPath (p : Path) : Json := .text p.text

/-- The document of a call; the flag tells whether it has been answered. -/
def ofCall (answered : Bool) (c : Call) : Json :=
  .object
    [("id", .ofInt c.matchId), ("kind", .text c.kind.name),
      ("from", .optional (fun e : Endpoint => .text e.text) c.source),
      ("to", .text c.target.text), ("time", .ofInt c.time.toInt), ("args", ofValues c.args),
      ("answered", .bool answered)]

/-- The document of a call as the ledger knows it now. -/
def ofCallIn (l : Ledger) (c : Call) : Json := ofCall (l.isAnswered c) c

/-- The document of a journal entry: the unit, the tag and what was noted. -/
def ofNote : Note → Json
  | .values unit tag vs => .array [.optional ofPath unit, .text tag, ofValues vs]
  | .call unit tag c answered => .array [.optional ofPath unit, .text tag, ofCall answered c]
  | .outcome tag o => .array [.text "callback", .text tag, ofOutcome o]

/-- The member that holds a journal, unless it is empty. -/
def journalMember (newestFirst : List Note) : List (String × Json) :=
  if newestFirst.isEmpty then []
  else [("journal", .array (newestFirst.reverse.map ofNote))]

/-- The document of a log line: level, time and message. -/
def ofLogEntry (e : LogEntry) : Json :=
  .array [.text e.level.text, .ofInt e.time.toInt, .text e.message]

/-- The document of an emission: the port and the values. -/
def ofEmission (e : String × List Value) : Json := .array [.text e.1, ofValues e.2]

/-- The members that hold what a turn has produced. -/
def outboxMembers (l : Ledger) (o : Outbox) : List (String × Json) :=
  [("calls", .array (o.calls.map (ofCallIn l))),
    ("emissions", .array (o.emissions.map ofEmission)), ("log", .array (o.log.map ofLogEntry))]

/-- The document of a unit. -/
def ofNode (n : Node) : Json :=
  .object
    [("info", ofValue n.info), ("started", .bool n.started), ("meta", ofValue (.map n.metadata)),
      ("properties", .array (ofEntries n.iteration.properties)),
      ("connections", .array (n.connections.map fun c => .text c.text)),
      ("hashed", .bool n.iteration.source.isSome)]

/-- The document of a connection. -/
def ofConnection (c : Connection) : Json :=
  .object
    [("source", .text c.source), ("source_port", .text c.sourcePort), ("target", .text c.target),
      ("target_port", .text c.targetPort), ("display", .text c.text), ("value", ofValue c.value)]

/-- The members that show a configuration, each setting and the two durations in words. -/
def configMembers (c : Config) : List (String × Json) :=
  [("root_id", .text c.rootId), ("tick_period_ms", .ofInt c.tickPeriod),
    ("handoff_timeout_ms", .ofInt c.handOffTimeout), ("call_budget", .ofInt c.callBudget),
    ("default_call_timeout", .ofInt c.defaultCallTimeout.toInt),
    ("log_level", .text c.logLevel.text),
    ("log_destination", .optional (fun e : Endpoint => .text e.text) c.logDestination),
    ("tick_period", .optional (fun d : Duration => .text d.text) c.tickDuration?),
    ("handoff_timeout", .text (Duration.text ⟨c.handOffTimeout⟩))]

/-- How far a script has come: it waits for an answer, or it has ended. -/
def ofStackOutcome : StackOutcome → Json
  | .suspended id => .object [("suspended", .ofInt id)]
  | .done ending result => .object [("state", .text ending.name), ("result", ofValues result)]

/-- What can be seen of a handle: whether there is an outcome, whether it has been given up, and the
outcome. -/
def ofAsync (a : Async) : Json :=
  .array [.bool a.isDone, .bool a.cancelled, .optional ofOutcome a.outcome]

/-- A line about the scope that a reference names: its variables, how many commands it has, and
whether another one encloses it. -/
def scopeText (s : Scopes) (r : ScopeRef) : String :=
  let scope := s.scope r.own
  let names := scope.bindings.map fun e => Text.quoted e.1
  "Namespace \x7b vars: [" ++ Text.join ", " names ++ "], commands: "
    ++ Decimal.ofNat scope.commands.length ++ ", nested: "
    ++ (if r.enclosing.isEmpty then "false" else "true") ++ " \x7d"

/-- The document of a root and of everything in it. -/
def ofRoot (r : Root) : Json :=
  .object
    [("address", ofPath r.address), ("host", .text r.host.text), ("time", .ofInt r.time.toInt),
      ("state", .text r.clock.activity.name), ("running", .bool r.clock.isActive),
      ("idle", .bool r.isIdle), ("scheduled", .ofInt r.scheduler.size),
      ("units", .ofInt r.units.size)]

end Document

end Switchboard
