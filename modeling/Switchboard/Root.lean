import Switchboard.CallTable
import Switchboard.Catalog
import Switchboard.Config
import Switchboard.Node
import Switchboard.Scheduler

/-!
# Roots

A root holds a tree of units with everything that they share: the clock, the calls that are under
way, the catalog, the services, and the requests of the host, which is whoever uses the root from
outside. Units act in turns; what a unit has produced in a turn is sent when the turn is over.
-/

namespace Switchboard

/-- What has become of the calls of a root. Nothing in a root depends on it. -/
structure History where
  /-- The calls that were handed over to be sent, the last one first. -/
  posted : List Call := []
  /-- The calls that were dispatched, with the time of the clock then, the last one first. -/
  dispatched : List (Call × Int64) := []
  /-- The times that the clock has had, the last one first. -/
  times : List Int64 := []

/-- A tree of units and what they share. A callback of the host is known by a tag. -/
structure Root where
  config : Config
  /-- The address of the root unit. -/
  address : Path
  units : Arena Node
  /-- The handles of the units by address. -/
  index : List (Path × Handle)
  /-- The root unit. -/
  top : Handle
  /-- The clock; all units are its listeners. -/
  clock : Clock Handle
  /-- Calls to be dispatched, the next one first. -/
  queue : List Call := []
  /-- Calls dated ahead of the clock. -/
  scheduler : Scheduler := {}
  /-- Values emitted on ports, the next ones first. -/
  portQueue : List (PortAddress × List Value) := []
  catalog : Catalog
  compiler : Option Compiler := none
  services : Keyed Path := []
  /-- Requests of the host whose answers go to handles. -/
  requests : CallTable String := .payload .weak
  /-- Requests of the host whose answers go to callbacks. -/
  callbacks : CallTable String := .payload .strong
  handles : AsyncStore := {}
  ledger : Ledger := {}
  /-- The journal, newest entry first. -/
  journal : List Note := []
  history : History := {}
  /-- The handles of all units that were ever added, the last one first. Nothing depends on it. -/
  created : List Handle := []
  /-- The members of all behaviors that were ever put in place, the last ones first. Nothing depends
  on them. -/
  installed : List Members := []
  /-- What has become of members and values. Nothing depends on it. -/
  chronicle : Chronicle := {}

/-- The endpoint that answers to the host are sent to. -/
def hostId : EndpointId := ⟨"_host", by decide⟩

/-- The endpoint that timeouts are sent to. -/
def timeoutId : EndpointId := ⟨"_timeout", by decide⟩

namespace Root

/-- A root with nothing but the root unit. -/
def new (config : Config) (catalog : Catalog) : Except RuntimeError Root := do
  config.check.mapError .config
  let address ← (Path.ofRoot? config.rootId).mapError .address
  let (top, units) := ({} : Arena Node).insert
    { address := address, parent := none, kind := .root, typeName := Catalog.rootType }
  pure
    { config := config, address := address, units := units, index := [(address, top)], top := top,
      clock := (Clock.start 0).attach top, catalog := catalog, history := { times := [0] },
      created := [top] }

/-- The control at which answers to the host arrive. -/
def host (r : Root) : Endpoint := ⟨r.address, hostId⟩

/-- The control at which expired waits arrive. -/
def timeout (r : Root) : Endpoint := ⟨r.address, timeoutId⟩

/-- The time of the clock. -/
def time (r : Root) : Int64 := r.clock.time

/-! ## Units -/

/-- The handle of the unit at an address. -/
def handle? (r : Root) (p : Path) : Option Handle := (r.index.find? fun e => e.1 == p).map Prod.snd

/-- The unit at an address. -/
def unit? (r : Root) (p : Path) : Option Node := (r.handle? p).bind r.units.get?

/-- Whether there is a unit at a path. -/
def contains (r : Root) (p : Path) : Bool := (r.handle? p).isSome

/-- The fault of a path with no unit. -/
def notFound (p : Path) : RuntimeError := .install (.unitNotFound p.text)

/-- The handle of the unit at a path, which must be there. -/
def lookup (r : Root) (p : Path) : Except RuntimeError Handle :=
  match r.handle? p with
  | some h => .ok h
  | none => .error (notFound p)

/-- The handle and the state of the unit at an address. -/
def lookupNode (r : Root) (p : Path) : Except RuntimeError (Handle × Node) := do
  let h ← r.lookup p
  match r.units.get? h with
  | some n => .ok (h, n)
  | none => .error (notFound p)

/-- The value of a property. -/
def property? (r : Root) (e : Endpoint) : Option Value :=
  (r.unit? e.path).bind fun n => Named.find? e.id.text n.iteration.properties

/-- Whether nothing is to be processed now. -/
def isIdle (r : Root) : Bool := r.queue.isEmpty && r.portQueue.isEmpty

/-! ## Turns -/

/-- Sends a call; if it is dated ahead of the clock, it waits for its time. -/
def send (r : Root) (c : Call) : Root :=
  let history := { r.history with posted := c :: r.history.posted }
  if isAfter c.time r.time then
    { r with scheduler := r.scheduler.schedule c, history := history }
  else { r with queue := r.queue ++ [c], history := history }

/-- Queues what was emitted on a port; what was emitted under a name that no port can have is
lost. -/
def emit (source : Path) (r : Root) (e : String × List Value) : Root :=
  match source.port? e.1 with
  | .ok p => { r with portQueue := r.portQueue ++ [(p, e.2)] }
  | .error _ => r

/-- Sends log lines to the endpoint that is configured to receive them, in one quiet call, unless it
belongs to the unit that wrote them. -/
def sendLog (source : Path) (r : Root) (lines : List LogEntry) : Root :=
  match r.config.logDestination with
  | none => r
  | some destination =>
    if lines.isEmpty || destination.path = source then r
    else
      let (c, ledger) := r.ledger.quiet destination none r.time
        [.ofPath source, .list (lines.map LogEntry.value)]
      { r with ledger := ledger }.send c

/-- Sends what a unit has produced in a turn: calls, emissions, and at last the log. -/
def flush (source : Path) (r : Root) (o : Outbox) : Root :=
  sendLog source (o.emissions.foldl (emit source) (o.calls.foldl send r)) o.log

/-- What a unit knows of the world. -/
def setting (r : Root) (p : Path) : Setting := ⟨some p, r.time, r.services, r.config.logLevel⟩

/-- The turn with which a unit begins. -/
def turn (r : Root) : Turn where
  ledger := r.ledger
  journal := r.journal
  chronicle := r.chronicle

/-- Gives a unit a turn and sends what it produces; nothing happens where there is no such unit. -/
def inTurn {α : Type} (r : Root) (h : Handle) (f : Setting → Node → Turn → α × Node × Turn) :
    Option α × Root :=
  match r.units.get? h with
  | none => (none, r)
  | some n =>
    let (a, m, t) := f (r.setting n.address) n r.turn
    let r := { r with
      units := r.units.set h m, ledger := t.ledger, journal := t.journal
      chronicle := t.chronicle }
    (some a, r.flush n.address t.outbox)

/-- Gives a unit a turn that has no result. -/
def act (r : Root) (h : Handle) (f : Setting → Node → Turn → Node × Turn) : Root :=
  (r.inTurn h fun s n t => ((), f s n t)).2

/-- Gives units a turn each, one after the other. -/
def actAll (r : Root) (hs : List Handle) (f : Setting → Node → Turn → Node × Turn) : Root :=
  hs.foldl (fun r h => r.act h f) r

/-! ## Activity -/

/-- Makes the root active and with it all units; the flag tells whether it was not active yet. -/
def start (r : Root) : Bool × Root :=
  match r.clock.become? .active with
  | none => (false, r)
  | some clock => (true, { r with clock := clock }.actAll clock.listeners Node.activate)

/-- Deactivates the root: all units are stopped, then all are reset. -/
def stop (r : Root) : Bool × Root :=
  match r.clock.become? .idle with
  | none => (false, r)
  | some clock =>
    let stopped := { r with clock := clock }.actAll clock.listeners Node.stop
    (true, stopped.actAll clock.listeners Node.reset)

end Root

end Switchboard
