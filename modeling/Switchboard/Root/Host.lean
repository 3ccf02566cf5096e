import Switchboard.Root.Dispatch

/-!
# The host of a root

The host uses a root from outside: it sends calls, makes requests and gets their outcomes through
handles or callbacks, and pushes values into ports.
-/

namespace Switchboard

namespace Root

/-- A request of the host that has not been sent yet. -/
def makeRequest (r : Root) (target : Endpoint) (args : List Value) : Call × Root :=
  let (c, ledger) := r.ledger.request target r.host r.time args
  (c, { r with ledger := ledger })

/-- A new handle that waits for the answer to a call; if the call cannot be waited for, the handle
fails at once and there is no root to go on with. -/
def awaitCall (r : Root) (c : Call) : HandleId × Except Root Root :=
  let (id, handles) := r.handles.create
  match r.requests.register c id with
  | .ok table => (id, .ok { r with requests := table, handles := handles })
  | .error e => (id, .error { r with handles := (handles.resolve id (.error e.fault)).2 })

/-- Makes a request whose outcome goes to a handle. -/
def request (r : Root) (target : Endpoint) (args : List Value) : HandleId × Root :=
  let (c, r) := r.makeRequest target args
  match r.awaitCall c with
  | (id, .ok r) => (id, r.send c)
  | (id, .error r) => (id, r)

/-- Makes a request that fails after some time, if its answer has not come by then. -/
def requestWithTimeout (r : Root) (target : Endpoint) (args : List Value)
    (wait : Option Int64) : HandleId × Root :=
  let (c, r) := r.makeRequest target args
  match r.awaitCall c with
  | (id, .error r) => (id, r)
  | (id, .ok r) =>
    let (expiry, ledger) := CallTable.scheduleTimeout r.ledger c.matchId r.timeout
      (r.time + wait.getD r.config.defaultCallTimeout)
    (id, ({ r with ledger := ledger }.send c).send expiry)

/-- Makes a request whose outcome goes to a callback. -/
def requestWith (r : Root) (target : Endpoint) (args : List Value) (tag : String) :
    Except RuntimeError Unit × Root :=
  let (c, r) := r.makeRequest target args
  match r.callbacks.registerCallback c tag with
  | .ok table => (.ok (), { r with callbacks := table }.send c)
  | .error e => (.error (.call e), r)

/-- Makes a request whose outcome goes to a handle that is kept whether its owner holds it or
not. -/
def requestFirmly (r : Root) (target : Endpoint) (args : List Value) : HandleId × Root :=
  let (c, r) := r.makeRequest target args
  let (id, handles) := r.handles.create
  match r.callbacks.register c id with
  | .ok table => (id, { r with callbacks := table, handles := handles }.send c)
  | .error e => (id, { r with handles := (handles.resolve id (.error e.fault)).2 })

/-- Makes a request that is never answered. -/
def notify (r : Root) (target : Endpoint) (args : List Value) : Root :=
  let (c, ledger) := r.ledger.quiet target (some r.host) r.time args
  { r with ledger := ledger }.send c

/-- Hands values to an input port at once. -/
def push (r : Root) (p : PortAddress) (values : List Value) : Except RuntimeError Unit × Root :=
  match r.lookup p.path with
  | .error e => (.error e, r)
  | .ok h => (.ok (), r.act h (Node.receive · p.id.text values))

/-- Gives up waiting on a handle. -/
def cancelRequest (r : Root) (id : HandleId) : Root := { r with handles := r.handles.cancel id }

/-- Gives up a handle. -/
def dropHandle (r : Root) (id : HandleId) : Root := { r with handles := r.handles.drop id }

/-- Takes the outcome out of a handle. -/
def takeOutcome (r : Root) (id : HandleId) : Option Outcome × Root :=
  let (o, handles) := r.handles.take id
  (o, { r with handles := handles })

/-- Makes a unit known as a service. -/
def registerService (r : Root) (name : String) (p : Path) : Root :=
  { r with services := r.services.insert name p }

/-- Adds a script unit and makes it known as the service of that name. -/
def addExecutor (r : Root) (parent : Path) (id : String) : Except RuntimeError Path × Root :=
  match r.addChild parent id Catalog.scriptType with
  | (.error e, r) => (.error e, r)
  | (.ok p, r) => (.ok p, r.registerService Catalog.scriptService p)

/-- Makes a unit type known. -/
def registerType (r : Root) (name : String) (t : UnitType) : Root :=
  { r with catalog := r.catalog.register name t }

end Root

end Switchboard
