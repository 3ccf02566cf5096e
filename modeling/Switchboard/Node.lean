import Switchboard.Arena
import Switchboard.Connection
import Switchboard.Iteration

/-!
# Units

A unit is a node of the tree: it has an address, a behavior in place, metadata, and, if it is a
container, children and connections between their ports. Its life cycle is driven from outside; on
its own it only knows whether it has been started since the last installation.
-/

namespace Switchboard

/-- The part that a unit plays in the tree. -/
inductive NodeKind where
  /-- A leaf. -/
  | component
  /-- A unit that may have children. -/
  | container
  /-- The unit at the top, a container too. -/
  | root
deriving DecidableEq

namespace NodeKind

/-- Whether units of the kind may have children. -/
def isContainer : NodeKind → Bool
  | .component => false
  | _ => true

/-- The name of a kind of unit. -/
def name : NodeKind → String
  | .component => "component"
  | .container => "container"
  | .root => "root"

end NodeKind

/-- A unit of the tree. -/
structure Node where
  address : Path
  parent : Option Handle
  kind : NodeKind
  typeName : String
  iteration : Iteration := .empty
  /-- Whether it has been started since the last installation. -/
  started : Bool := false
  children : Named Handle := []
  /-- The connections between the children, sorted. -/
  connections : List Connection := []
  metadata : Keyed Value := []

namespace Node

/-- The child of an identifier. -/
def child? (n : Node) (id : String) : Option Handle := Named.find? id n.children

/-- Puts a child behind the others. -/
def insertChild (n : Node) (id : String) (h : Handle) : Node :=
  { n with children := Named.push id h n.children }

/-- The unit without a child and without the connections that touch it. -/
def removeChild (n : Node) (id : String) : Node :=
  { n with
    children := Named.erase id n.children
    connections := n.connections.filter fun c => !c.touches id }

/-- The unit with one more connection, unless it has that one. -/
def connect? (n : Node) (c : Connection) : Option Node :=
  if c ∈ n.connections then none
  else some { n with connections := c.insertSorted n.connections }

/-- The unit without a connection that it has. -/
def disconnect? (n : Node) (c : Connection) : Option Node :=
  if c ∈ n.connections then some { n with connections := n.connections.filter fun d => d ≠ c }
  else none

/-- Gives metadata keys new values and keeps the other keys. -/
def mergeMetadata (n : Node) (entries : Keyed Value) : Node :=
  { n with metadata := entries.foldl (fun t e => t.insert e.1 e.2) n.metadata }

/-! ## Life cycle -/

/-- The unit and its turn after something was done with its iteration. -/
def withIteration (n : Node) (r : Iteration × Turn) : Node × Turn :=
  ({ n with iteration := r.1 }, r.2)

/-- Runs a hook of the installed iteration. -/
def runHook (s : Setting) (h : Hook) (n : Node) (t : Turn) : Node × Turn :=
  n.withIteration (n.iteration.runHook s h t)

/-- Makes the unit active; it is started unless it has been since the last installation. -/
def activate (s : Setting) (n : Node) (t : Turn) : Node × Turn :=
  let (n, t) := n.runHook s .init t
  if n.started then (n, t)
  else
    let (n, t) := n.runHook s .start t
    ({ n with started := true }, t)

/-- Puts another iteration in place; in an active root the unit becomes active with it. -/
def install (s : Setting) (next : Iteration) (active : Bool) (n : Node) (t : Turn) : Node × Turn :=
  let (n, t) := n.withIteration (next.attach s n.iteration t)
  let n := { n with started := false }
  if active then n.activate s t else (n, t)

/-- Runs the stop hook. -/
def stop (s : Setting) (n : Node) (t : Turn) : Node × Turn := n.runHook s .stop t

/-- Runs the reset hook. -/
def reset (s : Setting) (n : Node) (t : Turn) : Node × Turn := n.runHook s .reset t

/-- Runs the tick handler of the installed iteration. -/
def tick (s : Setting) (n : Node) (t : Turn) : Node × Turn := n.withIteration (n.iteration.tick s t)

/-- Gives up the installed iteration. -/
def dispose (s : Setting) (n : Node) (t : Turn) : Node × Turn :=
  n.withIteration (n.iteration.dispose s t)

/-- Hands values to a port. -/
def receive (s : Setting) (port : String) (values : List Value) (n : Node) (t : Turn) :
    Node × Turn :=
  n.withIteration (n.iteration.receive s port values t)

/-- Hands a call to the control that it names. -/
def invoke (s : Setting) (c : Call) (n : Node) (t : Turn) : Except Fault Unit × Node × Turn :=
  let (result, r) := n.iteration.invoke s c t
  (result, n.withIteration r)

/-! ## Description -/

/-- The value that lists texts. -/
def textList (ids : List String) : Value := .list (ids.map .text)

/-- The description of a unit. -/
def info (n : Node) : Value :=
  let members := n.iteration.members
  .ofEntries
    ([("address", .ofPath n.address), ("type", .text n.typeName), ("kind", .text n.kind.name),
        ("controls", textList (Named.names members.controls)),
        ("ports", textList (Named.names members.ports)),
        ("references", textList (Named.names members.references))]
      ++ if n.kind.isContainer then [("children", textList (Named.names n.children))] else [])

end Node

end Switchboard
