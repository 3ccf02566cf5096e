import Switchboard.Root.Tree
import Switchboard.Value.Stored

/-!
# Snapshots

A snapshot of a unit is a map of its type, its properties and its metadata, and for a container of
the snapshots of its children, their order and the connections between them. A unit can be made anew
from a snapshot, by its type, and be given the rest of it.
-/

namespace Switchboard

namespace Root

/-- The snapshot of a unit, with at most `fuel` levels of units below it. -/
def snapshotNode (r : Root) : Nat → Node → Value
  | 0, _ => .none
  | fuel + 1, n =>
    let children := n.children.filterMap fun (id, h) =>
      (r.units.get? h).map fun c => (id, snapshotNode r fuel c)
    .ofEntries
      ([("type", .text n.typeName), ("properties", .ofEntries n.iteration.properties),
          ("meta", .map n.metadata)]
        ++ if n.kind.isContainer then
            [("children", .ofEntries children),
              ("order", .list (children.map fun e => .text e.1)),
              ("connections", .list (n.connections.map Connection.value))]
          else [])

/-- The snapshot of the unit at an address. -/
def snapshot (r : Root) (p : Path) : Except RuntimeError Value :=
  (r.lookupNode p).map fun (_, n) => r.snapshotNode r.units.capacity n

/-- The snapshot of the unit at an address, as a text. -/
def snapshotText (r : Root) (p : Path) : Except RuntimeError String :=
  (r.snapshot p).map Value.stored

/-! ## Reading snapshots -/

/-- The fault of a snapshot that cannot be built. -/
def invalidSnapshot (text : String) : RuntimeError := .container (.invalidArgument text)

/-- The map under a key, if there is one. -/
def mapAt? (entries : Keyed Value) (key : String) : Option (Keyed Value) :=
  (entries.find? key).bind Value.map?

/-- The identifiers of the children in a snapshot, in the order in which they are to be made. -/
def childOrder (entries children : Keyed Value) : List String :=
  match Keyed.find? "order" entries with
  | some (.list ids) => ids.map Value.render
  | _ => children.map Prod.fst

/-- The children in a snapshot with their snapshots, in order. -/
def childSnapshots (entries : Keyed Value) : Named Value :=
  match mapAt? entries "children" with
  | none => []
  | some children =>
    (childOrder entries children).filterMap fun id =>
      (Keyed.find? id children).map fun v => (id, v)

/-- The connections in a snapshot. -/
def connectionValues (entries : Keyed Value) : List Value :=
  match Keyed.find? "connections" entries with
  | some (.list items) => items
  | _ => []

/-- The unit with the properties and the metadata of a snapshot. -/
def restoreNode (entries : Keyed Value) (n : Node) : Node :=
  let properties := (mapAt? entries "properties").getD []
  let iteration :=
    properties.foldl (fun (i : Iteration) e => i.restoreProperty e.1 e.2) n.iteration
  { n with iteration := iteration }.mergeMetadata ((mapAt? entries "meta").getD [])

/-- Makes connections, one after the other, until one is refused. -/
def restoreConnections (p : Path) : List Value → Root → Except RuntimeError Unit × Root
  | [], r => (.ok (), r)
  | v :: rest, r =>
    match Connection.ofArgs [v] with
    | .error e => (.error (.container e), r)
    | .ok c =>
      match r.connect p c with
      | (.error e, r) => (.error e, r)
      | (.ok (), r) => restoreConnections p rest r

/-- The type that a snapshot names. -/
def snapshotType (v : Value) : Except RuntimeError String :=
  match v with
  | .map entries =>
    match (Keyed.find? "type" entries).bind Value.text? with
    | some name => .ok name
    | none => .error (invalidSnapshot "snapshot has no type")
  | _ => .error (invalidSnapshot "snapshot must be a map")

/-- Does something with each entry, one after the other, until one is refused. -/
def forEntries (f : String → Value → Root → Except RuntimeError Unit × Root) :
    Named Value → Root → Except RuntimeError Unit × Root
  | [], r => (.ok (), r)
  | (id, v) :: rest, r =>
    match f id v r with
    | (.error e, r) => (.error e, r)
    | (.ok (), r) => forEntries f rest r

/-- Adds a child of the type that a snapshot names and gives it the rest of the snapshot. -/
def buildWith (restore : Path → Value → Root → Except RuntimeError Unit × Root) (parent : Path)
    (id : String) (v : Value) (r : Root) : Except RuntimeError Path × Root :=
  match snapshotType v with
  | .error e => (.error e, r)
  | .ok typeName =>
    match r.addChild parent id typeName with
    | (.error e, r) => (.error e, r)
    | (.ok p, r) =>
      match restore p v r with
      | (.error e, r) => (.error e, r)
      | (.ok (), r) => (.ok p, r)

/-- Adds a child from its entry in the snapshot of the unit at an address. -/
def buildEntry (restore : Path → Value → Root → Except RuntimeError Unit × Root) (parent : Path)
    (id : String) (v : Value) (r : Root) : Except RuntimeError Unit × Root :=
  match buildWith restore parent id v r with
  | (.error e, r) => (.error e, r)
  | (.ok _, r) => (.ok (), r)

/-- Gives the unit at an address what a snapshot of at most `fuel` levels holds: properties and
metadata, then children, then connections. -/
def restoreWithin : Nat → Path → Value → Root → Except RuntimeError Unit × Root
  | 0, _, _, r => (.ok (), r)
  | fuel + 1, p, v, r =>
    match r.lookup p, v with
    | .error e, _ => (.error e, r)
    | .ok h, .map entries =>
      let r := { r with units := r.units.modify h (restoreNode entries) }
      match forEntries (buildEntry (restoreWithin fuel) p) (childSnapshots entries) r with
      | (.error e, r) => (.error e, r)
      | (.ok (), r) => restoreConnections p (connectionValues entries) r
    | .ok _, _ => (.error (invalidSnapshot "snapshot must be a map"), r)

/-- Gives the unit at an address what a snapshot holds. -/
def restore (r : Root) (p : Path) (v : Value) : Except RuntimeError Unit × Root :=
  restoreWithin v.depth p v r

/-- Adds a child made from a snapshot. -/
def build (r : Root) (parent : Path) (id : String) (v : Value) : Except RuntimeError Path × Root :=
  buildWith (restoreWithin v.depth) parent id v r

/-- Adds a child made from the text of a snapshot. -/
def buildText (r : Root) (parent : Path) (id : String) (text : String) :
    Except RuntimeError Path × Root :=
  match Value.ofStored? text with
  | .error e => (.error (invalidSnapshot e.message), r)
  | .ok v => r.build parent id v

end Root

end Switchboard
