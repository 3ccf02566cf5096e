import Switchboard.Root

/-!
# The tree of a root

Adding and removing units, connecting their ports, and replacing their behaviors. Each operation
first checks all that can be wrong and then does its work, so a refused one changes nothing; only
the removal of a child that does not exist drops the connections that name it.
-/

namespace Switchboard

namespace Root

/-! ## Adding units -/

/-- The container at an address. -/
def lookupContainer (r : Root) (p : Path) : Except RuntimeError (Handle × Node) := do
  let (h, n) ← r.lookupNode p
  if n.kind.isContainer then .ok (h, n) else .error (.container (.notAContainer p.text))

/-- The parent, the address and the iteration of a unit that may be added. -/
def checkUnit (r : Root) (parent : Path) (id : String) (b : Behavior) :
    Except RuntimeError (Handle × Path × Iteration) := do
  let (h, n) ← r.lookupContainer parent
  if (n.child? id).isSome then throw (.container (.duplicateChild id))
  let address ← (parent.child? id).mapError .address
  let iteration ← (Iteration.ofBehavior b).mapError .install
  pure (h, address, iteration)

/-- Enters the members of an iteration among those that were put in place. -/
def enlist (r : Root) (i : Iteration) : Root := { r with installed := i.members :: r.installed }

/-- Puts the iteration of a unit in place. -/
def putIteration (r : Root) (h : Handle) (i : Iteration) : Root :=
  (r.enlist i).act h (Node.install · { i with number := r.installed.length } r.clock.isActive)

/-- Adds a unit without a behavior to the tree. -/
def insertNode (r : Root) (parent : Handle) (id : String) (n : Node) : Handle × Root :=
  let (h, units) := r.units.insert n
  (h, { r with
    units := units.modify parent fun p => p.insertChild id h
    index := (n.address, h) :: r.index.filter fun e => e.1 ≠ n.address
    clock := r.clock.attach h
    created := h :: r.created })

/-- Adds a unit below another. -/
def addUnit (r : Root) (parent : Path) (id typeName : String) (kind : NodeKind) (b : Behavior) :
    Except RuntimeError Path × Root :=
  match r.checkUnit parent id b with
  | .error e => (.error e, r)
  | .ok (h, address, iteration) =>
    let (child, r) := r.insertNode h id
      { address := address, parent := some h, kind := kind, typeName := typeName }
    (.ok address, r.putIteration child iteration)

/-- Adds a unit of a type of the catalog. -/
def addChild (r : Root) (parent : Path) (id typeName : String) : Except RuntimeError Path × Root :=
  match r.catalog.find? typeName with
  | .error e => (.error (.container e), r)
  | .ok t =>
    r.addUnit parent id typeName (if t.container then .container else .component) t.behavior

/-- Adds a leaf with a behavior of its own. -/
def addChildWith (r : Root) (parent : Path) (id typeName : String) (b : Behavior) :
    Except RuntimeError Path × Root :=
  r.addUnit parent id typeName .component b

/-! ## Removing units -/

/-- Takes a unit without children out of the tree. -/
def dropNode (r : Root) (h : Handle) : Root :=
  let r := r.act h Node.dispose
  let (removed, units) := r.units.remove h
  let index := match removed with
    | some n => r.index.filter fun e => e.1 ≠ n.address
    | none => r.index
  { r with units := units, index := index, clock := r.clock.detach h }

/-- Removes a unit after all units below it, at most `fuel` levels of them. -/
def removeSubtree : Nat → Handle → Root → Root
  | 0, _, r => r
  | fuel + 1, h, r =>
    match r.units.get? h with
    | none => r
    | some n => (n.children.foldl (fun r e => removeSubtree fuel e.2 r) r).dropNode h

/-- Removes a child and all units below it. -/
def removeChild (r : Root) (parent : Path) (id : String) : Except RuntimeError Unit × Root :=
  match r.lookup parent with
  | .error e => (.error e, r)
  | .ok h =>
    let child := (r.units.get? h).bind fun n => n.child? id
    let r := { r with units := r.units.modify h fun n => n.removeChild id }
    match child with
    | none => (.error (.container (.unknownChild id)), r)
    | some c => (.ok (), removeSubtree r.units.capacity c r)

/-! ## Connections -/

/-- Whether a child has a port of this direction. -/
def checkEnd (r : Root) (n : Node) (child port : String) (d : PortDirection) :
    Except RuntimeError Unit :=
  match (n.child? child).bind r.units.get? with
  | none => .error (.container (.unknownChild child))
  | some c =>
    if c.iteration.portDirection? port = some d then .ok ()
    else .error (.container (.unknownPort (child ++ "!" ++ port)))

/-- The container with a connection that may be made, from an output to an input. -/
def checkConnection (r : Root) (container : Path) (c : Connection) :
    Except RuntimeError (Handle × Node) := do
  let (h, n) ← r.lookupContainer container
  r.checkEnd n c.source c.sourcePort .output
  r.checkEnd n c.target c.targetPort .input
  match n.connect? c with
  | some m => pure (h, m)
  | none => throw (.container (.duplicateConnection c.text))

/-- Connects the ports of two children. -/
def connect (r : Root) (container : Path) (c : Connection) : Except RuntimeError Unit × Root :=
  match r.checkConnection container c with
  | .error e => (.error e, r)
  | .ok (h, n) => (.ok (), { r with units := r.units.set h n })

/-- Removes a connection. -/
def disconnect (r : Root) (container : Path) (c : Connection) : Except RuntimeError Unit × Root :=
  match r.lookup container with
  | .error e => (.error e, r)
  | .ok h =>
    match (r.units.get? h).bind fun n => n.disconnect? c with
    | some n => (.ok (), { r with units := r.units.set h n })
    | none => (.error (.container (.invalidConnection ("no connection " ++ c.text))), r)

/-! ## Behaviors -/

/-- The unit at a path and the iteration of a behavior that may be installed there. -/
def checkInstall (r : Root) (p : Path) (b : Behavior) :
    Except RuntimeError (Handle × Iteration) := do
  let h ← r.lookup p
  let iteration ← (Iteration.ofBehavior b).mapError .install
  pure (h, iteration)

/-- Replaces the behavior of a unit. -/
def install (r : Root) (p : Path) (b : Behavior) : Except RuntimeError Unit × Root :=
  match r.checkInstall p b with
  | .error e => (.error e, r)
  | .ok (h, iteration) => (.ok (), r.putIteration h iteration)

/-- The iteration of a source; there is none if the unit has been compiled from that source. -/
def checkSource (r : Root) (p : Path) (source : String) :
    Except RuntimeError (Handle × Option Iteration) := do
  let (h, n) ← r.lookupNode p
  if n.iteration.source = some source then pure (h, none)
  else match r.compiler with
    | none => throw (.install .noCompiler)
    | some compiler =>
      let b ← (compiler.compile n.typeName source).mapError fun e => .install (.compile e)
      let iteration ← (Iteration.ofBehavior b).mapError .install
      pure (h, some { iteration with source := some source })

/-- Replaces the behavior of a unit by one compiled from a source; the flag tells whether the source
was another one. -/
def installSource (r : Root) (p : Path) (source : String) : Except RuntimeError Bool × Root :=
  match r.checkSource p source with
  | .error e => (.error e, r)
  | .ok (_, none) => (.ok false, r)
  | .ok (h, some iteration) => (.ok true, r.putIteration h iteration)

end Root

end Switchboard
