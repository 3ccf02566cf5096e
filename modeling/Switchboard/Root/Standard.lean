import Switchboard.Root.Snapshot

/-!
# Standard controls of a root

What the root answers for its units to requests for their standard controls.
-/

namespace Switchboard

namespace Root

/-- The text that a request has to have at a place among its arguments. -/
def textArg (args : List Value) (i : Nat) (what : String) : Except Fault String :=
  match args[i]?.bind Value.text? with
  | some s => .ok s
  | none => .error (.argument ("missing " ++ what ++ " argument"))

/-- The answer to a request that may have changed the root. -/
def answerWith {α : Type} (r : Except RuntimeError α × Root) (values : α → List Value) :
    Except Fault (List Value) × Root :=
  ((r.1.mapError RuntimeError.fault).map values, r.2)

/-- Reads or writes an entry of the metadata of a unit. -/
def answerMetadata (r : Root) (h : Handle) (n : Node) :
    List Value → Except Fault (List Value) × Root
  | [] => (.ok [.map n.metadata], r)
  | [key] => (.ok [(n.metadata.find? key.render).getD .none], r)
  | [key, v] =>
    (.ok [v],
      { r with units := r.units.set h { n with metadata := n.metadata.insert key.render v } })
  | _ => (.error (.argument "meta expects at most a key and a value"), r)

/-- Answers a request to merge metadata. -/
def answerMergeMetadata (r : Root) (h : Handle) (n : Node) (args : List Value) :
    Except Fault (List Value) × Root :=
  match args with
  | .map entries :: _ =>
    let n := n.mergeMetadata entries
    (.ok [.map n.metadata], { r with units := r.units.set h n })
  | _ => (.error (.argument "meta-merge expects a map"), r)

/-- Answers a request to install source text; the answer tells whether anything changed. -/
def answerCode (r : Root) (p : Path) (args : List Value) : Except Fault (List Value) × Root :=
  match textArg args 0 "source" with
  | .error f => (.error f, r)
  | .ok source => answerWith (r.installSource p source) fun changed => [.bool changed]

/-- Answers a request to make a child. -/
def answerAddChild (r : Root) (p : Path) (args : List Value) : Except Fault (List Value) × Root :=
  match textArg args 0 "child id", textArg args 1 "type" with
  | .error f, _ => (.error f, r)
  | .ok _, .error f => (.error f, r)
  | .ok id, .ok typeName => answerWith (r.addChild p id typeName) fun child => [.ofPath child]

/-- Answers a request to remove a child. -/
def answerRemoveChild (r : Root) (p : Path) (args : List Value) :
    Except Fault (List Value) × Root :=
  match textArg args 0 "child id" with
  | .error f => (.error f, r)
  | .ok id => answerWith (r.removeChild p id) fun _ => []

/-- Does something with the connection that the arguments stand for. -/
def answerConnection (r : Root) (args : List Value)
    (f : Connection → Except RuntimeError Unit × Root) : Except Fault (List Value) × Root :=
  match Connection.ofArgs args with
  | .error e => (.error e.fault, r)
  | .ok c => answerWith (f c) fun _ => []

/-- Answers a standard control of a unit that has it. -/
def runStandard (r : Root) (h : Handle) (n : Node) (args : List Value) :
    StandardControl → Except Fault (List Value) × Root
  | .info => (.ok [n.info], r)
  | .metadata => r.answerMetadata h n args
  | .mergeMetadata => r.answerMergeMetadata h n args
  | .code => r.answerCode n.address args
  | .addChild => r.answerAddChild n.address args
  | .removeChild => r.answerRemoveChild n.address args
  | .children => (.ok [Node.textList (Named.names n.children)], r)
  | .connect => r.answerConnection args (r.connect n.address)
  | .disconnect => r.answerConnection args (r.disconnect n.address)
  | .connections => (.ok [.list (n.connections.map Connection.value)], r)
  | .serialize => (((r.snapshot n.address).mapError RuntimeError.fault).map fun v => [v], r)
  | .start =>
    let (changed, r) := r.start
    (.ok [.bool changed], r)
  | .stop =>
    let (changed, r) := r.stop
    (.ok [.bool changed], r)
  | .isRunning => (.ok [.bool r.clock.isActive], r)

/-- Answers a request for a standard control; not every unit has them all. -/
def answerStandard (r : Root) (h : Handle) (control : StandardControl) (c : Call) :
    Except Fault (List Value) × Root :=
  match r.units.get? h with
  | none => (.error (.routing ("no unit at " ++ c.target.text)), r)
  | some n =>
    if control.needsContainer && !n.kind.isContainer then
      (.error (ContainerError.notAContainer n.address.text).fault, r)
    else if control.needsRoot && n.kind != .root then
      (.error (.routing ("unknown control '" ++ c.target.text ++ "'")), r)
    else r.runStandard h n c.args control

end Root

end Switchboard
