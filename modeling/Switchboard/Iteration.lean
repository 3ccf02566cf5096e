import Switchboard.Behavior

/-!
# Iterations

An iteration is a behavior in place: its members and the state that they share. When one iteration
follows another, a member takes the place of the former one of its name if the two fit, and what it
kept goes on to be kept; the former members that nobody has replaced are disposed of, each once.
-/

namespace Switchboard

/-- How a member takes part in the life of its behavior. -/
inductive Upkeep where
  | none
  | observer (o : Observer)
  | reference (spec : ReferenceSpec)

/-- What must be done for a control when it comes and goes. -/
def Control.upkeep : Control → Upkeep
  | .observer o => .observer o
  | _ => .none

/-- What must be done for a port when it comes and goes. -/
def Port.upkeep : Port → Upkeep
  | .observer _ o => .observer o
  | _ => .none

/-- What must be done for a reference when it comes and goes. -/
def ReferenceMember.upkeep : ReferenceMember → Upkeep
  | .typed spec => .reference spec
  | .observer o => .observer o

namespace Upkeep

/-- What an observer does at a moment of its life. -/
def observe (o : Observer) (id : String) (h : Hook) : Program :=
  .note h.name [.text id]
    (.done (if h ∈ o.fails then .error (.other (h.name ++ " broke")) else .ok []))

/-- Reports a failure in the log. -/
def report (s : Setting) (what id : String) (f : Fault) (w : Workbench) : Workbench :=
  { w with turn := w.turn.log s .error (what ++ " hook of '" ++ id ++ "' failed: " ++ f.message) }

/-- Runs a program at a moment of the life of a member; a failure only goes into the log. -/
def runReported (s : Setting) (what id : String) (p : Program) (w : Workbench) : Workbench :=
  match p.run s w with
  | (.ok _, w) => w
  | (.error f, w) => report s what id f w

/-- Enters something in the chronicle. -/
def record (w : Workbench) (f : Chronicle → Chronicle) : Workbench :=
  { w with turn := w.turn.record f }

/-- What a reference does with its value at a moment of its life. When it is disposed of it gives up
the value, and no failure is reported. -/
def runReference (s : Setting) (h : Hook) (m : MemberId) (spec : ReferenceSpec) (w : Workbench) :
    Workbench :=
  match h with
  | .dispose =>
    let (holding, cells) := w.cells.take m.id
    let w := { w with cells := cells }
    match holding, spec.hook .dispose with
    | some held, some handler =>
      ((handler held.value).run s (record w (·.dispose ⟨held.maker, m, true⟩))).2
    | some held, _ => record w (·.dispose ⟨held.maker, m, false⟩)
    | _, _ => w
  | h =>
    match w.cells.value? m.id, spec.hook h with
    | some v, some handler => runReported s h.name m.id (handler v) w
    | _, _ => w

/-- What a member does at a moment of its life. -/
def run (s : Setting) (h : Hook) (m : MemberId) (w : Workbench) (u : Upkeep) : Workbench :=
  let w := record w (·.moment m h)
  match u with
  | .none => w
  | .observer o => runReported s h.name m.id (observe o m.id h) w
  | .reference spec => runReference s h m spec w

end Upkeep

/-- A behavior in place. -/
structure Iteration where
  members : Members := {}
  cells : Cells := {}
  /-- The source that it was compiled from, if any. -/
  source : Option String := none
  /-- The number of the behavior among those that were put in place. Nothing depends on it. -/
  number : Nat := 0

namespace Iteration

/-- The iteration of a unit that has no behavior yet. -/
def empty : Iteration := {}

/-- The cells of properties and references as they are declared: properties have their defaults and
references no value. -/
def initialCells (m : Members) : Cells where
  properties := Keyed.ofList (m.controls.filterMap fun e =>
    match e.2 with
    | .property shape default => some (e.1, { shape := shape, value := default })
    | _ => none)
  references := Keyed.ofList (m.references.filterMap fun e =>
    match e.2 with
    | .typed spec => some (e.1, { kind := spec.kind })
    | _ => none)

/-- The iteration of a behavior, before it is in place. -/
def ofBehavior (b : Behavior) : Except InstallError Iteration :=
  (Members.ofBehavior b).map fun m => { members := m, cells := initialCells m }

/-- How members of a category take part in the life of the behavior. -/
def upkeepsOf {α : Type} (i : Iteration) (category : Category) (upkeep : α → Upkeep)
    (members : Named α) : List (MemberId × Upkeep) :=
  members.map fun e => (⟨i.number, category, e.1⟩, upkeep e.2)

/-- How the members take part in the life of the behavior, in the order in which they do: controls,
ports, references. -/
def upkeeps (i : Iteration) : List (MemberId × Upkeep) :=
  i.upkeepsOf .control Control.upkeep i.members.controls
    ++ i.upkeepsOf .port Port.upkeep i.members.ports
    ++ i.upkeepsOf .reference ReferenceMember.upkeep i.members.references

/-! ## Following a former iteration -/

/-- The former members of a category that a new one of their name does not take over. -/
def rejected {α : Type} (takesOver : α → α → Bool) (next former : Named α) : Named α :=
  next.filterMap fun (id, a) =>
    match Named.find? id former with
    | some b => if takesOver a b then none else some (id, b)
    | none => none

/-- The former members of a category whose name is not declared any more. -/
def left {α : Type} (next former : Named α) : Named α := former.filter fun e => !Named.has e.1 next

/-- The former members that are given up, in the order in which they are disposed of. -/
def givenUp (next former : Iteration) : List (MemberId × Upkeep) :=
  let controls := rejected Control.takesOver next.members.controls former.members.controls
  let ports := rejected Port.takesOver next.members.ports former.members.ports
  let references :=
    rejected ReferenceMember.takesOver next.members.references former.members.references
  former.upkeepsOf .control Control.upkeep controls
    ++ former.upkeepsOf .port Port.upkeep ports
    ++ former.upkeepsOf .reference ReferenceMember.upkeep references
    ++ former.upkeepsOf .control Control.upkeep
      (left next.members.controls former.members.controls)
    ++ former.upkeepsOf .port Port.upkeep (left next.members.ports former.members.ports)
    ++ former.upkeepsOf .reference ReferenceMember.upkeep
      (left next.members.references former.members.references)

/-- The value and the time of the last set of a property, from a former one of the same shape. -/
def carryProperty (former : Cells) (id : String) (p : Property) : Property :=
  match former.property? id with
  | some q => if p.shape = q.shape then q else p
  | none => p

/-- The cells with what the former properties held. -/
def carryProperties (cells former : Cells) : Cells :=
  { cells with properties := cells.properties.map fun e => (e.1, carryProperty former e.1 e.2) }

/-- Moves the value of a former reference of the same kind to the new one of its name. -/
def moveValue (id : String) (kind : RefKind) (cells former : Cells) : Cells × Cells :=
  match former.references.find? id with
  | some r =>
    if r.kind = kind then
      let (holding, former) := former.take id
      (cells.setReference id ⟨kind, holding⟩, former)
    else (cells, former)
  | none => (cells, former)

/-- Makes the value of a reference that has none. -/
def makeValue (s : Setting) (m : MemberId) (spec : ReferenceSpec) (w : Workbench) : Workbench :=
  if (w.cells.value? m.id).isSome then w
  else match spec.init.run s w with
    | (.ok values, w) =>
      { cells := w.cells.setReference m.id ⟨spec.kind, some ⟨spec.make values, m⟩⟩
        turn := w.turn.record (·.make m) }
    | (.error f, w) =>
      { w with
        turn := w.turn.log s .error ("reference '" ++ m.id ++ "' init failed: " ++ f.message) }

/-- Gives a new reference its value: that of the former one, or a new one. -/
def attachReference (s : Setting) (m : MemberId) (r : ReferenceMember) (former : Cells)
    (w : Workbench) : Cells × Workbench :=
  match r with
  | .observer _ => (former, w)
  | .typed spec =>
    let (cells, former) := moveValue m.id spec.kind w.cells former
    (former, makeValue s m spec { w with cells := cells })

/-- Gives the new references of an iteration their values, one after the other. -/
def attachReferences (s : Setting) (number : Nat) :
    Named ReferenceMember → Cells → Workbench → Cells × Workbench
  | [], former, w => (former, w)
  | (id, r) :: rest, former, w =>
    let (former, w) := attachReference s ⟨number, .reference, id⟩ r former w
    attachReferences s number rest former w

/-- Disposes of members, one after the other. -/
def disposeMembers (s : Setting) (members : List (MemberId × Upkeep)) (w : Workbench) :
    Workbench :=
  members.foldl (fun w e => e.2.run s .dispose e.1 w) w

/-- Puts an iteration in the place of a former one. -/
def attach (s : Setting) (next former : Iteration) (t : Turn) : Iteration × Turn :=
  let turn := { t with attached := t.attached ++ Named.names next.members.controls }
  let (formerCells, w) := attachReferences s next.number next.members.references former.cells
    ⟨carryProperties next.cells former.cells, turn⟩
  let disposed := disposeMembers s (givenUp next former) ⟨formerCells, w.turn⟩
  ({ next with cells := w.cells }, disposed.turn)

/-! ## Life -/

/-- Lets all members act at a moment of their life. -/
def runHook (s : Setting) (h : Hook) (i : Iteration) (t : Turn) : Iteration × Turn :=
  let w := i.upkeeps.foldl (fun w e => e.2.run s h e.1 w) ⟨i.cells, t⟩
  ({ i with cells := w.cells }, w.turn)

/-- Disposes of all members. -/
def dispose (s : Setting) (i : Iteration) (t : Turn) : Iteration × Turn :=
  let w := disposeMembers s i.upkeeps ⟨i.cells, t⟩
  ({ i with members := {}, cells := {} }, w.turn)

/-- Runs the tick handler, if there is one. -/
def tick (s : Setting) (i : Iteration) (t : Turn) : Iteration × Turn :=
  match i.members.tick with
  | none => (i, t)
  | some p =>
    let w := Upkeep.runReported s "tick" "tick" p ⟨i.cells, t⟩
    ({ i with cells := w.cells }, w.turn)

/-! ## Calls and values -/

/-- What the setting of a property takes from the arguments of a call. -/
def argsValue : List Value → Value
  | [v] => v
  | vs => .list vs

/-- Sends a reply where one is expected. -/
def replyIfExpected (c : Call) (args : List Value) (t : Turn) : Except Fault Unit × Turn :=
  if c.expectsReply then
    match t.reply c args with
    | .ok t => (.ok (), t)
    | .error e => (.error e.fault, t)
  else (.ok (), t)

/-- A call to a property: the arguments are a new value, the reply is the value afterwards. A set
that is older than the last one changes nothing. -/
def callProperty (id : String) (c : Call) (w : Workbench) : Except Fault Unit × Workbench :=
  if !c.isRequest then (.ok (), w)
  else
    let (result, cells) :=
      if c.args.isEmpty then (.ok true, w.cells)
      else Program.setOn w.cells id (argsValue c.args) (some c.time)
    match result with
    | .error f => (.error f, w)
    | .ok _ =>
      let value := ((cells.property? id).map Property.value).getD .none
      let (result, turn) := replyIfExpected c [value] w.turn
      (result, ⟨cells, turn⟩)

/-- A call to a function: only requests are heard, and the result is the reply. -/
def callFunction (s : Setting) (handler : List Value → Program) (c : Call) (w : Workbench) :
    Except Fault Unit × Workbench :=
  if !c.isRequest then (.ok (), w)
  else match (handler c.args).run s w with
    | (.error f, w) => (.error f, w)
    | (.ok result, w) =>
      let (result, turn) := replyIfExpected c result w.turn
      (result, { w with turn := turn })

/-- A call to a control. -/
def callControl (s : Setting) (id : String) (control : Control) (c : Call) (w : Workbench) :
    Except Fault Unit × Workbench :=
  match control with
  | .function handler => callFunction s handler c w
  | .raw handler =>
    let (result, w) := (handler c).run s w
    (result.map fun _ => (), w)
  | .property _ _ => callProperty id c w
  | .observer _ =>
    (.error (.routing ("'" ++ id ++ "' does not accept calls (" ++ c.target.text ++ ")")), w)

/-- Hands a call to the control that it names. -/
def invoke (s : Setting) (c : Call) (i : Iteration) (t : Turn) :
    Except Fault Unit × Iteration × Turn :=
  match Named.find? c.target.id.text i.members.controls with
  | none => (.error (.routing ("unknown control '" ++ c.target.text ++ "'")), i, t)
  | some control =>
    let (result, w) := callControl s c.target.id.text control c ⟨i.cells, t⟩
    (result, { i with cells := w.cells }, w.turn)

/-- Hands values to an input port; values for any other port are lost. -/
def receive (s : Setting) (port : String) (values : List Value) (i : Iteration) (t : Turn) :
    Iteration × Turn :=
  match Named.find? port i.members.ports with
  | some (.input handler) =>
    match (handler values).run s ⟨i.cells, t⟩ with
    | (.ok _, w) => ({ i with cells := w.cells }, w.turn)
    | (.error f, w) =>
      ({ i with cells := w.cells },
        w.turn.log s .error ("port '" ++ port ++ "' handler failed: " ++ f.message))
  | _ => (i, t)

/-! ## Views -/

/-- The direction of a port, if one of that name is declared. -/
def portDirection? (i : Iteration) (id : String) : Option PortDirection :=
  (Named.find? id i.members.ports).bind Port.direction

/-- The values of the properties, in the order of their declaration. -/
def properties (i : Iteration) : Named Value :=
  i.members.controls.filterMap fun e =>
    match e.2 with
    | .property _ _ => (i.cells.property? e.1).map fun p => (e.1, p.value)
    | _ => none

/-- Gives a property a value from a snapshot, where it exists and the value fits. -/
def restoreProperty (i : Iteration) (id : String) (v : Value) : Iteration :=
  match i.cells.property? id with
  | some p =>
    match p.replace v with
    | .ok p => { i with cells := i.cells.setProperty id p }
    | .error _ => i
  | none => i

end Iteration

end Switchboard
