import Switchboard.Named
import Switchboard.Program
import Switchboard.StandardControl

/-!
# Behaviors

A behavior says what a unit can do: a list of declarations of controls, ports and references, and of
what happens at each tick of the clock. Reading the list either gives all declared members or names
the first declaration that is refused, and then nothing has changed.
-/

namespace Switchboard

/-- A declared reference: how its value is made, and what its members do with it. -/
structure ReferenceSpec where
  kind : RefKind
  /-- Runs before the value is made; its result is what the value is made of. -/
  init : Program
  make : List Value → RefValue
  /-- What happens with the value at a moment of its life. -/
  hook : Hook → Option (RefValue → Program) := fun _ => none

/-- A member that does nothing but write each moment of its life into the journal; at some of them
it fails. -/
structure Observer where
  fails : List Hook := []

/-- What receives calls. -/
inductive Control where
  /-- Runs on the arguments of a request; the result is the reply. -/
  | function (handler : List Value → Program)
  /-- Runs on every call and answers it itself, or not. -/
  | raw (handler : Call → Program)
  /-- Holds a value of a shape, which calls read and set. -/
  | property (shape : Shape) (default : Value)
  | observer (o : Observer)

/-- Whether a port takes values in or gives them out. -/
inductive PortDirection where
  | input
  | output
deriving DecidableEq

/-- What values flow through. -/
inductive Port where
  /-- Runs on the values that arrive. -/
  | input (handler : List Value → Program)
  | output
  | observer (direction : Option PortDirection) (o : Observer)

/-- What keeps a value. -/
inductive ReferenceMember where
  | typed (spec : ReferenceSpec)
  | observer (o : Observer)

namespace Control

/-- Whether a control takes the place of a former one of its name. -/
def takesOver : Control → Control → Bool
  | .function _, .function _ => true
  | .raw _, .raw _ => true
  | .property shape _, .property former _ => shape == former
  | _, _ => false

end Control

namespace Port

/-- A built-in port may stand for a previous one of the same direction only. -/
def takesOver : Port → Port → Bool
  | .input _, .input _ => true
  | .output, .output => true
  | _, _ => false

/-- The direction of a port, where one is declared. -/
def direction : Port → Option PortDirection
  | .input _ => some .input
  | .output => some .output
  | .observer d _ => d

end Port

namespace ReferenceMember

/-- Whether a reference takes over the value of a former one of its name. -/
def takesOver : ReferenceMember → ReferenceMember → Bool
  | .typed spec, .typed former => spec.kind == former.kind
  | _, _ => false

end ReferenceMember

/-- A declaration. -/
inductive Declaration where
  | control (id : String) (c : Control)
  | port (id : String) (p : Port)
  | reference (id : String) (r : ReferenceMember)
  /-- What happens at each tick; a later declaration replaces an earlier one. -/
  | tick (handler : Program)
  /-- Gives up, for a reason that led to another, the innermost first. -/
  | fail (reasons : List String)

/-- What a unit can do. -/
abbrev Behavior := List Declaration

/-- The declared members of a behavior. -/
structure Members where
  controls : Named Control := []
  ports : Named Port := []
  references : Named ReferenceMember := []
  tick : Option Program := none

namespace Members

/-- Whether a member may have this name, which some others of its category have already. -/
def checkId (id : String) (reserved : Bool) (taken : Bool) : Except InstallError Unit :=
  if !isId id.toList then .error (.badId id)
  else if reserved then .error (.reservedId id)
  else if taken then .error (.duplicateId id)
  else .ok ()

/-- The members with one more declaration. -/
def declare (m : Members) : Declaration → Except InstallError Members
  | .control id c =>
    (checkId id (isReserved id) (Named.has id m.controls)).map fun _ =>
      { m with controls := Named.push id c m.controls }
  | .port id p =>
    (checkId id false (Named.has id m.ports)).map fun _ =>
      { m with ports := Named.push id p m.ports }
  | .reference id r =>
    (checkId id false (Named.has id m.references)).map fun _ =>
      { m with references := Named.push id r m.references }
  | .tick handler => .ok { m with tick := some handler }
  | .fail reasons => .error (.declaration (Text.join ": " reasons.reverse))

/-- The members that a behavior declares. -/
def ofBehavior (b : Behavior) : Except InstallError Members := b.foldlM declare {}

end Members

/-- The behavior of an empty container. -/
def Behavior.empty : Behavior := []

end Switchboard
