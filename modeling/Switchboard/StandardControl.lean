/-!
# Standard controls

The controls that the root answers for its units. Every unit has some, containers have more, and the
root unit has those of the life cycle. No behavior may declare a control under one of their names.
-/

namespace Switchboard

/-- A control that the root answers for a unit. -/
inductive StandardControl where
  /-- Describes the unit. -/
  | info
  /-- Reads or writes one entry of the metadata. -/
  | metadata
  | mergeMetadata
  /-- Replaces the behavior by one compiled from a source. -/
  | code
  | addChild
  | removeChild
  | children
  | connect
  | disconnect
  | connections
  /-- Takes a snapshot of the unit and all below it. -/
  | serialize
  | start
  | stop
  | isRunning
deriving DecidableEq

namespace StandardControl

/-- The identifier of a standard control. -/
def id : StandardControl → String
  | .info => "info"
  | .metadata => "meta"
  | .mergeMetadata => "meta-merge"
  | .code => "code"
  | .addChild => "add-child"
  | .removeChild => "remove-child"
  | .children => "children"
  | .connect => "connect"
  | .disconnect => "disconnect"
  | .connections => "connections"
  | .serialize => "serialize"
  | .start => "start"
  | .stop => "stop"
  | .isRunning => "is-running"

/-- The standard controls in the order in which they are listed. -/
def all : List StandardControl :=
  [.info, .metadata, .mergeMetadata, .code, .addChild, .removeChild, .children, .connect,
    .disconnect, .connections, .serialize, .start, .stop, .isRunning]

/-- The standard control of this name. -/
def ofId? (id : String) : Option StandardControl := all.find? fun c => c.id == id

/-- Whether only containers have it. -/
def needsContainer : StandardControl → Bool
  | .addChild | .removeChild | .children | .connect | .disconnect | .connections => true
  | _ => false

/-- Whether only the root unit has it. -/
def needsRoot : StandardControl → Bool
  | .start | .stop | .isRunning => true
  | _ => false

/-- Every standard control is found by its identifier. -/
theorem ofId?_id (c : StandardControl) : ofId? c.id = some c := by cases c <;> decide

end StandardControl

/-- Whether a name belongs to a standard control. -/
def isReserved (id : String) : Bool := (StandardControl.ofId? id).isSome

end Switchboard
