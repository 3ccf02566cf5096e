import Switchboard.Document.Value
import Switchboard.Frame

/-!
# Documents of frames

Frames can be written down as JSON: an object has a member that is named for what the frame does. In
a frame that goes on from another one, `prev` adds what that one has left.
-/

namespace Switchboard.Document

/-- The frame in the place of one whose script cannot be read. -/
def readableFrame : Except ScriptError Frame → Frame
  | .ok f => f
  | .error e => .error (.script e.message)

/-- The frame of a document without parts that are frames, if it is one. -/
def simpleFrame? (r : ScopeRef) (left : List Value) (j : Json) :
    Option (Except ScriptError Frame) :=
  let more := if (j.member "prev").isTrue then left else []
  let vals (key : String) := values (j.member key) ++ more
  if j.has "ok" then some (.ok (.ok (vals "ok")))
  else if j.has "error" then some (.ok (.error (fault (j.member "error"))))
  else if j.has "state" then
    some (.ok (.done ((Ending.ofName? (j.member "state").asText).getD .ok) (vals "result")))
  else if j.has "call" then
    (Endpoint.ofText? (j.member "call").asText).toOption.map fun e => .ok (.call e (vals "args"))
  else if j.has "script" then
    some ((Script.ofText? (j.member "script").asText).map fun s =>
      .ofScript s r (j.member "trap").isTrue)
  else none

mutual

/-- The frame of a document, in a scope and with what the frame before it has left. -/
def frame (r : ScopeRef) (left : List Value) : Json → Except ScriptError Frame
  | .object members =>
    match simpleFrame? r left (.object members) with
    | some f => f
    | none => joinedFrame r members
  | _ => .ok (.ok [])

/-- The frame that goes on from another one. -/
def joinedFrame (r : ScopeRef) : List (String × Json) → Except ScriptError Frame
  | [] => .ok (.ok [])
  | ("then", .array [f, next]) :: _ =>
    (frame r [] f).map fun base => .andThen base fun left => readableFrame (frame r left next)
  | ("on_fail", .array [f, next]) :: _ =>
    (frame r [] f).map fun base => .onFail base fun e =>
      readableFrame (frame r [.fault e] next)
  | _ :: rest => joinedFrame r rest

end

end Switchboard.Document
