import Switchboard.Scope
import Switchboard.Script.Reader
import Switchboard.Call
import Switchboard.LogLevel

/-!
# Frames

A frame is a piece of evaluation that can be interrupted: it sends a call and waits for the answer,
or lets another frame run first and goes on with the way in which that one ended. A stack holds the
frame that runs and, below it, what each of the others will do with the ending that it is given.
-/

namespace Switchboard

/-- How a frame ends. -/
inductive Ending where
  | ok
  | error
  /-- On the way to the loop around it, which it ends. -/
  | break
  /-- On the way to the loop around it, which goes on with its next item. -/
  | continue
deriving DecidableEq

namespace Ending

/-- The name of an ending. -/
def name : Ending → String
  | .ok => "ok"
  | .error => "error"
  | .break => "break"
  | .continue => "continue"

/-- The ending of a name. -/
def ofName? (name : String) : Option Ending :=
  [.ok, .error, .break, .continue].find? fun e : Ending => e.name == name

end Ending

/-- A line that is being evaluated. -/
structure LineRun where
  number : Nat
  /-- The values of the words that are finished, in order. -/
  ready : List Value
  /-- The word that is being put together: its text so far and the parts that it still lacks. -/
  partial? : Option (String × List ScriptPart)
  todo : List ScriptWord

/-- A script that is being evaluated. -/
structure ScriptRun where
  scope : ScopeRef
  /-- Whether a line that fails is noted and passed over. -/
  trap : Bool
  /-- Variables that are set when the script starts. -/
  entry : List (String × Value)
  current : Option LineRun
  rest : List ScriptLine
  /-- The messages of the lines that failed, in order. -/
  trapped : List String
  /-- The result of the last line that did not fail. -/
  last : List Value

/-- A loop over the items of a list. -/
structure LoopRun where
  scope : ScopeRef
  variableName : String
  items : List Value
  body : Script
  /-- The result of the last round that ran to its end. -/
  last : List Value

/-- A piece of evaluation. -/
inductive Frame where
  /-- It has ended. -/
  | done (ending : Ending) (result : List Value)
  /-- Sends a request. -/
  | call (target : Endpoint) (args : List Value)
  /-- Waits for the answer to a request. -/
  | waiting (matchId : Nat)
  | log (level : LogLevel) (message : String)
  /-- Runs a frame and then the frame built from its result. -/
  | andThen (base : Frame) (next : List Value → Frame)
  /-- Runs a frame and, should it fail, the frame built from the fault. -/
  | onFail (body : Frame) (fallback : Fault → Frame)
  | script (run : ScriptRun)
  | loop (run : LoopRun)

instance : Inhabited Frame := ⟨.done .ok []⟩

/-- What a frame below the running one does with the way in which that one ends. -/
inductive Pending where
  | andThen (next : List Value → Frame)
  | onFail (fallback : Fault → Frame)
  /-- Ends in the same way. -/
  | relay
  /-- Takes the result as a word, or as a part of one. -/
  | word (run : ScriptRun)
  /-- Takes the result as that of the line. -/
  | command (run : ScriptRun)
  | loop (run : LoopRun)

/-- The variable that holds the unit on which `.id` words act. -/
def contextVariable : String := "_CTXT"

/-- The variable in which a script that traps notes its failures. -/
def errorsVariable : String := "_ERRORS"

/-- The variable that holds the fault while a fallback runs. -/
def errorVariable : String := "_ERROR"

namespace Frame

/-- A frame that ended well with a result. -/
def ok (result : List Value) : Frame := .done .ok result

/-- A frame that failed. -/
def error (f : Fault) : Frame := .done .error [.fault f]

/-- A script as a frame; when it traps, the list of failures is empty at first. -/
def ofScript (s : Script) (scope : ScopeRef) (trap : Bool) : Frame :=
  .script ⟨scope, trap, if trap then [(errorsVariable, .list [])] else [], none, s.lines, [], []⟩

/-- A script that finds a fault in its variable for it. -/
def ofFallback (s : Script) (scope : ScopeRef) (f : Fault) : Frame :=
  .script ⟨scope, false, [(errorVariable, .fault f)], none, s.lines, [], []⟩

end Frame

end Switchboard
