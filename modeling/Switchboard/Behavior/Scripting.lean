import Switchboard.Behavior

/-!
# The behavior of script units

A unit with this behavior runs scripts: its endpoint `eval` takes them and the answers that they
wait for, its endpoint `clear` gives up those of the caller. The executor is kept in a reference, so
it goes on when the behavior is installed anew, and with it the scripts that wait.
-/

namespace Switchboard

namespace Scripting

/-- The name of the reference that keeps the executor. -/
def reference : String := "executor"

/-- The fault of a call that finds no executor. -/
def unavailable : Fault := .lifecycle "script executor is not available"

/-- Goes on with the executor, if there is one. -/
def withExecutor (next : ScriptExecutor → Program) : Program :=
  .getReference reference fun
    | some (.executor x) => next x
    | _ => .done (.error unavailable)

/-- Has the executor do something and keeps it. -/
def execute (task : ExecutorTask) (next : Except Fault Nat → Program) : Program :=
  withExecutor fun x => .execute x task fun result x =>
    .setReference reference (.executor x) (next result)

/-- The handler of `eval`: requests bring scripts, anything else is an answer for one. -/
def eval (c : Call) : Program :=
  if c.isResponse then execute (.receive c) fun _ => .done (.ok [])
  else execute (.eval c) fun result => .done (result.map fun _ => [])

/-- The handler of `clear`: replies with the number of scripts given up. -/
def clear (c : Call) : Program :=
  if !c.isRequest then .done (.ok [])
  else execute (.clear c) fun
    | .error f => .done (.error f)
    | .ok n =>
      if c.expectsReply then
        .reply c [.ofNat n] fun result => .done ((result.mapError CallError.fault).map fun _ => [])
      else .done (.ok [])

/-- Gives up all scripts of an executor that is not needed any more. -/
def dispose : RefValue → Program
  | .executor x => .execute x .clearAll fun _ _ => .done (.ok [])
  | _ => .done (.ok [])

/-- How the executor is kept. -/
def spec : ReferenceSpec where
  kind := .executor
  init := .done (.ok [])
  make := fun _ => .executor .new
  hook
    | .dispose => some dispose
    | _ => none

end Scripting

/-- The behavior of units that run scripts. -/
def Behavior.scripting : Behavior :=
  [.reference Scripting.reference (.typed Scripting.spec), .control "eval" (.raw Scripting.eval),
    .control "clear" (.raw Scripting.clear)]

end Switchboard
