import Switchboard.Behavior

/-!
# Routines

A routine is a list of simple actions that a behavior can be written down with. Its actions are run
in order until one fails. They share the arguments that the routine was called with, the call itself
where there is one, and a result, which an action may replace.
-/

namespace Switchboard

/-- An action; where it has no arguments of its own it takes those of the routine. -/
inductive Action where
  /-- The result is the arguments. -/
  | echo
  /-- The result is what can be seen of the setting. -/
  | look
  /-- Writes the result into the journal. -/
  | noteResult
  | result (values : List Value)
  | fail (f : Fault)
  | note (tag : String) (args : Option (List Value))
  | noteCall (tag : String)
  | emit (port : String) (args : Option (List Value))
  | log (level : LogLevel) (message : String)
  /-- Writes to the log whatever the threshold. -/
  | logAlways (level : LogLevel) (message : String)
  /-- Sends a request from an endpoint of the unit. -/
  | request (target source : String) (args : Option (List Value))
  | quiet (target : String) (args : Option (List Value))
  /-- Sends a call dated relative to the present: a request if it has a source and is to be one. -/
  | send (target : String) (source : Option String) (awaited : Bool) (delay : Int64)
    (args : Option (List Value))
  | reply (args : Option (List Value))
  | error (f : Fault)
  | errorWith (args : Option (List Value))
  /-- Runs other actions unless the call is an answer. -/
  | unlessResponse (actions : List Action)
  /-- Keeps the call in a reference. -/
  | hold (reference : String)
  /-- Replies to all calls kept in a reference, with their own arguments if no others are given. -/
  | release (reference : String) (args : Option (List Value))
  /-- Adds the arguments to a reference; the result is what that comes to. -/
  | add (reference : String) (args : Option (List Value))
  | get (reference : String)
  /-- Sets a property to the first argument. -/
  | setProperty (id : String) (time : Option Int64) (args : Option (List Value))
  | replaceProperty (id : String) (args : Option (List Value))
  | getProperty (id : String)
  /-- Puts another value into the reference that the routine belongs to, once it has succeeded. -/
  | replaceOwn (value : Value)

instance : Inhabited Action := ⟨.echo⟩

/-- A list of actions. -/
abbrev Routine := List Action

namespace RefValue

/-- The value of a kind that a value stands for. -/
def ofValue (kind : RefKind) (v : Value) : RefValue :=
  match kind with
  | .int => .int (v.int?.getD 0)
  | .text => .text v.render
  | .list => .list v.toList
  | .calls => .calls []
  | .executor => .executor .new

/-- What can be seen of the value of a reference: for calls, their number. -/
def view : RefValue → Value
  | .int n => .int n
  | .text s => .text s
  | .list items => .list items
  | .calls cs => .ofNat cs.length
  | .executor x => .ofNat x.pending

/-- The value with arguments added to it, and what that comes to. -/
def add (args : List Value) : RefValue → RefValue × List Value
  | .int n =>
    let sum := (args.filterMap Value.int?).foldl (· + ·) n
    (.int sum, [.int sum])
  | .text s =>
    let text := s ++ String.join (args.map Value.render)
    (.text text, [.text text])
  | .list items =>
    let items := items ++ args
    (.list items, [.ofNat items.length])
  | v => (v, [])

end RefValue

/-- What the actions of a routine share. -/
structure RoutineScope where
  args : List Value := []
  call : Option Call := none
  result : List Value := []
  /-- The value to put into the reference that the routine belongs to. -/
  own : Option Value := none

namespace Action

/-- Goes on unless there was a fault. -/
def orFail {α : Type} (r : Except Fault α) (next : α → Program) : Program :=
  match r with
  | .ok a => next a
  | .error f => .done (.error f)

/-- Goes on with an address, if it could be read. -/
def address {α : Type} (r : Except AddressError α) (next : α → Program) : Program :=
  orFail (r.mapError AddressError.fault) next

/-- Goes on with the call of the routine if there is one, and without it otherwise. -/
def withCall (sc : RoutineScope) (next : Call → Program) (otherwise : Program) : Program :=
  match sc.call with
  | some c => next c
  | none => otherwise

/-- Goes on if an answer was accepted. -/
def answered (next : Program) (r : Except CallError Unit) : Program :=
  orFail (r.mapError CallError.fault) fun _ => next

/-- What can be seen of a setting. -/
def view (s : Setting) (attached : List String) : List Value :=
  [.ofPath? s.address, .int s.time, .text s.threshold.text, .list (attached.map .text),
    .ofPath? (Keyed.find? "script" s.services)]

/-- Sends a call dated relative to the present. -/
def sendCall (target : String) (source : Option String) (awaited : Bool) (delay : Int64)
    (args : List Value) (next : Program) : Program :=
  address (Endpoint.ofText? target) fun target =>
    address (source.mapM Endpoint.ofText?) fun source =>
      .look fun s _ =>
        match awaited, source with
        | true, some source => .request target source (s.time + delay) args fun _ => next
        | _, source => .quiet target source (s.time + delay) args fun _ => next

/-- Replies to calls, one after the other. -/
def releaseCalls (args : Option (List Value)) (next : Program) : List Call → Program
  | [] => next
  | c :: rest =>
    .reply c (args.getD c.args) (answered (releaseCalls args next rest))

mutual

/-- Runs an action and goes on with what the actions share then. -/
def compile (sc : RoutineScope) (next : RoutineScope → Program) : Action → Program
  | .echo => next { sc with result := sc.args }
  | .look => .look fun s attached => next { sc with result := view s attached }
  | .noteResult => .note "ret" sc.result (next sc)
  | .result values => next { sc with result := values }
  | .fail f => .done (.error f)
  | .note tag args => .note tag (args.getD sc.args) (next sc)
  | .noteCall tag => withCall sc (fun c => .noteCall tag c (next sc)) (next sc)
  | .emit port args => .emit port (args.getD sc.args) (next sc)
  | .log level message => .log false level message (next sc)
  | .logAlways level message => .log true level message (next sc)
  | .request target source args =>
    address (Endpoint.ofText? target) fun target => .look fun s _ =>
      orFail (s.endpoint source) fun source =>
        .request target source s.time (args.getD sc.args) fun _ => next sc
  | .quiet target args =>
    address (Endpoint.ofText? target) fun target => .look fun s _ =>
      .quiet target (s.endpoint "_host").toOption s.time (args.getD sc.args) fun _ => next sc
  | .send target source awaited delay args =>
    sendCall target source awaited delay (args.getD sc.args) (next sc)
  | .reply args =>
    withCall sc (fun c => .reply c (args.getD sc.args) (answered (next sc))) (next sc)
  | .error f => withCall sc (fun c => .error c [.fault f] (answered (next sc))) (next sc)
  | .errorWith args =>
    withCall sc (fun c => .error c (args.getD sc.args) (answered (next sc))) (next sc)
  | .unlessResponse actions =>
    if sc.call.any Call.isResponse then next sc else compileAll sc next actions
  | .hold id =>
    withCall sc
      (fun c => .getReference id fun
        | some (.calls cs) => .setReference id (.calls (cs ++ [c])) (next sc)
        | _ => next sc)
      (next sc)
  | .release id args =>
    .getReference id fun
      | some (.calls cs) => .setReference id (.calls []) (releaseCalls args (next sc) cs)
      | _ => next sc
  | .add id args =>
    .getReference id fun
      | some v =>
        let (v, sum) := v.add (args.getD sc.args)
        .setReference id v (next { sc with result := sum })
      | none => next { sc with result := [] }
  | .get id =>
    .getReference id fun v => next { sc with result := (v.map RefValue.view).toList }
  | .setProperty id time args =>
    .look fun s _ =>
      .setProperty id (argAt (args.getD sc.args) 0) (some (time.getD s.time)) fun r =>
        orFail r fun accepted => next { sc with result := [.bool accepted] }
  | .replaceProperty id args =>
    .setProperty id (argAt (args.getD sc.args) 0) none fun r => orFail r fun _ => next sc
  | .getProperty id =>
    .getProperty id fun
      | some p => next { sc with result := [p.value, .text p.shape.name] }
      | none => next { sc with result := [] }
  | .replaceOwn v => next { sc with own := some v }

/-- Runs actions in order. -/
def compileAll (sc : RoutineScope) (next : RoutineScope → Program) : List Action → Program
  | [] => next sc
  | a :: rest => compile sc (fun sc => compileAll sc next rest) a

end

end Action

namespace Routine

/-- The program of a routine; it ends with the result. -/
def program (r : Routine) (args : List Value) (call : Option Call) : Program :=
  Action.compileAll { args := args, call := call } (fun sc => .done (.ok sc.result)) r

/-- The program of a routine that is called with the value of a reference, which it may replace. -/
def hook (r : Routine) (id : String) (v : RefValue) : Program :=
  Action.compileAll { args := [v.view] }
    (fun sc =>
      match sc.own with
      | some w => .setReference id (.ofValue v.kind w) (.done (.ok []))
      | none => .done (.ok [])) r

end Routine

end Switchboard
