import Switchboard.Clock
import Switchboard.Executor

/-!
# Programs of behaviors

What a behavior does when it is called is a program: it ends with a result, or does one thing and
goes on with what that gave. A program can look at its setting, send and answer calls, emit values,
write to the log and the journal, and use the properties and references of its own behavior; it can
do nothing else. So what holds of every such step holds of every program.
-/

namespace Switchboard

/-- What a reference may hold. -/
inductive RefKind where
  | int
  | text
  | list
  | calls
  | executor
deriving DecidableEq

/-- The value of a reference. -/
inductive RefValue where
  | int (n : Int64)
  | text (s : String)
  | list (items : List Value)
  | calls (calls : List Call)
  | executor (x : ScriptExecutor)

/-- The kind of a reference value. -/
def RefValue.kind : RefValue → RefKind
  | .int _ => .int
  | .text _ => .text
  | .list _ => .list
  | .calls _ => .calls
  | .executor _ => .executor

/-- A property: what it may hold, what it holds, and the time of the last set. -/
structure Property where
  shape : Shape
  value : Value
  lastSet : Option Int64 := none
deriving DecidableEq

namespace Property

/-- A value made to fit a property. -/
def coerce (p : Property) (v : Value) : Except Fault Value :=
  match v.coerce? p.shape with
  | some w => .ok w
  | none =>
    .error (.argument ("expected " ++ p.shape.name ++ " value, got '" ++ v.render ++ "'"))

/-- Whether a set at this time is not older than the last one. -/
def accepts (p : Property) (time : Int64) : Bool :=
  p.lastSet.all fun earlier => isLatest time earlier

/-- The property after a set; the flag tells whether the set was recent enough. -/
def set (p : Property) (v : Value) (time : Int64) : Except Fault (Bool × Property) :=
  (p.coerce v).map fun w =>
    if p.accepts time then (true, { p with value := w, lastSet := some time }) else (false, p)

/-- The property with another value, whatever the time. -/
def replace (p : Property) (v : Value) : Except Fault Property :=
  (p.coerce v).map fun w => { p with value := w }

end Property

/-- A value that a reference holds, and the member that it was made for. Nothing depends on the
member. -/
structure Holding where
  value : RefValue
  maker : MemberId

/-- A reference: what it may hold, and what it holds unless it holds nothing. -/
structure Reference where
  kind : RefKind
  holding : Option Holding := none

/-- The value of a reference, unless there is none. -/
def Reference.value (r : Reference) : Option RefValue := r.holding.map Holding.value

/-- The state of a behavior: its properties and references, by identifier. -/
structure Cells where
  properties : Keyed Property := []
  references : Keyed Reference := []

namespace Cells

/-- The property of an identifier. -/
def property? (c : Cells) (id : String) : Option Property := c.properties.find? id

/-- Gives a property another state. -/
def setProperty (c : Cells) (id : String) (p : Property) : Cells :=
  { c with properties := c.properties.insert id p }

/-- The value of a reference, if there is one. -/
def value? (c : Cells) (id : String) : Option RefValue :=
  (c.references.find? id).bind Reference.value

/-- Gives a reference another state. -/
def setReference (c : Cells) (id : String) (r : Reference) : Cells :=
  { c with references := c.references.insert id r }

/-- Puts another value of the same kind into a reference that has one. -/
def write (c : Cells) (id : String) (v : RefValue) : Cells :=
  match c.references.find? id with
  | some r =>
    match r.holding with
    | some held =>
      if r.kind = v.kind then c.setReference id { r with holding := some { held with value := v } }
      else c
    | none => c
  | none => c

/-- Takes what a reference holds out of it. -/
def take (c : Cells) (id : String) : Option Holding × Cells :=
  match c.references.find? id with
  | some r => (r.holding, c.setReference id { r with holding := none })
  | none => (none, c)

end Cells

/-- What an executor is asked to do. -/
inductive ExecutorTask where
  | eval (call : Call)
  | receive (call : Call)
  | clear (call : Call)
  | clearAll

/-- A program. -/
inductive Program where
  | done (result : Except Fault (List Value))
  /-- Looks at the setting and the controls attached so far. -/
  | look (next : Setting → List String → Program)
  /-- Sends a request from an endpoint. -/
  | request (target source : Endpoint) (time : Int64) (args : List Value) (next : Call → Program)
  | quiet (target : Endpoint) (source : Option Endpoint) (time : Int64) (args : List Value)
    (next : Call → Program)
  /-- Answers a call; an answer that is not admitted is not sent. -/
  | reply (call : Call) (args : List Value) (next : Except CallError Unit → Program)
  | error (call : Call) (args : List Value) (next : Except CallError Unit → Program)
  | emit (port : String) (values : List Value) (next : Program)
  /-- Writes a log line, if it passes the threshold or whatever the threshold. -/
  | log (always : Bool) (level : LogLevel) (message : String) (next : Program)
  | note (tag : String) (values : List Value) (next : Program)
  | noteCall (tag : String) (call : Call) (next : Program)
  | getProperty (id : String) (next : Option Property → Program)
  /-- Sets a property at a time, or whatever the time. -/
  | setProperty (id : String) (value : Value) (time : Option Int64)
    (next : Except Fault Bool → Program)
  | getReference (id : String) (next : Option RefValue → Program)
  | setReference (id : String) (value : RefValue) (next : Program)
  /-- Has an executor do something; the number is that of the scripts given up. -/
  | execute (executor : ScriptExecutor) (task : ExecutorTask)
    (next : Except Fault Nat → ScriptExecutor → Program)

/-- What a program acts on besides its setting. -/
structure Workbench where
  cells : Cells
  turn : Turn

namespace Program

instance : Inhabited Program := ⟨.done (.ok [])⟩

/-- Sets a property; there is nothing to set where it does not exist. -/
def setOn (c : Cells) (id : String) (v : Value) (time : Option Int64) : Except Fault Bool × Cells :=
  match c.property? id, time with
  | none, _ => (.ok false, c)
  | some p, some time =>
    match p.set v time with
    | .error f => (.error f, c)
    | .ok (accepted, p) => (.ok accepted, c.setProperty id p)
  | some p, none =>
    match p.replace v with
    | .error f => (.error f, c)
    | .ok p => (.ok true, c.setProperty id p)

/-- Has an executor do something. -/
def executeOn (s : Setting) (x : ScriptExecutor) (task : ExecutorTask) (t : Turn) :
    Except Fault Nat × ScriptExecutor × Turn :=
  match task with
  | .eval c =>
    let (r, x, t) := x.eval s c t
    (r.map fun _ => 0, x, t)
  | .receive c =>
    let (_, x, t) := x.receive s c t
    (.ok 0, x, t)
  | .clear c =>
    let (n, x, t) := x.clear c t
    (.ok n, x, t)
  | .clearAll =>
    let (n, x, t) := x.clearAll t
    (.ok n, x, t)

/-- Tries to answer a call. -/
def answerOn (t : Turn) (c : Call) (kind : CallKind) (args : List Value) :
    Except CallError Unit × Turn :=
  match t.answer c kind args with
  | .ok t => (.ok (), t)
  | .error e => (.error e, t)

/-- Runs a program in a setting. -/
def run (s : Setting) : Program → Workbench → Except Fault (List Value) × Workbench
  | .done result, w => (result, w)
  | .look next, w => run s (next s w.turn.attached) w
  | .request target source time args next, w =>
    let (c, ledger) := w.turn.ledger.request target source time args
    run s (next c) { w with turn := { w.turn with ledger := ledger }.send c }
  | .quiet target source time args next, w =>
    let (c, ledger) := w.turn.ledger.quiet target source time args
    run s (next c) { w with turn := { w.turn with ledger := ledger }.send c }
  | .reply c args next, w =>
    let (r, turn) := answerOn w.turn c .reply args
    run s (next r) { w with turn := turn }
  | .error c args next, w =>
    let (r, turn) := answerOn w.turn c .error args
    run s (next r) { w with turn := turn }
  | .emit port values next, w => run s next { w with turn := w.turn.emit port values }
  | .log always level message next, w =>
    let turn := if always then w.turn.logAlways s level message else w.turn.log s level message
    run s next { w with turn := turn }
  | .note tag values next, w =>
    run s next { w with turn := w.turn.note (.values s.address tag values) }
  | .noteCall tag c next, w =>
    run s next { w with turn := w.turn.note (.call s.address tag c (w.turn.ledger.isAnswered c)) }
  | .getProperty id next, w => run s (next (w.cells.property? id)) w
  | .setProperty id v time next, w =>
    let (r, cells) := setOn w.cells id v time
    run s (next r) { w with cells := cells }
  | .getReference id next, w => run s (next (w.cells.value? id)) w
  | .setReference id v next, w => run s next { w with cells := w.cells.write id v }
  | .execute x task next, w =>
    let (r, x, turn) := executeOn s x task w.turn
    run s (next r x) { w with turn := turn }

end Program

end Switchboard
