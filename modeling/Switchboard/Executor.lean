import Switchboard.FrameStack
import Switchboard.Turn

/-!
# The script executor

An executor runs scripts for its callers. Each calling unit has a context of its own: a scope that
outlives the scripts, a queue of scripts that wait, and at most one that runs. So the scripts of one
caller run strictly one after the other, while those of different callers take turns where they
wait for answers.
-/

namespace Switchboard

/-- How a script is to be run. -/
structure EvalOptions where
  /-- Go on after a line that fails. -/
  trap : Bool := false
  /-- Threshold of the log lines of the script. -/
  threshold : LogLevel := .info
deriving DecidableEq

namespace EvalOptions

/-- Whether a script goes on behind failing lines; it does not by default. -/
def trapOf : Option Value → Except Fault Bool
  | none => .ok false
  | some v =>
    match v.bool? with
    | some flag => .ok flag
    | none => .error (.argument "trap-errors must be a boolean")

/-- The least urgent level that a script may log; it is `info` by default. -/
def thresholdOf : Option Value → Except Fault LogLevel
  | none => .ok .info
  | some v =>
    match LogLevel.ofText? v.render with
    | some level => .ok level
    | none => .error (.argument ("unknown log level '" ++ v.render ++ "'"))

/-- Reads options from a map; absence stands for none. -/
def ofValue : Value → Except Fault EvalOptions
  | .none => .ok {}
  | .map entries =>
    match trapOf (Keyed.find? "trap-errors" entries),
      thresholdOf (Keyed.find? "log-level" entries) with
    | .error f, _ => .error f
    | .ok _, .error f => .error f
    | .ok trap, .ok threshold => .ok ⟨trap, threshold⟩
  | v => .error (.argument ("eval config must be a map, got " ++ v.shape.name))

end EvalOptions

/-- A script that waits for its turn, with the call that brought it. -/
structure Job where
  call : Call
  script : Script
  options : EvalOptions

/-- A script that has been started. -/
structure RunningJob where
  call : Call
  stack : FrameStack
  options : EvalOptions

/-- What an executor keeps for one caller. -/
structure CallerContext where
  scope : ScopeRef
  queue : List Job := []
  running : Option RunningJob := none

namespace CallerContext

/-- The number of scripts that are not finished. -/
def pending (c : CallerContext) : Nat := c.queue.length + (if c.running.isSome then 1 else 0)

/-- The calls whose scripts are not finished, the running one first. -/
def calls (c : CallerContext) : List Call :=
  (c.running.map RunningJob.call).toList ++ c.queue.map Job.call

end CallerContext

/-- The scripts of all callers. -/
structure ScriptExecutor where
  scopes : Scopes
  /-- The scope that encloses those of all callers. -/
  globals : ScopeRef
  contexts : Keyed CallerContext

namespace ScriptExecutor

/-- An executor without callers that knows the built-in commands. -/
def new : ScriptExecutor :=
  let (globals, scopes) := ({} : Scopes).newTop
  ⟨scopes.defineAll globals, globals, []⟩

/-- The number of scripts that are not finished. -/
def pending (x : ScriptExecutor) : Nat := x.contexts.foldl (fun n e => n + e.2.pending) 0

/-- Under what a caller is known: the path of its unit. -/
def callerKey (c : Call) : String := (c.source.map fun e => e.path.text).getD ""

/-- The endpoint that the calls of scripts come from. -/
def site (s : Setting) : Site := ⟨s.time, (s.endpoint "eval").toOption⟩

/-- Answers the call that brought a script with the way in which the script ended. -/
def conclude (s : Setting) (c : Call) (ending : Ending) (result : List Value) (t : Turn) : Turn :=
  if !c.expectsReply then
    if ending = .error then
      t.log s .error ("script failed: " ++ (Fault.ofArgs result).message)
    else t
  else
    let answered := match ending with
      | .ok => t.reply c result
      | .error => t.error c (.ofArgs result)
      | .break => t.error c (.script "break or continue outside of a loop")
      | .continue => t.error c (.script "break or continue outside of a loop")
    match answered with
    | .ok t => t
    | .error _ => t

/-- Writes the log lines of a script that pass its threshold. -/
def writeLog (s : Setting) (threshold : LogLevel) (lines : List (LogLevel × String)) (t : Turn) :
    Turn :=
  (lines.filter fun l => l.1.passes threshold).foldl (fun t l => t.logAlways s l.1 l.2) t

/-- What running scripts acts on. -/
structure Progress where
  scopes : Scopes
  turn : Turn

/-- Runs a script until it waits, and is given back, or has ended, and is answered. -/
def advance (s : Setting) (job : RunningJob) (p : Progress) : Option RunningJob × Progress :=
  match job.stack.run (site s) FrameStack.stepLimit ⟨p.scopes, p.turn.ledger, [], []⟩ with
  | none => (some job, { p with turn := p.turn.script job.call .stuck })
  | some (outcome, stack, w) =>
    let sent := ({ p.turn with ledger := w.ledger }.sendAll w.sent).script job.call (.ran w.sent)
    let turn := writeLog s job.options.threshold w.log sent
    match outcome with
    | .suspended _ => (some { job with stack := stack }, ⟨w.scopes, turn⟩)
    | .done ending result =>
      (none, ⟨w.scopes, (conclude s job.call ending result turn).script job.call .ended⟩)

/-- Starts a script in the scope of its caller. -/
def start (scope : ScopeRef) (job : Job) : RunningJob :=
  ⟨job.call, .ofFrame (.ofScript job.script scope job.options.trap), job.options⟩

/-- Runs the scripts of a queue one after the other until one waits. -/
def drain (s : Setting) (scope : ScopeRef) : List Job → Progress → CallerContext × Progress
  | [], p => (⟨scope, [], none⟩, p)
  | job :: queue, p =>
    match advance s (start scope job) p with
    | (some running, p) => (⟨scope, queue, some running⟩, p)
    | (none, p) => drain s scope queue p

/-- Runs what can run of one caller. -/
def pumpContext (s : Setting) (c : CallerContext) (p : Progress) : CallerContext × Progress :=
  match c.running with
  | none => drain s c.scope c.queue p
  | some job =>
    match advance s job p with
    | (some running, p) => ({ c with running := some running }, p)
    | (none, p) => drain s c.scope c.queue p

/-- Runs what can run of the caller under a key. -/
def pump (s : Setting) (key : String) (x : ScriptExecutor) (t : Turn) : ScriptExecutor × Turn :=
  match x.contexts.find? key with
  | none => (x, t)
  | some c =>
    let (c, p) := pumpContext s c ⟨x.scopes, t⟩
    ({ x with scopes := p.scopes, contexts := x.contexts.insert key c }, p.turn)

/-- The context of a caller, which is made when it calls for the first time: its scope knows the
calling unit, or the executor itself where the caller is not known. -/
def enter (s : Setting) (c : Call) (x : ScriptExecutor) : CallerContext × ScriptExecutor :=
  match x.contexts.find? (callerKey c) with
  | some context => (context, x)
  | none =>
    let (scope, scopes) := x.scopes.newChild x.globals
    let home := (c.source.map Endpoint.path).orElse fun _ => s.address
    let scopes := match home with
      | some p => scopes.set scope contextVariable (.ofPath p)
      | none => scopes
    (⟨scope, [], none⟩, { x with scopes := scopes })

/-- The script and the options that a call brings. -/
def read (c : Call) : Except Fault (Script × EvalOptions) :=
  match c.args with
  | [] => .error (.argument "eval expects script text")
  | source :: _ =>
    match EvalOptions.ofValue (c.argAt 1) with
    | .error f => .error f
    | .ok options =>
      match Script.ofText? source.render with
      | .error e => .error (.script e.message)
      | .ok script => .ok (script, options)

/-- Takes the script that a call brings into the queue of its caller and runs what can run. -/
def eval (s : Setting) (c : Call) (x : ScriptExecutor) (t : Turn) :
    Except Fault Unit × ScriptExecutor × Turn :=
  match read c with
  | .error f => (.error f, x, t)
  | .ok (script, options) =>
    let (context, x) := x.enter s c
    let context := { context with queue := context.queue ++ [⟨c, script, options⟩] }
    let contexts := x.contexts.insert (callerKey c) context
    let (x, t) := pump s (callerKey c) { x with contexts := contexts } (t.script c .accepted)
    (.ok (), x, t)

/-- The key of the first caller whose running script waits for this answer, and its context with
the answer handed over. -/
def recipient? (c : Call) (contexts : Keyed CallerContext) : Option (String × CallerContext) :=
  contexts.findSome? fun (key, context) =>
    context.running.bind fun job =>
      match job.stack.post c with
      | (true, stack) => some (key, { context with running := some { job with stack := stack } })
      | (false, _) => none

/-- Enters that the running script of a caller has been handed an answer. -/
def noteResumed (context : CallerContext) (c : Call) (t : Turn) : Turn :=
  match context.running with
  | some job => t.script job.call (.resumed c)
  | none => t

/-- Goes on with the script that waits for an answer; the flag says whether there is one. -/
def receive (s : Setting) (c : Call) (x : ScriptExecutor) (t : Turn) :
    Bool × ScriptExecutor × Turn :=
  match recipient? c x.contexts with
  | none => (false, x, t)
  | some (key, context) =>
    let contexts := x.contexts.insert key context
    let (x, t) := pump s key { x with contexts := contexts } (noteResumed context c t)
    (true, x, t)

/-- Answers a call whose script is given up. -/
def cancel (t : Turn) (c : Call) : Turn :=
  let answered :=
    if c.expectsReply then
      match t.error c (.cancelled "script cleared") with
      | .ok t => t
      | .error _ => t
    else t
  answered.script c .cancelled

/-- Gives up the scripts of one caller. -/
def abort (c : CallerContext) (t : Turn) : CallerContext × Turn :=
  ({ c with queue := [], running := none }, c.calls.foldl cancel t)

/-- Gives up the scripts of the caller that a call comes from; says how many there were. -/
def clear (c : Call) (x : ScriptExecutor) (t : Turn) : Nat × ScriptExecutor × Turn :=
  match x.contexts.find? (callerKey c) with
  | none => (0, x, t)
  | some context =>
    let (cleared, t) := abort context t
    (context.pending, { x with contexts := x.contexts.insert (callerKey c) cleared }, t)

/-- Gives up the scripts of all callers, in the order of their keys. -/
def abortAll : Keyed CallerContext → Turn → Keyed CallerContext × Turn
  | [], t => ([], t)
  | (key, c) :: rest, t =>
    let (c, t) := abort c t
    let (rest, t) := abortAll rest t
    ((key, c) :: rest, t)

/-- Gives up the scripts of all callers; says how many there were. -/
def clearAll (x : ScriptExecutor) (t : Turn) : Nat × ScriptExecutor × Turn :=
  let (contexts, t) := abortAll x.contexts t
  (x.pending, { x with contexts := contexts }, t)

end ScriptExecutor

end Switchboard
