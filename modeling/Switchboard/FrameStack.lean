import Switchboard.Evaluation

/-!
# Stacks of frames

A stack is run until its last frame has ended or the running frame waits for the answer to a call.
Running changes the workspace: the scopes, the numbers of calls given out, the calls sent and the
log lines written.
-/

namespace Switchboard

/-- What running frames may change. -/
structure Workspace where
  scopes : Scopes := {}
  ledger : Ledger := {}
  /-- The calls sent, in order. -/
  sent : List Call := []
  /-- The log lines written, in order. -/
  log : List (LogLevel × String) := []

/-- What stays the same while frames run: the time, and where the answers to calls go. -/
structure Site where
  time : Int64
  replyTo : Option Endpoint

/-- The frame that runs, if there is one left, and what waits below it. -/
structure FrameStack where
  top : Option Frame
  below : List Pending

/-- Where a stack stops. -/
inductive StackOutcome where
  /-- It waits for the answer to this request. -/
  | suspended (matchId : Nat)
  | done (ending : Ending) (result : List Value)

namespace FrameStack

/-- A stack of one frame. -/
def ofFrame (f : Frame) : FrameStack := ⟨some f, []⟩

/-- The number of frames. -/
def depth (s : FrameStack) : Nat := (if s.top.isSome then 1 else 0) + s.below.length

/-- The request whose answer the running frame waits for. -/
def awaiting (s : FrameStack) : Option Nat :=
  match s.top with
  | some (.waiting id) => some id
  | _ => none

/-- The frame of a script after a step of it, on what waits below. -/
def ofStep (step : ScriptRun.Step) (below : List Pending) : FrameStack :=
  match step with
  | .goOn run => ⟨some (.script run), below⟩
  | .push child pending => ⟨some child, pending :: below⟩
  | .finish ending result => ⟨some (.done ending result), below⟩

/-- What a waiting frame does with the ending of the frame above it. -/
def resume (p : Pending) (below : List Pending) (ending : Ending) (result : List Value)
    (w : Workspace) : FrameStack × Workspace :=
  let pass : FrameStack := ⟨some (.done ending result), below⟩
  let scripted (r : ScriptRun.Step × Scopes) : FrameStack × Workspace :=
    (ofStep r.1 below, { w with scopes := r.2 })
  match p, ending with
  | .andThen next, .ok => (⟨some (next result), .relay :: below⟩, w)
  | .andThen _, _ => (pass, w)
  | .onFail fallback, .error => (⟨some (fallback (.ofArgs result)), .relay :: below⟩, w)
  | .onFail _, _ => (pass, w)
  | .relay, _ => (pass, w)
  | .word run, .ok => (⟨some (.script (run.takeWord result)), below⟩, w)
  | .word run, .error => scripted (run.fail w.scopes (.ofArgs result))
  | .word _, _ => (pass, w)
  | .command run, .ok => (⟨some (.script (run.takeResult result)), below⟩, w)
  | .command run, .error => scripted (run.fail w.scopes (.ofArgs result))
  | .command _, _ => (pass, w)
  | .loop run, .ok => (⟨some (.loop { run with last := result }), below⟩, w)
  | .loop run, .continue => (⟨some (.loop run), below⟩, w)
  | .loop run, .break => (⟨some (.done .ok run.last), below⟩, w)
  | .loop _, .error => (⟨some (.error (.ofArgs result)), below⟩, w)

/-- Sends the call of a frame, where its answer has somewhere to go. -/
def sendCall (site : Site) (target : Endpoint) (args : List Value) (w : Workspace) :
    Frame × Workspace :=
  match site.replyTo with
  | none => (.error (.script ("no reply address for call to " ++ target.text)), w)
  | some source =>
    let (call, ledger) := w.ledger.request target source site.time args
    (.waiting call.matchId, { w with ledger := ledger, sent := w.sent ++ [call] })

/-- What one step of a stack comes to. -/
inductive Next where
  | goOn (stack : FrameStack)
  | stop (outcome : StackOutcome) (stack : FrameStack)

/-- One step of a stack. -/
def step (site : Site) (s : FrameStack) (w : Workspace) : Next × Workspace :=
  match s.top with
  | none => (.stop (.done .ok []) s, w)
  | some (.done ending result) =>
    match s.below with
    | [] => (.stop (.done ending result) ⟨none, []⟩, w)
    | p :: below =>
      let (t, w) := resume p below ending result w
      (.goOn t, w)
  | some (.waiting id) => (.stop (.suspended id) s, w)
  | some (.call target args) =>
    let (f, w) := sendCall site target args w
    (.goOn ⟨some f, s.below⟩, w)
  | some (.log level message) =>
    (.goOn ⟨some (.ok []), s.below⟩, { w with log := w.log ++ [(level, message)] })
  | some (.andThen base next) => (.goOn ⟨some base, .andThen next :: s.below⟩, w)
  | some (.onFail body fallback) => (.goOn ⟨some body, .onFail fallback :: s.below⟩, w)
  | some (.script run) =>
    let (t, scopes) := run.step w.scopes
    (.goOn (ofStep t s.below), { w with scopes := scopes })
  | some (.loop run) =>
    match run.items with
    | [] => (.goOn ⟨some (.ok run.last), s.below⟩, w)
    | item :: items =>
      (.goOn ⟨some (.ofScript run.body run.scope false),
          .loop { run with items := items } :: s.below⟩,
        { w with scopes := w.scopes.set run.scope run.variableName item })

/-- Runs a stack for at most `fuel` steps; nothing is given when they do not suffice. -/
def run (site : Site) :
    Nat → FrameStack → Workspace → Option (StackOutcome × FrameStack × Workspace)
  | 0, _, _ => none
  | fuel + 1, s, w =>
    match step site s w with
    | (.goOn t, w) => run site fuel t w
    | (.stop outcome t, w) => some (outcome, t, w)

/-- Hands an answer to the running frame; the flag says whether it was the one waited for. -/
def post (s : FrameStack) (c : Call) : Bool × FrameStack :=
  if s.awaiting = some c.matchId then
    match c.kind with
    | .reply => (true, { s with top := some (.ok c.args) })
    | .error => (true, { s with top := some (.error (.ofArgs c.args)) })
    | _ => (true, s)
  else (false, s)

/-- A bound on the steps of one run that no script reaches in practice. -/
def stepLimit : Nat := 1000000000000

end FrameStack

end Switchboard
