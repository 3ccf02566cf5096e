import Switchboard.Root.Standard

/-!
# Dispatch

A call goes to the control that it names: to one of the host, to a standard control, which the root
answers, or to a control of the behavior of a unit. A request that cannot be served is answered with
an error if it has not been answered yet; any other call that cannot be served is lost.
-/

namespace Switchboard

namespace Root

/-- Sends the answer to a call, where it may be answered. -/
def sendAnswer (r : Root) (c : Call) (kind : CallKind) (args : List Value) : Root :=
  match r.ledger.answer c kind args with
  | .ok (a, ledger) => { r with ledger := ledger }.send a
  | .error _ => r

/-- Answers a call that has failed, if an answer is still owed. -/
def reject (r : Root) (c : Call) (f : Fault) : Root :=
  if c.expectsReply && !r.ledger.isAnswered c then r.sendAnswer c .error [.fault f] else r

/-- Answers a call with what has come out. -/
def answer (r : Root) (c : Call) : Except Fault (List Value) → Root
  | .ok args => if c.expectsReply then r.sendAnswer c .reply args else r
  | .error f => r.reject c f

/-- Takes over what a table of requests has made of a call: the outcome of a callback goes into the
journal. -/
def noteDue (due : Option (String × Outcome)) (r : Root) : Root :=
  match due with
  | some (tag, o) => { r with journal := .outcome tag o :: r.journal }
  | none => r

/-- Hands an answer to the request of the host that it belongs to. -/
def receiveAnswer (r : Root) (c : Call) : Root :=
  if !c.isResponse then r
  else if r.callbacks.contains c.matchId then
    let d := r.callbacks.handle r.handles c
    noteDue d.due { r with callbacks := d.table, handles := d.handles }
  else
    let d := r.requests.handle r.handles c
    noteDue d.due { r with requests := d.table, handles := d.handles }

/-- Fails the request of the host that a timeout names, if its answer is still awaited. -/
def receiveTimeout (r : Root) (c : Call) : Root :=
  let d := r.callbacks.handleTimeout r.handles c
  let r := noteDue d.due { r with callbacks := d.table, handles := d.handles }
  if d.resolution = .ignored then
    let d := r.requests.handleTimeout r.handles c
    noteDue d.due { r with requests := d.table, handles := d.handles }
  else r

/-- Serves a call to a control of the host. -/
def dispatchHost (r : Root) (c : Call) : Root :=
  if c.target.id = hostId then r.receiveAnswer c
  else if c.target.id = timeoutId then r.receiveTimeout c
  else r.reject c (.routing ("unknown system control '" ++ c.target.id.text ++ "'"))

/-- Hands a call to the behavior of a unit. -/
def dispatchUnit (r : Root) (h : Handle) (c : Call) : Root :=
  match r.inTurn h fun s n t => n.invoke s c t with
  | (some (.error f), r) => r.reject c f
  | (_, r) => r

/-- Whether a call goes to a control of the host, whose names begin with an underscore. -/
def isForHost (r : Root) (c : Call) : Bool :=
  c.target.path == r.address && c.target.id.text.toList.head? == some '_'

/-- Serves a call. -/
def dispatch (r : Root) (c : Call) : Root :=
  if r.isForHost c then r.dispatchHost c
  else match r.handle? c.target.path with
    | none => r.reject c (.routing ("no unit at " ++ c.target.path.text))
    | some h =>
      match if c.isRequest then StandardControl.ofId? c.target.id.text else none with
      | some control =>
        let (outcome, r) := r.answerStandard h control c
        r.answer c outcome
      | none => r.dispatchUnit h c

/-! ## Values on ports -/

/-- The input ports that a port of a unit is connected to, in the order of the connections. -/
def targetsOf (r : Root) (p : PortAddress) : List (Handle × String) :=
  match (r.unit? p.path).bind fun n => n.parent.bind r.units.get? with
  | none => []
  | some parent =>
    (parent.connections.filter fun c =>
        c.source == p.path.last.text && c.sourcePort == p.id.text).filterMap fun c =>
      (parent.child? c.target).map fun h => (h, c.targetPort)

/-- Hands values emitted on a port to the ports that it is connected to. -/
def deliver (r : Root) (p : PortAddress) (values : List Value) : Root :=
  (r.targetsOf p).foldl (fun r e => r.act e.1 (Node.receive · e.2 values)) r

/-! ## Passes -/

/-- The root without a call that was in front of the queue and is dispatched now. -/
def take (r : Root) (c : Call) (rest : List Call) : Root :=
  { r with
    queue := rest
    history := { r.history with dispatched := (c, r.time) :: r.history.dispatched } }

/-- Processes the next item: values on ports come before calls. -/
def step? (r : Root) : Option Root :=
  match r.portQueue with
  | (p, values) :: rest => some ({ r with portQueue := rest }.deliver p values)
  | [] =>
    match r.queue with
    | c :: rest => some ((r.take c rest).dispatch c)
    | [] => none

/-- Processes at most `budget` items and counts them on from `done`. -/
def runFor : Nat → Nat → Root → Nat × Root
  | 0, done, r => (done, r)
  | budget + 1, done, r =>
    match r.step? with
    | some r => runFor budget (done + 1) r
    | none => (done, r)

/-- Processes items until there are none or the budget of a pass is spent; says how many. -/
def runUntilIdle (r : Root) : Nat × Root := runFor r.config.callBudget 0 r

/-- The root with a clock that has advanced: the calls that are due go to the end of the queue. -/
def advance (r : Root) (clock : Clock Handle) : Root :=
  let (due, scheduler) := r.scheduler.release clock.time
  { r with
    clock := clock, scheduler := scheduler, queue := r.queue ++ due
    history := { r.history with times := clock.time :: r.history.times } }

/-- Advances the clock: calls that are due go to the end of the queue, the units of an active root
have their tick, and then a pass is made. A time that is not newer is passed over. -/
def tick (r : Root) (time : Int64) : Bool × Root :=
  match r.clock.tick? time with
  | none => (false, r)
  | some clock =>
    let r := r.advance clock
    let r := if clock.isActive then r.actAll clock.listeners Node.tick else r
    (true, r.runUntilIdle.2)

end Root

end Switchboard
