import Switchboard.Root.Host

/-!
# Handing tasks to a root

A root that runs on a thread of its own is sent messages, which the thread takes in the order in
which they came. A task that it has taken holds the root until it is done and a pass has been made
after it, and its result is left for whoever still waits for it; the message to shut down is the
last one that the thread takes. A task that hands over another one and wants to wait for it would
wait for itself, so that is refused. Main statements: a thread that has ended is sent no more, and a
root that is held is not handed anything.

The thread goes in small steps, between which others can send it messages or stop waiting for their
results.
-/

namespace Switchboard

/-- What a task leaves for whoever waits for it. -/
inductive TaskResult (ρ : Type) where
  | value (r : ρ)
  /-- The handle of a request that the task has made. -/
  | requested (id : HandleId)
  /-- The task wanted to wait for another one and could not. -/
  | failed (e : HandOffError)
  | nothing

/-- A task, by what it does on the thread of a root. -/
inductive Errand (ρ : Type) where
  /-- Is done. -/
  | done (result : TaskResult ρ)
  /-- Changes the root and goes on with how it was before. -/
  | use (change : Root → Root) (next : Root → Errand ρ)
  /-- Sends a task. -/
  | post (other : Errand ρ) (next : Except HandOffError Unit → Errand ρ)
  /-- Hands over a task and waits for its result. -/
  | handOff (other : Errand ρ) (next : Except HandOffError (TaskResult ρ) → Errand ρ)

/-- What the thread of a root is sent. -/
inductive Message (ρ : Type) where
  /-- A task, with the number under which it leaves its result. -/
  | task (ticket : Nat) (errand : Errand ρ)
  | shutDown

/-- What holds the root. -/
inductive Hold (ρ : Type) where
  | free
  /-- A task, by what it still does. -/
  | task (ticket : Nat) (errand : Errand ρ)
  /-- The pass after a task. -/
  | pass

/-- A task that has been begun. -/
structure Run (ρ : Type) where
  ticket : Nat
  errand : Errand ρ
  /-- Whether it came through the inbox, or was handed over on the thread itself. -/
  queued : Bool
  /-- Whether the thread could be sent tasks at that time. -/
  accepting : Bool

/-- A root on a thread of its own. -/
structure RootThread (ρ : Type) where
  root : Root
  /-- The messages that have not been taken yet, the next one first. -/
  inbox : List (Message ρ) := []
  hold : Hold ρ := .free
  running : Bool := true
  /-- The number of the next task. -/
  nextTicket : Nat := 0
  /-- The numbers of the tasks whose results are waited for. -/
  waiting : List Nat := []
  /-- The results of tasks that were waited for when they were done, the last one first. -/
  results : List (Nat × TaskResult ρ) := []
  /-- All messages, in the order in which they were sent. Nothing depends on it. -/
  sent : List (Message ρ) := []
  /-- All tasks that were begun, in order. Nothing depends on it. -/
  begun : List (Run ρ) := []

namespace RootThread

variable {ρ : Type}

/-- How long a hand-off waits at most. -/
def patience (t : RootThread ρ) : Duration := ⟨t.root.config.handOffTimeout⟩

/-! ## Handing over -/

/-- Puts a message behind the others. -/
def enqueue (t : RootThread ρ) (m : Message ρ) : RootThread ρ :=
  { t with inbox := t.inbox ++ [m], sent := t.sent ++ [m] }

/-- Sends a task; its number tells which result belongs to it. -/
def post (t : RootThread ρ) (e : Errand ρ) : Except HandOffError Nat × RootThread ρ :=
  if t.running then
    (.ok t.nextTicket, { t.enqueue (.task t.nextTicket e) with nextTicket := t.nextTicket + 1 })
  else (.error .closed, t)

/-- Sends a task whose result will be waited for. -/
def submit (t : RootThread ρ) (e : Errand ρ) : Except HandOffError Nat × RootThread ρ :=
  match t.post e with
  | (.ok ticket, t) => (.ok ticket, { t with waiting := ticket :: t.waiting })
  | (.error e, t) => (.error e, t)

/-- Stops waiting for the result of a task. -/
def giveUp (t : RootThread ρ) (ticket : Nat) : RootThread ρ :=
  { t with waiting := t.waiting.filter (· != ticket) }

/-- Sends the message to shut down. -/
def close (t : RootThread ρ) : RootThread ρ := if t.running then t.enqueue .shutDown else t

/-- Has a task hold the root. -/
def begin (t : RootThread ρ) (x : Run ρ) : RootThread ρ :=
  { t with hold := .task x.ticket x.errand, begun := t.begun ++ [x] }

/-- Hands over a task on the thread itself, which begins it if nothing holds the root. -/
def handOffHere (t : RootThread ρ) (e : Errand ρ) : Except HandOffError Nat × RootThread ρ :=
  match t.hold with
  | .free =>
    (.ok t.nextTicket,
      { t.begin ⟨t.nextTicket, e, false, t.running⟩ with
        nextTicket := t.nextTicket + 1, waiting := t.nextTicket :: t.waiting })
  | _ => (.error .reentrant, t)

/-- What there is to be had of a task for one who has waited: its result, or the reason why there is
none, which is that the thread has ended or takes too long. -/
def result (t : RootThread ρ) (ticket : Nat) : Except HandOffError (TaskResult ρ) :=
  match t.results.find? fun e => e.1 == ticket with
  | some e => .ok e.2
  | none => .error (if t.running then .timeout t.patience else .closed)

/-! ## Steps -/

/-- Leaves a result if somebody waits for it. -/
def leave (t : RootThread ρ) (ticket : Nat) (a : TaskResult ρ) : RootThread ρ :=
  if ticket ∈ t.waiting then { t with results := (ticket, a) :: t.results } else t

/-- Has the task that holds the root go on. -/
def advance (t : RootThread ρ) (ticket : Nat) : Errand ρ → RootThread ρ
  | .done a => { t.leave ticket a with hold := .pass }
  | .use change next => { t with root := change t.root, hold := .task ticket (next t.root) }
  | .post other next =>
    let (x, t) := t.post other
    { t with hold := .task ticket (next (x.map fun _ => ())) }
  | .handOff other next =>
    match t.handOffHere other with
    | (.error e, t) => { t with hold := .task ticket (next (.error e)) }
    | (.ok _, t) => t

/-- Takes a message that was the next one. -/
def take (t : RootThread ρ) (rest : List (Message ρ)) : Message ρ → RootThread ρ
  | .task ticket e => { t with inbox := rest }.begin ⟨ticket, e, true, t.running⟩
  | .shutDown => { t with running := false, inbox := [] }

/-- What the thread does next: it goes on with what holds the root, or takes the next message, if
there is one. -/
def step (t : RootThread ρ) : RootThread ρ :=
  match t.hold with
  | .task ticket e => t.advance ticket e
  | .pass => { t with root := t.root.runUntilIdle.2, hold := .free }
  | .free =>
    match t.inbox with
    | [] => t
    | m :: rest => t.take rest m

/-- Has a task that holds the root go on until it is done and the pass has been made. -/
def complete (ticket : Nat) : Errand ρ → RootThread ρ → RootThread ρ
  | .done a, t => (t.advance ticket (.done a)).step
  | .use change next, t => complete ticket (next t.root) (t.advance ticket (.use change next))
  | .post other next, t =>
    complete ticket (next ((t.post other).1.map fun _ => ())) (t.advance ticket (.post other next))
  | .handOff other next, t =>
    complete ticket (next (.error .reentrant)) (t.advance ticket (.handOff other next))

/-- Has the thread take its next message and do all that belongs to it. -/
def takeNext (t : RootThread ρ) : RootThread ρ :=
  match t.step.hold with
  | .task ticket e => complete ticket e t.step
  | _ => t.step

/-- Has the thread take the messages that are there. -/
def drive (t : RootThread ρ) : RootThread ρ := t.inbox.length.repeat takeNext t

/-- Has the thread end after the messages that it has been sent, and waits until it has ended. -/
def shutDown (t : RootThread ρ) : RootThread ρ := t.close.drive

/-! ## Waiting -/

/-- Sends a task and waits for its result. -/
def await (t : RootThread ρ) (e : Errand ρ) : Except HandOffError (TaskResult ρ) × RootThread ρ :=
  match t.submit e with
  | (.error e, t) => (.error e, t)
  | (.ok ticket, t) => (t.drive.result ticket, t.drive)

/-- A task that uses the root once. -/
def once (task : Root → TaskResult ρ × Root) : Errand ρ :=
  .use (fun r => (task r).2) fun r => .done (task r).1

/-- A task that leaves a value. -/
def valueTask (task : Root → ρ × Root) : Errand ρ :=
  once fun r => (.value (task r).1, (task r).2)

/-- A task that makes a request. -/
def requestTask (target : Endpoint) (args : List Value) : Errand ρ :=
  once fun r => (.requested (r.requestFirmly target args).1, (r.requestFirmly target args).2)

/-- A task that hands over another one and leaves the result of that. -/
def nestedTask (other : Errand ρ) : Errand ρ :=
  .handOff other fun
    | .ok a => .done a
    | .error e => .done (.failed e)

/-- The value of a task. -/
def valueOf :
    Except HandOffError (TaskResult ρ) × RootThread ρ → Except HandOffError ρ × RootThread ρ
  | (.ok (.value a), t) => (.ok a, t)
  | (.ok (.failed e), t) => (.error e, t)
  | (.ok _, t) => (.error .closed, t)
  | (.error e, t) => (.error e, t)

/-- Hands a task over and waits for its value. -/
def handOff (t : RootThread ρ) (task : Root → ρ × Root) : Except HandOffError ρ × RootThread ρ :=
  valueOf (t.await (valueTask task))

/-- Hands over a task that wants to hand over another one and to wait for it. -/
def handOffNested (t : RootThread ρ) : Except HandOffError ρ × RootThread ρ :=
  valueOf (t.await (nestedTask (.done .nothing)))

/-- Hands over a task that takes longer than one waits; the thread does it all the same. -/
def handOffSlow (t : RootThread ρ) (task : Root → ρ × Root) : HandOffError × RootThread ρ :=
  match t.submit (valueTask task) with
  | (.error e, t) => (e, t)
  | (.ok ticket, t) => (.timeout t.patience, (t.giveUp ticket).drive)

/-- Makes a request and waits for its outcome. -/
def request (t : RootThread ρ) (target : Endpoint) (args : List Value) : Outcome × RootThread ρ :=
  match t.await (requestTask target args) with
  | (.ok (.requested id), t) =>
    match (t.root.handles.get id).outcome with
    | some o => (o, t)
    | none => (.error (.timeout ("no answer within " ++ t.patience.text)), t)
  | (.ok _, t) => (.error (RuntimeError.handOff .closed).fault, t)
  | (.error e, t) => (.error (RuntimeError.handOff e).fault, t)

/-! ## Order -/

variable {t : RootThread ρ}

/-- A task that is sent to a thread that has not ended. -/
theorem post_of_running (h : t.running = true) (e : Errand ρ) :
    t.post e = (.ok t.nextTicket,
      { t.enqueue (.task t.nextTicket e) with nextTicket := t.nextTicket + 1 }) := by
  simp [post, h]

/-- A thread that has ended is sent no task any more. -/
theorem post_of_not_running (h : t.running = false) (e : Errand ρ) :
    t.post e = (.error .closed, t) := by
  simp [post, h]

/-- A root that is held is not handed anything on its thread. -/
theorem handOffHere_of_held (h : t.hold ≠ .free) (e : Errand ρ) :
    t.handOffHere e = (.error .reentrant, t) := by
  unfold handOffHere
  split
  · contradiction
  · rfl

end RootThread

end Switchboard
