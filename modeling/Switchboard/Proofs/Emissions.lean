import Mathlib
import Switchboard.Proofs.Wiring

/-!
# What is emitted on ports

What units emit on their ports goes into one queue, and a pass processes what is in it before any
call.  The main theorem `emissions_in_order` says that along every run this queue neither loses an
emission nor hands one out twice: what has been emitted is what has been taken up, in the same
order, followed by what is still queued, and whenever a call is served everything emitted before has
been taken up.  An emission that is taken up is handed out once for each connection that leaves its
port then, whatever the targets do with it, and what they emit is queued behind everything else.

Nothing in a root records what was emitted, so its history is told from outside.  `Root.Emits`
follows what a root does down to single turns, each of which puts what the unit has emitted behind
what is queued, and to what happens between turns (`Root.Interlude`).  A `Root.Flow` is made up of
such stretches, of emissions that are taken up and of calls that are served; that everything a root
can do is a flow is shown for chores, for rounds of a pass and for operations.
-/

namespace Switchboard

open Relation

/-- Values with the port at which they were emitted. -/
abbrev Emission := PortAddress × List Value

/-- What is queued of what a unit has emitted in a turn: all but what was emitted under a name that
no port can have. -/
def Outbox.emitted (source : Path) (o : Outbox) : List Emission :=
  o.emissions.filterMap fun e => (source.port? e.1).toOption.map fun p => (p, e.2)

/-! ## Handlers of ports -/

namespace Port

/-- What runs on the values that arrive at an input port. -/
def handler? : Port → Option (List Value → Program)
  | .input handler => some handler
  | .observer (some .input) _ => some fun _ => .done (.ok [])
  | _ => none

/-- The ports with a handler are the input ports. -/
lemma isSome_handler? (p : Port) : p.handler?.isSome = true ↔ p.direction = some .input := by
  match p with
  | .input handler => exact iff_of_true rfl rfl
  | .output => exact iff_of_false nofun nofun
  | .observer (some .input) o => exact iff_of_true rfl rfl
  | .observer (some .output) o => exact iff_of_false nofun nofun
  | .observer none o => exact iff_of_false nofun nofun

end Port

namespace Iteration

/-- The handler of an input port. -/
def handler? (i : Iteration) (port : String) : Option (List Value → Program) :=
  (Named.find? port i.members.ports).bind Port.handler?

/-- What is left when the handler of a port has run on values; that it has failed is only noted in
the log. -/
def handle (s : Setting) (port : String) (handler : List Value → Program) (values : List Value)
    (i : Iteration) (t : Turn) : Iteration × Turn :=
  match (handler values).run s ⟨i.cells, t⟩ with
  | (.ok _, w) => ({ i with cells := w.cells }, w.turn)
  | (.error f, w) =>
    ({ i with cells := w.cells },
      w.turn.log s .error ("port '" ++ port ++ "' handler failed: " ++ f.message))

/-- The ports with a handler are the declared input ports. -/
lemma isSome_handler? (i : Iteration) (port : String) :
    (i.handler? port).isSome = true ↔ i.portDirection? port = some .input := by
  unfold handler? portDirection?
  cases Named.find? port i.members.ports with
  | none => exact iff_of_false nofun nofun
  | some p => exact p.isSome_handler?

/-- Values reach the handler of the port, if it has one. -/
lemma receive_eq (s : Setting) (port : String) (values : List Value) (i : Iteration) (t : Turn) :
    i.receive s port values t =
      match i.handler? port with
      | some handler => i.handle s port handler values t
      | none => (i, t) := by
  unfold receive handler?
  match Named.find? port i.members.ports with
  | none => rfl
  | some (.input handler) => rfl
  | some .output => rfl
  | some (.observer (some .input) o) => rfl
  | some (.observer (some .output) o) => rfl
  | some (.observer none o) => rfl

end Iteration

namespace Root

/-! ## Turns -/

/-- What is queued of what a unit emits in a turn. -/
def emissionsOf (r : Root) (h : Handle) (f : Setting → Node → Turn → Node × Turn) :
    List Emission :=
  match r.units.get? h with
  | none => []
  | some n => (f (r.setting n.address) n r.turn).2.outbox.emitted n.address

/-- Sending a call emits nothing. -/
lemma portQueue_send (r : Root) (c : Call) : (r.send c).portQueue = r.portQueue := by
  unfold send
  split <;> rfl

/-- Sending calls emits nothing. -/
lemma portQueue_foldl_send (cs : List Call) (r : Root) :
    (cs.foldl send r).portQueue = r.portQueue := by
  induction cs generalizing r with
  | nil => rfl
  | cons c cs ih => exact (ih (r.send c)).trans (portQueue_send r c)

/-- What was emitted is queued in order. -/
lemma portQueue_foldl_emit (source : Path) (emissions : List (String × List Value)) (r : Root) :
    (emissions.foldl (emit source) r).portQueue = r.portQueue ++
      emissions.filterMap fun e => (source.port? e.1).toOption.map fun p => (p, e.2) := by
  induction emissions generalizing r with
  | nil => exact (List.append_nil _).symm
  | cons e emissions ih =>
    rw [List.foldl_cons, ih, List.filterMap_cons, emit]
    cases source.port? e.1 with
    | error _ => rfl
    | ok p => exact List.append_assoc ..

/-- Log lines emit nothing. -/
lemma portQueue_sendLog (source : Path) (r : Root) (lines : List LogEntry) :
    (sendLog source r lines).portQueue = r.portQueue := by
  unfold sendLog
  split
  · rfl
  · split
    · rfl
    · exact portQueue_send ..

/-- What a unit has emitted is queued behind the rest. -/
lemma portQueue_flush (source : Path) (r : Root) (o : Outbox) :
    (r.flush source o).portQueue = r.portQueue ++ o.emitted source := by
  unfold flush
  rw [portQueue_sendLog, portQueue_foldl_emit, portQueue_foldl_send]
  rfl

/-- What a unit emits in a turn is queued behind the rest. -/
lemma portQueue_act (r : Root) (h : Handle) (f : Setting → Node → Turn → Node × Turn) :
    (r.act h f).portQueue = r.portQueue ++ r.emissionsOf h f := by
  unfold act inTurn emissionsOf
  cases r.units.get? h with
  | none => exact (List.append_nil _).symm
  | some n => exact portQueue_flush ..

/-! ## Between turns -/

/-- The root without a unit that has had its last turn. -/
def withdraw (r : Root) (h : Handle) : Root :=
  { r with
    units := (r.units.remove h).2
    index :=
      match (r.units.remove h).1 with
      | some n => r.index.filter fun e => e.1 ≠ n.address
      | none => r.index
    clock := r.clock.detach h }

variable {r s t : Root} {es fs : List Emission}

/-- Something that a root does without giving a unit a turn and without taking anything from a
queue. -/
inductive Interlude (r : Root) : Root → Prop
  | send (c : Call) : Interlude r (r.send c)
  | ledger (l : Ledger) : Interlude r { r with ledger := l }
  | clock (clock : Clock Handle) : Interlude r { r with clock := clock }
  | advance (clock : Clock Handle) : Interlude r (r.advance clock)
  | insert (parent : Handle) (id : String) (n : Node) : Interlude r (r.insertNode parent id n).2
  | enlist (i : Iteration) : Interlude r (r.enlist i)
  /-- A unit gives up a child and the connections that touch it. -/
  | detach (parent : Handle) (id : String) :
      Interlude r { r with units := r.units.modify parent fun n => n.removeChild id }
  | withdraw (h : Handle) : Interlude r (r.withdraw h)
  | connect (p : Path) (c : Connection) : Interlude r (r.connect p c).2
  | disconnect (p : Path) (c : Connection) : Interlude r (r.disconnect p c).2
  | edit (h : Handle) {f : Node → Node} (hf : Edit f) :
      Interlude r { r with units := r.units.modify h f }
  | books (catalog : Catalog) (compiler : Option Compiler) (services : Keyed Path)
      (requests callbacks : CallTable String) (handles : AsyncStore) (journal : List Note) :
      Interlude r { r with
        catalog := catalog, compiler := compiler, services := services, requests := requests
        callbacks := callbacks, handles := handles, journal := journal }

/-- Between turns nothing is emitted. -/
lemma Interlude.portQueue_eq (h : Interlude r s) : s.portQueue = r.portQueue := by
  cases h with
  | send c => exact portQueue_send r c
  | connect p c =>
    unfold Root.connect
    split <;> rfl
  | disconnect p c =>
    unfold Root.disconnect
    split
    · rfl
    · split <;> rfl
  | _ => rfl

/-- What a root does while nothing is taken from its queues, turn after turn, with what its units
emit. -/
inductive Emits (r : Root) : List Emission → Root → Prop
  | nothing : Emits r [] r
  | turn {es : List Emission} {s : Root} (h : Emits r es s) (k : Handle) (task : Task) :
      Emits r (es ++ s.emissionsOf k task.run) (s.act k task.run)
  | interlude {es : List Emission} {s t : Root} (h : Emits r es s) (hbetween : Interlude s t) :
      Emits r es t

namespace Emits

/-- What is emitted is queued behind the rest. -/
lemma portQueue_eq (h : Emits r es s) : s.portQueue = r.portQueue ++ es := by
  induction h with
  | nothing => exact (List.append_nil _).symm
  | turn h k task ih => rw [portQueue_act, ih, List.append_assoc]
  | interlude h hbetween ih => rw [hbetween.portQueue_eq, ih]

/-- One thing after another. -/
lemma trans (h : Emits r es s) (h' : Emits s fs t) : Emits r (es ++ fs) t := by
  induction h' with
  | nothing => simpa using h
  | turn h' k task ih => simpa using ih.turn k task
  | interlude h' hbetween ih => exact ih.interlude hbetween

end Emits

/-- Whether what a root does comes down to turns and what happens between them. -/
def Proceeds (r s : Root) : Prop := ∃ es, Emits r es s

namespace Proceeds

/-- Nothing at all. -/
lemma refl (r : Root) : Proceeds r r := ⟨[], .nothing⟩

/-- One thing after another. -/
lemma trans (h : Proceeds r s) (h' : Proceeds s t) : Proceeds r t := by
  obtain ⟨es, h⟩ := h
  obtain ⟨fs, h'⟩ := h'
  exact ⟨es ++ fs, h.trans h'⟩

/-- A turn of a unit. -/
lemma turn (r : Root) (h : Handle) (task : Task) : Proceeds r (r.act h task.run) :=
  ⟨_, .turn .nothing h task⟩

/-- Something between turns. -/
lemma interlude (h : Interlude r s) : Proceeds r s := ⟨[], .interlude .nothing h⟩

/-- The same for each item of a list. -/
lemma foldl {α : Type} {f : Root → α → Root} (hf : ∀ r a, Proceeds r (f r a)) (l : List α)
    (r : Root) : Proceeds r (l.foldl f r) :=
  l.foldlRecOn f (refl r) fun s hs a _ => hs.trans (hf s a)

/-- Turns of units. -/
lemma actAll (r : Root) (hs : List Handle) (task : Task) : Proceeds r (r.actAll hs task.run) :=
  foldl (fun r h => turn r h task) hs r

/-- Answering a call. -/
lemma sendAnswer (r : Root) (c : Call) (kind : CallKind) (args : List Value) :
    Proceeds r (r.sendAnswer c kind args) := by
  unfold Root.sendAnswer
  split
  · exact (interlude (.ledger _)).trans (interlude (.send _))
  · exact refl r

/-- Starting a root. -/
lemma start (r : Root) : Proceeds r r.start.2 := by
  unfold Root.start
  split
  · exact refl r
  · exact (interlude (.clock _)).trans (actAll _ _ .activate)

/-- Stopping a root. -/
lemma stop (r : Root) : Proceeds r r.stop.2 := by
  unfold Root.stop
  split
  · exact refl r
  · exact ((interlude (.clock _)).trans (actAll _ _ .stop)).trans (actAll _ _ .reset)

/-- Putting a behavior in place. -/
lemma putIteration (r : Root) (h : Handle) (i : Iteration) : Proceeds r (r.putIteration h i) :=
  (interlude (.enlist i)).trans
    (turn _ h (.install { i with number := r.installed.length } r.clock.isActive))

/-- Adding a unit. -/
lemma addUnit (r : Root) (parent : Path) (id typeName : String) (kind : NodeKind) (b : Behavior) :
    Proceeds r (r.addUnit parent id typeName kind b).2 := by
  unfold Root.addUnit
  split
  · exact refl r
  · exact (interlude (.insert ..)).trans (putIteration ..)

/-- Taking a unit out of the tree: it has its last turn before. -/
lemma dropNode (r : Root) (h : Handle) : Proceeds r (r.dropNode h) :=
  (turn r h .dispose).trans (interlude (.withdraw h))

/-- Removing a unit and all units below it. -/
lemma removeSubtree (fuel : ℕ) (h : Handle) (r : Root) :
    Proceeds r (removeSubtree fuel h r) := by
  induction fuel generalizing h r with
  | zero => exact refl r
  | succ fuel ih =>
    unfold Root.removeSubtree
    split
    · exact refl r
    · exact (foldl (fun r (e : String × Handle) => ih e.2 r) _ r).trans (dropNode _ h)

/-- Removing a child. -/
lemma removeChild (r : Root) (parent : Path) (id : String) :
    Proceeds r (r.removeChild parent id).2 := by
  unfold Root.removeChild
  split
  · exact refl r
  · have hdetach := interlude (.detach (r := r) ‹_› id)
    simp only
    split
    · exact hdetach
    · exact hdetach.trans (removeSubtree ..)

/-- A chore. -/
lemma chore (h : Chore r s) : Proceeds r s := by
  cases h with
  | turn h hk => exact turn r h _
  | answer c hkind args => exact sendAnswer ..
  | start => exact start r
  | stop => exact stop r
  | add parent id typeName hkind b => exact addUnit ..
  | install h hi => exact putIteration ..
  | remove parent id => exact removeChild ..
  | connect p c => exact interlude (.connect p c)
  | disconnect p c => exact interlude (.disconnect p c)
  | edit h hf => exact interlude (.edit h hf)
  | learn catalog compiler services =>
    exact interlude (.books catalog compiler services r.requests r.callbacks r.handles r.journal)
  | request => exact interlude (.ledger _)
  | quiet => exact interlude (.ledger _)
  | send hc => exact interlude (.send _)
  | more h => exact h.elim

/-- Chores. -/
lemma chores (h : Chores r s) : Proceeds r s := by
  induction h with
  | refl => exact refl r
  | tail _ hlast ih => exact ih.trans (chore hlast)

/-- What the host has asked for is entered in its tables, and the rest are chores. -/
lemma asks (h : Asks r t) : Proceeds r t := by
  obtain ⟨target, args, s, henter, hchores⟩ := h
  have hmake : Proceeds r (r.makeRequest target args).2 := interlude (.ledger _)
  have hbooks (requests callbacks : CallTable String) (handles : AsyncStore) :
      Proceeds r { (r.makeRequest target args).2 with
        requests := requests, callbacks := callbacks, handles := handles } :=
    hmake.trans (interlude (.books r.catalog r.compiler r.services requests callbacks handles
      r.journal))
  refine trans ?_ (chores hchores)
  cases henter with
  | handle h => exact hbooks ..
  | keptHandle h => exact hbooks ..
  | callback h => exact hbooks ..
  | failed f => exact hbooks ..
  | nothing => exact hmake

/-- Serving a call to a control of the host. -/
lemma dispatchHost (r : Root) (c : Call) : Proceeds r (r.dispatchHost c) := by
  have hbooks (requests callbacks : CallTable String) (handles : AsyncStore)
      (due : Option (String × Outcome)) (s : Root) :
      Proceeds s (noteDue due
        { s with requests := requests, callbacks := callbacks, handles := handles }) := by
    cases due with
    | none => exact interlude (.books s.catalog s.compiler s.services _ _ _ s.journal)
    | some e => exact interlude (.books s.catalog s.compiler s.services _ _ _ (_ :: s.journal))
  unfold Root.dispatchHost receiveAnswer receiveTimeout
  simp only
  split
  · split
    · exact refl r
    · split
      · exact hbooks r.requests _ _ _ r
      · exact hbooks _ r.callbacks _ _ r
  · split
    · have hcallbacks := hbooks r.requests (r.callbacks.handleTimeout r.handles c).table
        (r.callbacks.handleTimeout r.handles c).handles
        (r.callbacks.handleTimeout r.handles c).due r
      split
      · exact hcallbacks.trans (hbooks _ _ _ _ _)
      · exact hcallbacks
    · exact chores (chores_reject r c _)

/-- Serving a call. -/
lemma dispatch (r : Root) (c : Call) : Proceeds r (r.dispatch c) := by
  cases h : r.isForHost c with
  | false => exact chores (chores_dispatch h)
  | true =>
    unfold Root.dispatch
    rw [if_pos h]
    exact dispatchHost r c

end Proceeds

/-! ## Histories -/

/-- Something that stands in a list with others behind it which it is not one of stands before
them. -/
lemma exists_of_append {α : Type} {x : α} {events new before after : List α}
    (h : events ++ new = before ++ x :: after) (hx : x ∉ new) :
    ∃ rest, events = before ++ x :: rest := by
  rcases List.append_eq_append_iff.mp h with ⟨as, rfl, hnew⟩ | ⟨bs, rfl, hafter⟩
  · exact absurd (hnew ▸ by simp) hx
  · cases bs with
    | nil =>
      have hmem : x ∈ [] ++ new := hafter ▸ List.mem_cons_self
      exact absurd hmem hx
    | cons b bs =>
      cases hafter
      exact ⟨bs, rfl⟩

/-- Something that happens to emissions and calls in the course of a run. -/
inductive Occurrence where
  /-- A unit emits values on a port. -/
  | emitted (e : Emission)
  /-- An emission is taken from the queue to be handed out. -/
  | takenUp (e : Emission)
  /-- A call is taken from the queue to be served. -/
  | served (c : Call)

namespace Occurrence

/-- What units emit, in order. -/
def emissions (events : List Occurrence) : List Emission :=
  events.filterMap fun
    | .emitted e => some e
    | _ => none

/-- The emissions that are taken up, in order. -/
def takenUps (events : List Occurrence) : List Emission :=
  events.filterMap fun
    | .takenUp e => some e
    | _ => none

/-- Whether a pass counts something among the items that it processes. -/
def isItem : Occurrence → Bool
  | .emitted _ => false
  | _ => true

/-- How many items are processed. -/
def items (events : List Occurrence) : ℕ := (events.filter isItem).length

section Projections

variable (e : Emission) (c : Call) (es : List Emission) (events new : List Occurrence)

@[simp]
lemma emissions_takenUp : emissions (.takenUp e :: events) = emissions events := rfl

@[simp]
lemma emissions_served : emissions (.served c :: events) = emissions events := rfl

@[simp]
lemma emissions_append : emissions (events ++ new) = emissions events ++ emissions new :=
  List.filterMap_append

@[simp]
lemma emissions_emitted : emissions (es.map .emitted) = es := by
  simp [emissions, List.filterMap_map]

@[simp]
lemma takenUps_takenUp : takenUps (.takenUp e :: events) = e :: takenUps events := rfl

@[simp]
lemma takenUps_served : takenUps (.served c :: events) = takenUps events := rfl

@[simp]
lemma takenUps_append : takenUps (events ++ new) = takenUps events ++ takenUps new :=
  List.filterMap_append

@[simp]
lemma takenUps_emitted : takenUps (es.map .emitted) = [] := by
  simp [takenUps]

@[simp]
lemma items_takenUp : items (.takenUp e :: events) = items events + 1 := rfl

@[simp]
lemma items_served : items (.served c :: events) = items events + 1 := rfl

@[simp]
lemma items_append : items (events ++ new) = items events + items new := by
  simp [items]

@[simp]
lemma items_emitted : items (es.map .emitted) = 0 := by
  simp [items, List.filter_map, Function.comp_def, isItem]

end Projections

end Occurrence

/-- A history: what happens to emissions and calls while one root becomes another. -/
inductive Flow (r : Root) : List Occurrence → Root → Prop
  | nothing : Flow r [] r
  /-- Something is done that takes nothing from the queues. -/
  | work {events : List Occurrence} {s t : Root} {es : List Emission} (h : Flow r events s)
      (hlater : Later s t) (hemits : Emits s es t) : Flow r (events ++ es.map .emitted) t
  /-- What is in front of the queue of ports is handed out. -/
  | handOut {events : List Occurrence} {s : Root} {p : PortAddress} {values : List Value}
      {rest es : List Emission} (h : Flow r events s) (hports : s.portQueue = (p, values) :: rest)
      (hemits : Emits { s with portQueue := rest } es
        ({ s with portQueue := rest }.deliver p values)) :
      Flow r (events ++ .takenUp (p, values) :: es.map .emitted)
        ({ s with portQueue := rest }.deliver p values)
  /-- The call in front of the queue is served, when there is nothing to be handed out. -/
  | serve {events : List Occurrence} {s : Root} {c : Call} {rest : List Call}
      {es : List Emission} (h : Flow r events s) (hports : s.portQueue = [])
      (hqueue : s.queue = c :: rest) (hemits : Emits (s.take c rest) es
        ((s.take c rest).dispatch c)) :
      Flow r (events ++ .served c :: es.map .emitted) ((s.take c rest).dispatch c)

namespace Flow

open Occurrence

variable {events new : List Occurrence}

/-- One history after another. -/
lemma trans (h : Flow r events s) (h' : Flow s new t) : Flow r (events ++ new) t := by
  induction h' with
  | nothing => simpa using h
  | work h' hlater hemits ih => simpa using ih.work hlater hemits
  | handOut h' hports hemits ih => simpa using ih.handOut hports hemits
  | serve h' hports hqueue hemits ih => simpa using ih.serve hports hqueue hemits

/-- The root at the end of a history is one that the root in the beginning can become. -/
lemma later (h : Flow r events s) : Later r s := by
  induction h with
  | nothing => exact .refl
  | work h hlater hemits ih => exact ih.trans hlater
  | handOut h hports hemits ih => exact ih.trans (Rounds.single (.handOn hports)).deeds.later
  | serve h hports hqueue hemits ih =>
    exact ih.trans (Rounds.single (.serve hports hqueue)).deeds.later

/-- No emission is lost and none is taken up twice or before its turn: what was queued, followed by
what has been emitted, is what has been taken up, followed by what is queued. -/
lemma portQueue_eq (h : Flow r events s) :
    r.portQueue ++ emissions events = takenUps events ++ s.portQueue := by
  induction h with
  | nothing => exact List.append_nil _
  | @work events s t es h hlater hemits ih =>
    rw [hemits.portQueue_eq]
    simpa using congrArg (· ++ es) ih
  | @handOut events s p values rest es h hports hemits ih =>
    have hqueue : ({ s with portQueue := rest }.deliver p values).portQueue = rest ++ es :=
      hemits.portQueue_eq
    rw [hports] at ih
    rw [hqueue]
    simpa using congrArg (· ++ es) ih
  | @serve events s c rest es h hports hqueue hemits ih =>
    have hserved : ((s.take c rest).dispatch c).portQueue = s.portQueue ++ es :=
      hemits.portQueue_eq
    rw [hserved]
    simpa using congrArg (· ++ es) ih

/-- A call is served only when the queue of ports is empty. -/
lemma exists_served {before after : List Occurrence} {c : Call}
    (h : Flow r (before ++ .served c :: after) s) :
    ∃ u, Flow r before u ∧ u.portQueue = [] := by
  generalize hevents : before ++ .served c :: after = events at h
  induction h generalizing after with
  | nothing => simp at hevents
  | @work events s t es h hlater hemits ih =>
    obtain ⟨rest, hrest⟩ := exists_of_append hevents.symm (by simp)
    exact ih hrest.symm
  | @handOut events s p values rest es h hports hemits ih =>
    obtain ⟨rest, hrest⟩ := exists_of_append hevents.symm (by simp)
    exact ih hrest.symm
  | @serve events s d rest es h hports hqueue hemits ih =>
    rw [List.append_cons events] at hevents
    obtain ⟨tail, htail⟩ := exists_of_append hevents.symm (by simp)
    -- The call is the last one to have been served, or an earlier one.
    rcases List.eq_nil_or_concat tail with rfl | ⟨tail, d', rfl⟩
    · obtain ⟨rfl, -⟩ := List.append_inj' htail rfl
      exact ⟨s, h, hports⟩
    · rw [List.concat_eq_append, ← List.cons_append, ← List.append_assoc] at htail
      exact ih (List.append_inj' htail rfl).1.symm

end Flow

/-! ## Runs -/

/-- What a root does without taking anything from its queues is a history. -/
lemma Proceeds.exists_flow (h : Proceeds r s) (hlater : Later r s) :
    ∃ events, Flow r events s := by
  obtain ⟨es, h⟩ := h
  exact ⟨_, Flow.nothing.work hlater h⟩

/-- What is in front of the queue of ports is handed out: one item. -/
lemma exists_flow_handOn {p : PortAddress} {values : List Value} {rest : List Emission}
    (hports : r.portQueue = (p, values) :: rest) :
    ∃ events, Flow r events ({ r with portQueue := rest }.deliver p values) ∧
      Occurrence.items events = 1 := by
  obtain ⟨es, hemits⟩ := Proceeds.chores (chores_deliver { r with portQueue := rest } p values)
  exact ⟨_, Flow.nothing.handOut hports hemits, by simp⟩

/-- The call in front of the queue is served: one item. -/
lemma exists_flow_serve {c : Call} {rest : List Call} (hports : r.portQueue = [])
    (hqueue : r.queue = c :: rest) :
    ∃ events, Flow r events ((r.take c rest).dispatch c) ∧ Occurrence.items events = 1 := by
  obtain ⟨es, hemits⟩ := Proceeds.dispatch (r.take c rest) c
  exact ⟨_, Flow.nothing.serve hports hqueue hemits, by simp⟩

/-- An item that is processed is a history of one item. -/
lemma exists_flow_step (h : r.step? = some s) :
    ∃ events, Flow r events s ∧ Occurrence.items events = 1 := by
  unfold step? at h
  split at h
  · rename_i p values rest hports
    cases h
    exact exists_flow_handOn hports
  · rename_i hports
    split at h
    · rename_i c rest hqueue
      cases h
      exact exists_flow_serve hports hqueue
    · contradiction

/-- A pass within a budget is a history of as many items as the pass counts. -/
lemma exists_flow_runFor (budget done : ℕ) (r : Root) :
    ∃ events, Flow r events (runFor budget done r).2 ∧
      (runFor budget done r).1 = done + Occurrence.items events := by
  induction budget generalizing done r with
  | zero => exact ⟨[], .nothing, rfl⟩
  | succ budget ih =>
    unfold runFor
    cases h : r.step? with
    | none => exact ⟨[], .nothing, rfl⟩
    | some s =>
      obtain ⟨events, hevents, hone⟩ := exists_flow_step h
      obtain ⟨new, hnew, hcount⟩ := ih (done + 1) s
      refine ⟨events ++ new, hevents.trans hnew, ?_⟩
      rw [hcount, Occurrence.items_append, hone]
      omega

/-- A round is a history. -/
lemma Round.exists_flow (h : Round r s) : ∃ events, Flow r events s := by
  have hlater : Later r s := (Rounds.single h).deeds.later
  cases h with
  | chore h => exact (Proceeds.chore h).exists_flow hlater
  | handOn hports =>
    obtain ⟨events, hevents, -⟩ := exists_flow_handOn hports
    exact ⟨events, hevents⟩
  | serve hports hqueue =>
    obtain ⟨events, hevents, -⟩ := exists_flow_serve hports hqueue
    exact ⟨events, hevents⟩
  | advance h => exact (Proceeds.interlude (.advance _)).exists_flow hlater

/-- Rounds are a history. -/
lemma Rounds.exists_flow (h : Rounds r s) : ∃ events, Flow r events s := by
  induction h with
  | refl => exact ⟨[], .nothing⟩
  | tail _ hlast ih =>
    obtain ⟨events, hevents⟩ := ih
    obtain ⟨new, hnew⟩ := hlast.exists_flow
    exact ⟨events ++ new, hevents.trans hnew⟩

/-- Whatever the host does with a root, a history comes of it. -/
lemma exists_flow_run {o : Operation} (ho : o.Admitted r) : ∃ events, Flow r events (o.run r) := by
  have hlater := Operation.later ho
  have hdoes := o.does r
  generalize o.run r = s at hlater hdoes ⊢
  cases hdoes with
  | chores h => exact (Proceeds.chores h).exists_flow hlater
  | rounds h => exact h.exists_flow
  | asks h => exact (Proceeds.asks h).exists_flow hlater
  | send c => exact (Proceeds.interlude (.send c)).exists_flow hlater
  | keepAnswer c =>
    refine Proceeds.exists_flow ?_ hlater
    unfold Operation.keepAnswer
    split
    · exact .interlude (.ledger _)
    · exact .refl r
  | touch id f =>
    exact (Proceeds.interlude (.books r.catalog r.compiler r.services r.requests r.callbacks _
      r.journal)).exists_flow hlater

/-- Every run is a history that begins with a new root. -/
lemma Reachable.exists_flow (hr : Reachable r) :
    ∃ config catalog first events, Root.new config catalog = .ok first ∧ Flow first events r := by
  induction hr with
  | new h => exact ⟨_, _, _, [], h, .nothing⟩
  | operate _ ho ih =>
    obtain ⟨config, catalog, first, events, hfirst, hevents⟩ := ih
    obtain ⟨new, hnew⟩ := exists_flow_run ho
    exact ⟨config, catalog, first, events ++ new, hfirst, hevents.trans hnew⟩

/-! ## Handing out -/

/-- Hands values to a port of a unit. -/
def handTo (values : List Value) (r : Root) (e : Handle × String) : Root :=
  r.act e.1 (Node.receive · e.2 values)

/-- What comes of values that are handed to a port of a unit: they run through the handler if the
port is declared as an input port, and nothing at all happens if it is not.  What the unit emits
meanwhile is queued behind the rest. -/
structure Reaches (r : Root) (values : List Value) (e : Handle × String) (n : Node) : Prop where
  live : r.units.get? e.1 = some n
  input : n.iteration.portDirection? e.2 = some .input →
    ∃ handler, n.iteration.handler? e.2 = some handler ∧
      r.handTo values e = r.act e.1 fun s n t =>
        n.withIteration (n.iteration.handle s e.2 handler values t)
  other : n.iteration.portDirection? e.2 ≠ some .input → r.handTo values e = r
  queued : (r.handTo values e).portQueue =
    r.portQueue ++ r.emissionsOf e.1 (Node.receive · e.2 values)

/-- The values in front of the queue of ports are handed out once for each connection of a container
that leaves their port, in the order of the connections, each time to the port of the child where
the connection ends, which is still there whatever has been done with the values before. -/
def HandsOut (r : Root) (p : PortAddress) (values : List Value) (rest : List Emission)
    (m : Node) : Prop :=
  ∃ hands : List (Handle × String),
    List.Forall₂ (fun c e => m.child? c.target = some e.1 ∧ c.targetPort = e.2)
      (m.connections.filter fun c => c.source == p.path.last.text && c.sourcePort == p.id.text)
      hands ∧
    r.step? = some (hands.foldl (handTo values) { r with portQueue := rest }) ∧
    ∀ done e todo, hands = done ++ e :: todo →
      ∃ n, Reaches (done.foldl (handTo values) { r with portQueue := rest }) values e n

/-- A turn in which nothing is done leaves everything as it is. -/
lemma act_same {h : Handle} {n : Node} {f : Setting → Node → Turn → Node × Turn}
    (hn : r.units.get? h = some n) (hf : f (r.setting n.address) n r.turn = (n, r.turn)) :
    r.act h f = r := by
  have hlog : sendLog n.address r [] = r := by
    unfold sendLog
    split <;> rfl
  unfold act inTurn
  rw [hn]
  simp only [hf, Arena.set_same hn]
  exact hlog

/-- Values that are handed to a unit run through the handler of the port, if it is declared as an
input port. -/
lemma reaches (values : List Value) {e : Handle × String} {n : Node}
    (hn : r.units.get? e.1 = some n) : r.Reaches values e n := by
  refine ⟨hn, fun hinput => ?_, fun hother => act_same hn ?_, portQueue_act ..⟩
  · obtain ⟨handler, hhandler⟩ :=
      Option.isSome_iff_exists.mp ((n.iteration.isSome_handler? e.2).mpr hinput)
    refine ⟨handler, hhandler, ?_⟩
    unfold handTo act inTurn
    simp only [hn, Node.receive, Iteration.receive_eq, hhandler]
  · have hnone : n.iteration.handler? e.2 = none := by
      rw [← Option.not_isSome_iff_eq_none, n.iteration.isSome_handler? e.2]
      exact hother
    rw [Node.receive, Iteration.receive_eq, hnone]
    rfl

/-- Handing values to units leaves the tree alone. -/
lemma keeps_handTo (values : List Value) (hands : List (Handle × String)) (r : Root) :
    Keeps r (hands.foldl (handTo values) r) := by
  induction hands generalizing r with
  | nil => exact .refl r
  | cons e hands ih => exact (keeps_act r e.1 (.receive e.2 values)).trans (ih _)

/-- Mapping a list with a function that is defined on it relates each item to its image. -/
lemma forall₂_filterMap {α β : Type} {f : α → Option β} {R : α → β → Prop} {l : List α}
    (h : ∀ a ∈ l, ∃ b, f a = some b ∧ R a b) : List.Forall₂ R l (l.filterMap f) := by
  induction l with
  | nil => exact .nil
  | cons a l ih =>
    obtain ⟨b, hb, hab⟩ := h a List.mem_cons_self
    rw [List.filterMap_cons_some hb]
    exact .cons hab (ih fun a' ha' => h a' (List.mem_cons_of_mem _ ha'))

section Handing

variable {p : PortAddress} {values : List Value} {rest : List Emission} {h q : Handle} {n m : Node}

/-- An emission of a unit below a container is handed out over the connections of the container. -/
lemma IsTree.handsOut (hr : r.IsTree) (hports : r.portQueue = (p, values) :: rest)
    (hp : r.handle? p.path = some h) (hn : r.units.get? h = some n) (hq : n.parent = some q)
    (hm : r.units.get? q = some m) : r.HandsOut p values rest m := by
  have hunit : { r with portQueue := rest }.unit? p.path = some n :=
    (congrArg (Option.bind · r.units.get?) hp).trans hn
  have htargets : { r with portQueue := rest }.targetsOf p =
      (m.connections.filter fun c =>
        c.source == p.path.last.text && c.sourcePort == p.id.text).filterMap fun c =>
          (m.child? c.target).map fun k => (k, c.targetPort) := by
    unfold targetsOf
    rw [hunit]
    simp only [Option.bind_some, hq, hm]
  have hstep : r.step? = some (({ r with portQueue := rest }.targetsOf p).foldl (handTo values)
      { r with portQueue := rest }) := by
    unfold step?
    rw [hports]
    rfl
  rw [htargets] at hstep
  refine ⟨_, forall₂_filterMap fun c hc => ?_, hstep, fun done e todo hsplit => ?_⟩
  · obtain ⟨-, k, o, hk, -⟩ := hr.ends hm (List.mem_of_mem_filter hc)
    exact ⟨(k, c.targetPort), congrArg (Option.map _) hk, hk, rfl⟩
  · have hmem : e ∈ done ++ e :: todo := List.mem_append_right _ List.mem_cons_self
    rw [← hsplit] at hmem
    obtain ⟨c, hc, hmap⟩ := List.mem_filterMap.mp hmem
    obtain ⟨k, hk, rfl⟩ := Option.map_eq_some_iff.mp hmap
    obtain ⟨-, l, o, hl, ho⟩ := hr.ends hm (List.mem_of_mem_filter hc)
    cases hk.symm.trans hl
    -- The targets before this one have left the tree alone.
    have hkeeps := keeps_handTo values done { r with portQueue := rest }
    have hplace : { r with portQueue := rest }.skeleton.place k = some o.place :=
      place_skeleton (r := r) ho
    rw [← hkeeps.skeleton] at hplace
    obtain ⟨o', ho', -⟩ := exists_of_place hplace
    exact ⟨o', reaches values ho'⟩

/-- The last identifier of an address leads from the unit above to the unit. -/
lemma last_append (p : Path) (i : Id) : (p.append i).last = i := by
  simp [Path.last, Path.append]

/-- An emission that is in front of the queue of ports is handed out in the container of the unit at
which it was made; it is dropped if there is no such unit or the unit is in no container. -/
lemma IsTree.taken (hr : r.IsTree) (hports : r.portQueue = (p, values) :: rest) :
    (∀ h, r.handle? p.path = some h → ∃ n, r.units.get? h = some n ∧
      ((n.parent = none ∧ r.step? = some { r with portQueue := rest }) ∨
        ∃ q m, n.parent = some q ∧ r.units.get? q = some m ∧
          m.child? p.path.last.text = some h ∧ r.HandsOut p values rest m)) ∧
    (r.handle? p.path = none → r.step? = some { r with portQueue := rest }) := by
  have hdropped (hnone : ((r.unit? p.path).bind fun n => n.parent.bind r.units.get?) = none) :
      r.step? = some { r with portQueue := rest } := by
    unfold step?
    rw [hports]
    have htargets : { r with portQueue := rest }.targetsOf p = [] := by
      have hnone' : (({ r with portQueue := rest }.unit? p.path).bind fun n =>
          n.parent.bind r.units.get?) = none := hnone
      unfold targetsOf
      rw [hnone']
    simp only [deliver, htargets, List.foldl_nil]
  refine ⟨fun h hp => ?_, fun hp => hdropped (by rw [unit?, hp]; rfl)⟩
  obtain ⟨n, hn, haddress⟩ := exists_of_handle hr.skeleton.index hp
  refine ⟨n, hn, ?_⟩
  by_cases htop : h = r.top
  · obtain ⟨a, ha, -, hparent⟩ := hr.skeleton.top
    subst htop
    cases (place_skeleton hn).symm.trans ha
    refine .inl ⟨hparent, hdropped ?_⟩
    rw [unit?, hp, Option.bind_some, hn, Option.bind_some]
    exact congrArg (Option.bind · r.units.get?) hparent
  · obtain ⟨q, a, i, hparent, ha, hchild, hbelow⟩ :=
      hr.skeleton.parent h n.place (place_skeleton hn) htop
    obtain ⟨m, hm, rfl⟩ := exists_of_place ha
    have hlast : p.path.last = i := by
      rw [← haddress]
      exact (congrArg Path.last hbelow).trans (last_append ..)
    rw [hlast]
    exact .inr ⟨q, m, hparent, hm, hchild, hr.handsOut hports hp hn hparent hm⟩

end Handing

/-! ## The main theorem -/

/-- Emissions are handed out once and in order.  Every run of a root is a history, and so is what
the host does next and every pass within a budget, which counts the items of its history.  Along a
history what was queued, followed by what units emit, is what is taken up, followed by what is
queued in the end; when a call is served, all that was emitted before has been taken up.  What is
taken up next, at any moment, is handed out in the container of the unit at which it was emitted,
and dropped only if there is none. -/
theorem emissions_in_order (hr : Reachable r) :
    (∃ config catalog first events, Root.new config catalog = .ok first ∧ Flow first events r ∧
      Occurrence.emissions events = Occurrence.takenUps events ++ r.portQueue) ∧
    (∀ o : Operation, o.Admitted r → ∃ events, Flow r events (o.run r)) ∧
    (∀ budget, ∃ events, Flow r events (runFor budget 0 r).2 ∧
      (runFor budget 0 r).1 = Occurrence.items events) ∧
    ∀ events s, Flow r events s →
      r.portQueue ++ Occurrence.emissions events = Occurrence.takenUps events ++ s.portQueue ∧
      (∀ before c after, events = before ++ .served c :: after →
        r.portQueue ++ Occurrence.emissions before = Occurrence.takenUps before) ∧
      ∀ p values rest, s.portQueue = (p, values) :: rest →
        (∀ h, s.handle? p.path = some h → ∃ n, s.units.get? h = some n ∧
          ((n.parent = none ∧ s.step? = some { s with portQueue := rest }) ∨
            ∃ q m, n.parent = some q ∧ s.units.get? q = some m ∧
              m.child? p.path.last.text = some h ∧ s.HandsOut p values rest m)) ∧
        (s.handle? p.path = none → s.step? = some { s with portQueue := rest }) := by
  refine ⟨?_, fun o ho => exists_flow_run ho, fun budget => ?_, fun events s h => ⟨h.portQueue_eq,
    ?_, fun p values rest hports => (hr.isTree.later h.later).taken hports⟩⟩
  · obtain ⟨config, catalog, first, events, hfirst, hevents⟩ := hr.exists_flow
    refine ⟨config, catalog, first, events, hfirst, hevents, ?_⟩
    obtain ⟨address, -, rfl⟩ := new_eq_ok hfirst
    exact hevents.portQueue_eq
  · obtain ⟨events, hevents, hcount⟩ := exists_flow_runFor budget 0 r
    rw [Nat.zero_add] at hcount
    exact ⟨events, hevents, hcount⟩
  · rintro before c after rfl
    obtain ⟨u, hu, hports⟩ := h.exists_served
    have hall := hu.portQueue_eq
    rwa [hports, List.append_nil] at hall

/-- A lamp that passes on what it is switched to. -/
def switchedLamp : Behavior :=
  [.port "switch" (.input fun values => .emit "light" values (.done (.ok []))),
    .port "light" .output]

/-- A mirror that passes on what it is lit with. -/
def mirror : Behavior :=
  [.port "glass" (.input fun values => .emit "shine" values (.done (.ok []))),
    .port "shine" .output]

/-- The connection from a lamp to a mirror. -/
def mirrorBeam : Connection := ⟨"lamp", "light", "mirror", "glass"⟩

/-- The connection from a mirror to an eye. -/
def reflection : Connection := ⟨"mirror", "shine", "eye", "sight"⟩

/-- The path of the mirror. -/
def mirrorPath : Path := rootPath.append ⟨"mirror", by decide⟩

/-- A root with such a lamp, a mirror and an eye. -/
def darkened (r : Root) : Root :=
  (Operation.addChildWith rootPath "eye" "eye" eye).run
    ((Operation.addChildWith rootPath "mirror" "mirror" mirror).run
      ((Operation.addChildWith rootPath "lamp" "lamp" switchedLamp).run r))

/-- A root with beams from a lamp to an eye and a mirror, and from there to the eye. -/
def aligned (r : Root) : Root :=
  (Operation.connect rootPath beam).run
    ((Operation.connect rootPath mirrorBeam).run
      ((Operation.connect rootPath reflection).run (darkened r)))

/-- A root whose lamp has been switched on. -/
def switchedOn (r : Root) : Root :=
  (Operation.push ⟨lampPath, ⟨"switch", by decide⟩⟩ [.bool true]).run (aligned r)

/-- A new root can have its lamp switched on. -/
lemma reachable_switchedOn (hr : Root.new {} .base = .ok r) : Reachable (switchedOn r) := by
  have hlamp : Reachable ((Operation.addChildWith rootPath "lamp" "lamp" switchedLamp).run r) :=
    .operate (.new hr) trivial
  have hmirror : Reachable ((Operation.addChildWith rootPath "mirror" "mirror" mirror).run
      ((Operation.addChildWith rootPath "lamp" "lamp" switchedLamp).run r)) :=
    .operate hlamp trivial
  have hdarkened : Reachable (darkened r) := .operate hmirror trivial
  have hreflection : Reachable ((Operation.connect rootPath reflection).run (darkened r)) :=
    .operate hdarkened trivial
  have hmirrored : Reachable ((Operation.connect rootPath mirrorBeam).run
      ((Operation.connect rootPath reflection).run (darkened r))) :=
    .operate hreflection trivial
  have haligned : Reachable (aligned r) := .operate hmirrored trivial
  exact .operate haligned trivial

/-- The light of a lamp that has been switched on is handed to the eye and to the mirror, and what
the mirror emits meanwhile is queued. -/
theorem emissions_in_order_lamp :
    ∃ r, Root.new {} .base = .ok r ∧ Reachable (switchedOn r) ∧
      ∃ m, (switchedOn r).units.get? ⟨0, 0⟩ = some m ∧
        m.connections = [beam, mirrorBeam, reflection] ∧
        (switchedOn r).HandsOut ⟨lampPath, ⟨"light", by decide⟩⟩ [.bool true] [] m ∧
        ∃ s, (switchedOn r).step? = some s ∧
          s.portQueue = [(⟨mirrorPath, ⟨"shine", by decide⟩⟩, [.bool true])] := by
  obtain ⟨r, hr⟩ : ∃ r, Root.new {} .base = .ok r := ⟨_, rfl⟩
  have hreach := reachable_switchedOn hr
  have hports : (switchedOn r).portQueue =
      [(⟨lampPath, ⟨"light", by decide⟩⟩, [.bool true])] := by
    cases hr
    rfl
  have hhandle : (switchedOn r).handle? lampPath = some ⟨1, 0⟩ := by
    cases hr
    rfl
  have hparent : ((switchedOn r).units.get? ⟨1, 0⟩).bind Node.parent = some ⟨0, 0⟩ := by
    cases hr
    rfl
  have hconnections : ((switchedOn r).units.get? ⟨0, 0⟩).map Node.connections =
      some [beam, mirrorBeam, reflection] := by
    cases hr
    rfl
  have hqueued : (switchedOn r).step?.map Root.portQueue =
      some [(⟨mirrorPath, ⟨"shine", by decide⟩⟩, [.bool true])] := by
    cases hr
    rfl
  obtain ⟨-, -, -, hflow⟩ := emissions_in_order hreach
  obtain ⟨-, -, htaken⟩ := hflow [] _ .nothing
  obtain ⟨hfound, -⟩ := htaken _ _ _ hports
  obtain ⟨n, hn, hcases⟩ := hfound _ hhandle
  rw [hn, Option.bind_some] at hparent
  rcases hcases with ⟨hnone, -⟩ | ⟨q, m, hq, hm, -, hhands⟩
  · exact absurd (hparent.symm.trans hnone) (Option.some_ne_none _)
  · cases hparent.symm.trans hq
    rw [hm] at hconnections
    exact ⟨r, hr, hreach, m, hm, Option.some.inj hconnections, hhands,
      Option.map_eq_some_iff.mp hqueued⟩

end Root

end Switchboard
