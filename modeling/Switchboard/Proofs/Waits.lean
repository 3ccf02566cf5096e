import Mathlib
import Switchboard.Proofs.Delivery

/-!
# What the host waits for

`Root.desk` is the part of a root that its host has to do with: the requests that wait, the handles,
and the calls that were dispatched.  Chores leave it alone (`Chore.desk_eq`).  What the host does
for itself, apart from changing the state of a handle that it has, only adds to it: all that waited
before still waits, and what is new bears new numbers (`Root.StillWaits`).

So every operation comes down to three kinds of events: what waits goes on waiting, the call in
front of the queue is taken and served, or the host changes the state of one of its handles
(`Operation.preserve_waits`).
-/

namespace Switchboard

open Relation

/-! ## Calls that wait -/

/-- A call that is put among others is there with them. -/
lemma Scheduler.mem_insertCall {c d : Call} {calls : List Call} :
    d ∈ insertCall c calls ↔ d = c ∨ d ∈ calls := by
  obtain ⟨front, back, hsplit, hinsert, -, -⟩ := insertCall_split c calls
  rw [hinsert, hsplit, List.mem_append, List.mem_cons, List.mem_append]
  tauto

namespace Traffic

variable {t u : Traffic} {c d : Call}

/-- A call waits to be dispatched. -/
def Waiting (t : Traffic) (c : Call) : Prop := c ∈ t.queue ∨ c ∈ t.scheduler.calls

/-- A call that is sent waits with the others. -/
lemma waiting_send : (t.send c).Waiting d ↔ d = c ∨ t.Waiting d := by
  unfold send Waiting
  split
  · simp only [Scheduler.schedule, Scheduler.mem_insertCall]
    tauto
  · simp only [List.mem_append, List.mem_singleton]
    tauto

/-- Calls that are sent take nothing away, and dispatching is another matter. -/
lemma sendAll_keeps (t : Traffic) (cs : List Call) :
    (t.sendAll cs).ledger = t.ledger ∧
      (t.sendAll cs).history.dispatched = t.history.dispatched ∧
      ∀ d, t.Waiting d → (t.sendAll cs).Waiting d := by
  induction cs generalizing t with
  | nil => exact ⟨rfl, rfl, fun _ hd => hd⟩
  | cons c cs ih =>
    obtain ⟨hledger, hdispatched, hwaiting⟩ := ih (t.send c)
    have hsend : (t.send c).ledger = t.ledger ∧
        (t.send c).history.dispatched = t.history.dispatched := by
      unfold send
      split <;> exact ⟨rfl, rfl⟩
    exact ⟨hledger.trans hsend.1, hdispatched.trans hsend.2,
      fun d hd => hwaiting d (waiting_send.mpr (.inr hd))⟩

/-- Whatever happens to the traffic, a call that waited still waits or has been dispatched, and
numbers are not taken back. -/
lemma Steps.waiting (h : Steps t u) :
    t.ledger.nextId ≤ u.ledger.nextId ∧
      ∃ new, u.history.dispatched = new ++ t.history.dispatched ∧
        ∀ d, t.Waiting d → u.Waiting d ∨ d ∈ new.map Prod.fst := by
  induction h with
  | refl => exact ⟨le_refl _, [], rfl, fun d hd => .inl hd⟩
  | @tail u v _ hstep ih =>
    obtain ⟨hnext, new, hnew, hwaiting⟩ := ih
    cases hstep with
    | @exchange l cs hexchange =>
      obtain ⟨hledger, hdispatched, hkept⟩ := sendAll_keeps { u with ledger := l } cs
      refine ⟨?_, new, hdispatched.trans hnew, fun d hd => ?_⟩
      · rw [hledger]
        exact hnext.trans hexchange.1.nextId_le
      · exact (hwaiting d hd).imp_left (hkept d)
    | @take c rest hqueue =>
      refine ⟨hnext, (c, u.time) :: new, congrArg ((c, u.time) :: ·) hnew, fun d hd => ?_⟩
      rcases hwaiting d hd with (hd | hd) | hd
      · rw [hqueue] at hd
        rcases List.mem_cons.mp hd with rfl | hd
        · exact .inr List.mem_cons_self
        · exact .inl (.inl hd)
      · exact .inl (.inr hd)
      · exact .inr (List.mem_cons_of_mem _ hd)
    | @advance time _ =>
      refine ⟨hnext, new, hnew, fun d hd => ?_⟩
      rcases hwaiting d hd with (hd | hd) | hd
      · exact .inl (.inl (List.mem_append_left _ hd))
      · have hsplit := List.takeWhile_append_dropWhile (p := fun c : Call => isLatest time c.time)
          (l := u.scheduler.calls)
        rw [← hsplit] at hd
        rcases List.mem_append.mp hd with hd | hd
        · exact .inl (.inl (List.mem_append_right _ hd))
        · exact .inl (.inr hd)
      · exact .inr hd

end Traffic

/-- A handle that is changed as soon as it has been given out is one more handle. -/
lemma AsyncStore.update_create (s : AsyncStore) (f : Async → Async) :
    (s.create.2.update s.create.1 f).handles = s.handles ++ [f .fresh] := by
  unfold AsyncStore.update AsyncStore.create
  induction s.handles with
  | nil => rfl
  | cons a rest ih => exact congrArg (a :: ·) ih

namespace Root

variable {r s t : Root}

/-! ## The desk of the host -/

/-- What the host of a root has to do with. -/
structure Desk where
  address : Path
  requests : CallTable String
  callbacks : CallTable String
  handles : AsyncStore
  dispatched : List (Call × Int64)

/-- The desk of the host of a root. -/
def desk (r : Root) : Desk := ⟨r.address, r.requests, r.callbacks, r.handles, r.history.dispatched⟩

/-- What leaves the desk alone does so any number of times. -/
lemma desk_foldl {α : Type} {f : Root → α → Root} (hf : ∀ r a, (f r a).desk = r.desk)
    (l : List α) (r : Root) : (l.foldl f r).desk = r.desk := by
  induction l generalizing r with
  | nil => rfl
  | cons a l ih => exact (ih (f r a)).trans (hf r a)

/-- A call that is sent is not on the desk. -/
lemma desk_send (r : Root) (c : Call) : (r.send c).desk = r.desk := by
  unfold send
  split <;> rfl

/-- What is emitted is not on the desk. -/
lemma desk_emit (source : Path) (r : Root) (e : String × List Value) :
    (emit source r e).desk = r.desk := by
  unfold emit
  split <;> rfl

/-- Log lines are not on the desk. -/
lemma desk_sendLog (source : Path) (r : Root) (lines : List LogEntry) :
    (sendLog source r lines).desk = r.desk := by
  unfold sendLog
  split
  · rfl
  · split
    · rfl
    · exact desk_send ..

/-- What a unit has produced is not on the desk. -/
lemma desk_flush (source : Path) (r : Root) (o : Outbox) : (r.flush source o).desk = r.desk :=
  ((desk_sendLog ..).trans (desk_foldl (desk_emit source) ..)).trans (desk_foldl desk_send ..)

/-- A turn of a unit leaves the desk alone. -/
lemma desk_act (r : Root) (h : Handle) (f : Setting → Node → Turn → Node × Turn) :
    (r.act h f).desk = r.desk := by
  unfold act inTurn
  split
  · rfl
  · exact desk_flush ..

/-- Turns of units leave the desk alone. -/
lemma desk_actAll (r : Root) (hs : List Handle) (f : Setting → Node → Turn → Node × Turn) :
    (r.actAll hs f).desk = r.desk := desk_foldl (fun r h => desk_act r h f) hs r

/-- An answer that is sent is not on the desk. -/
lemma desk_sendAnswer (r : Root) (c : Call) (kind : CallKind) (args : List Value) :
    (r.sendAnswer c kind args).desk = r.desk := by
  unfold sendAnswer
  split
  · exact desk_send ..
  · rfl

/-- Starting leaves the desk alone. -/
lemma desk_start (r : Root) : r.start.2.desk = r.desk := by
  unfold start
  split
  · rfl
  · exact desk_actAll ..

/-- Stopping leaves the desk alone. -/
lemma desk_stop (r : Root) : r.stop.2.desk = r.desk := by
  unfold stop
  split
  · rfl
  · exact (desk_actAll ..).trans (desk_actAll ..)

/-- Adding a unit leaves the desk alone. -/
lemma desk_addUnit (r : Root) (parent : Path) (id typeName : String) (kind : NodeKind)
    (b : Behavior) : (r.addUnit parent id typeName kind b).2.desk = r.desk := by
  unfold addUnit
  split
  · rfl
  · exact desk_act ..

/-- Removing a unit and all units below it leaves the desk alone. -/
lemma desk_removeSubtree (fuel : ℕ) (h : Handle) (r : Root) :
    (removeSubtree fuel h r).desk = r.desk := by
  induction fuel generalizing h r with
  | zero => rfl
  | succ fuel ih =>
    unfold removeSubtree
    split
    · rfl
    · exact (desk_act ..).trans (desk_foldl (fun r (e : String × Handle) => ih e.2 r) ..)

/-- Removing a child leaves the desk alone. -/
lemma desk_removeChild (r : Root) (parent : Path) (id : String) :
    (r.removeChild parent id).2.desk = r.desk := by
  unfold removeChild
  split
  · rfl
  · simp only
    split
    · rfl
    · exact desk_removeSubtree ..

/-- Chores leave the desk alone. -/
lemma Chore.desk_eq (h : Chore r s) : s.desk = r.desk := by
  cases h with
  | turn h hk => exact desk_act ..
  | answer c hkind args => exact desk_sendAnswer ..
  | start => exact desk_start r
  | stop => exact desk_stop r
  | add parent id typeName hkind b => exact desk_addUnit ..
  | install h hi => exact desk_act ..
  | remove parent id => exact desk_removeChild ..
  | connect p c =>
    unfold Root.connect
    split <;> rfl
  | disconnect p c =>
    unfold Root.disconnect
    split
    · rfl
    · split <;> rfl
  | send hc => exact desk_send ..
  | more h => exact h.elim
  | _ => rfl

/-! ## What goes on waiting -/

/-- Nothing has happened to a table between two roots but that requests were entered, under numbers
given out meanwhile. -/
def Enters (r s : Root) (t u : CallTable String) : Prop :=
  ∃ new, u = { t with entries := new ++ t.entries } ∧ ∀ e ∈ new,
    (r.ledger.nextId ≤ e.1 ∧ e.1 < s.ledger.nextId) ∧
    ∀ id, e.2 = .handle id → r.handles.handles.length ≤ id ∧ id < s.handles.handles.length

/-- What waited for something at first still does so later, no call has been dispatched, and no
handle has changed. -/
structure StillWaits (r s : Root) : Prop where
  address : s.address = r.address
  dispatched : s.history.dispatched = r.history.dispatched
  nextId : r.ledger.nextId ≤ s.ledger.nextId
  handles : ∃ new, s.handles.handles = r.handles.handles ++ new
  requests : Enters r s r.requests s.requests
  callbacks : Enters r s r.callbacks s.callbacks
  waiting : ∀ c, r.traffic.Waiting c → s.traffic.Waiting c

/-- A table that has not changed. -/
lemma Enters.refl (r s : Root) (t : CallTable String) : Enters r s t t :=
  ⟨[], rfl, fun _ he => by contradiction⟩

/-- A request that was made now is entered in a table, for a callback or for a new handle. -/
lemma Enters.insert {t u : CallTable String} {target source : Endpoint} {time : Int64}
    {args : List Value} {k : Continuation String}
    (h : t.insert (r.ledger.request target source time args).1 k = .ok u)
    (hnext : r.ledger.nextId < s.ledger.nextId)
    (hk : (∃ tag, k = .callback tag) ∨ k = .handle r.handles.handles.length ∧
      r.handles.handles.length < s.handles.handles.length) : Enters r s t u := by
  unfold CallTable.insert at h
  split_ifs at h
  cases h
  refine ⟨[(r.ledger.nextId, k)], rfl, fun e he => ?_⟩
  rw [List.mem_singleton.mp he]
  refine ⟨⟨le_refl _, hnext⟩, fun id hid => ?_⟩
  rcases hk with ⟨tag, rfl⟩ | ⟨rfl, hlt⟩
  · contradiction
  · cases hid
    exact ⟨le_refl _, hlt⟩

namespace StillWaits

/-- The store of handles has not become smaller. -/
lemma length_le (h : StillWaits r s) : r.handles.handles.length ≤ s.handles.handles.length := by
  obtain ⟨new, hnew⟩ := h.handles
  rw [hnew, List.length_append]
  omega

/-- What leaves the desk alone and takes no number back. -/
lemma of_desk (hdesk : s.desk = r.desk) (hnext : r.ledger.nextId ≤ s.ledger.nextId)
    (hwaiting : ∀ c, r.traffic.Waiting c → s.traffic.Waiting c) : StillWaits r s := by
  obtain ⟨haddress, hrequests, hcallbacks, hhandles, hdispatched⟩ := Desk.mk.inj hdesk
  refine ⟨haddress, hdispatched, hnext, ⟨[], ?_⟩, ?_, ?_, hwaiting⟩
  · rw [hhandles, List.append_nil]
  · rw [hrequests]
    exact .refl r s _
  · rw [hcallbacks]
    exact .refl r s _

/-- Nothing at all has happened. -/
lemma refl (r : Root) : StillWaits r r := of_desk rfl (le_refl _) fun _ hc => hc

/-- What still waits later and then later still. -/
lemma trans (h : StillWaits r s) (h' : StillWaits s t) : StillWaits r t := by
  have henters {a b c : CallTable String} (hab : Enters r s a b) (hbc : Enters s t b c) :
      Enters r t a c := by
    obtain ⟨new, rfl, hnew⟩ := hab
    obtain ⟨new', rfl, hnew'⟩ := hbc
    refine ⟨new' ++ new, by rw [List.append_assoc], fun e he => ?_⟩
    rcases List.mem_append.mp he with he | he
    · obtain ⟨⟨hlo, hhi⟩, hid⟩ := hnew' e he
      exact ⟨⟨h.nextId.trans hlo, hhi⟩, fun id hk => (hid id hk).imp_left h.length_le.trans⟩
    · obtain ⟨⟨hlo, hhi⟩, hid⟩ := hnew e he
      exact ⟨⟨hlo, hhi.trans_le h'.nextId⟩,
        fun id hk => (hid id hk).imp_right fun hlt => hlt.trans_le h'.length_le⟩
  refine ⟨h'.address.trans h.address, h'.dispatched.trans h.dispatched, h.nextId.trans h'.nextId,
    ?_, henters h.requests h'.requests, henters h.callbacks h'.callbacks,
    fun c hc => h'.waiting c (h.waiting c hc)⟩
  obtain ⟨new, hnew⟩ := h.handles
  obtain ⟨new', hnew'⟩ := h'.handles
  exact ⟨new ++ new', by rw [hnew', hnew, List.append_assoc]⟩

/-- A deed that leaves the desk alone leaves waiting what waits. -/
lemma deed (h : Deed r s) (hdesk : s.desk = r.desk) : StillWaits r s := by
  obtain ⟨hnext, new, hnew, hwaiting⟩ := (Deed.move h).changes.traffic_steps.waiting
  -- Since no call was dispatched, every call that waited does so still.
  have hnone : new = [] :=
    List.self_eq_append_left.mp ((Desk.mk.inj hdesk).2.2.2.2.symm.trans hnew)
  subst hnone
  exact of_desk hdesk hnext fun c hc => (hwaiting c hc).resolve_right (by simp)

/-- Chores leave waiting what waits. -/
lemma chores (h : Chores r s) : StillWaits r s := by
  induction h with
  | refl => exact refl r
  | tail _ hlast ih => exact ih.trans (deed (Chore.deed hlast) (Chore.desk_eq hlast))

/-- Handing on what was emitted makes nobody stop waiting. -/
lemma handOn {p : PortAddress} {values : List Value} {rest : List (PortAddress × List Value)}
    (h : r.portQueue = (p, values) :: rest) :
    StillWaits r ({ r with portQueue := rest }.deliver p values) :=
  (deed (.more (.takeEmission h)) rfl).trans (chores (chores_deliver ..))

/-- A call that is sent makes nobody stop waiting. -/
lemma send (r : Root) (c : Call) : StillWaits r (r.send c) := by
  have htraffic := traffic_send r c
  refine of_desk (desk_send r c) (le_of_eq ?_) fun d hd => ?_
  · unfold Root.send
    split <;> rfl
  · rw [htraffic]
    exact Traffic.waiting_send.mpr (.inr hd)

/-- An answer that the host keeps makes nobody stop waiting. -/
lemma keepAnswer (r : Root) (c : Call) (kind : CallKind) (args : List Value) :
    StillWaits r (Operation.keepAnswer r c kind args) := by
  unfold Operation.keepAnswer
  match h : r.ledger.answer c kind args with
  | .error e => exact refl r
  | .ok (a, l) =>
    obtain ⟨-, -, -, rfl⟩ := Ledger.answer_eq_ok h
    exact of_desk rfl (le_refl _) fun _ hd => hd

/-- Nobody stops waiting when a request is entered. -/
lemma enter {target : Endpoint} {args : List Value} (h : Enter r target args s) :
    StillWaits r s := by
  have hnext : r.ledger.nextId < (r.makeRequest target args).2.ledger.nextId :=
    Nat.lt_succ_self _
  have hnew : r.handles.handles.length < r.handles.create.2.handles.length := by
    simp [AsyncStore.create]
  cases h with
  | handle h =>
    exact ⟨rfl, rfl, hnext.le, ⟨_, rfl⟩, .insert h hnext (.inr ⟨rfl, hnew⟩), .refl _ _ _,
      fun _ hc => hc⟩
  | keptHandle h =>
    exact ⟨rfl, rfl, hnext.le, ⟨_, rfl⟩, .refl _ _ _, .insert h hnext (.inr ⟨rfl, hnew⟩),
      fun _ hc => hc⟩
  | callback h =>
    exact ⟨rfl, rfl, hnext.le, ⟨[], (List.append_nil _).symm⟩, .refl _ _ _,
      .insert h hnext (.inl ⟨_, rfl⟩), fun _ hc => hc⟩
  | failed f =>
    exact ⟨rfl, rfl, hnext.le, ⟨_, AsyncStore.update_create _ _⟩, .refl _ _ _, .refl _ _ _,
      fun _ hc => hc⟩
  | nothing => exact of_desk rfl hnext.le fun _ hc => hc

/-- Nobody stops waiting when the host asks for something. -/
lemma asks (h : Asks r t) : StillWaits r t := by
  obtain ⟨target, args, s, henter, hchores⟩ := h
  exact (enter henter).trans (chores hchores)

end StillWaits

end Root

/-! ## Operations -/

namespace Operation

open Root

section Induction

variable {P : Root → Prop} (hwaits : ∀ r s, StillWaits r s → P r → P s)
  (hserve : ∀ r c rest, r.queue = c :: rest → P r → P ((r.take c rest).dispatch c))

include hwaits hserve in
/-- What is kept while whoever waits goes on waiting, and whenever a call is served, is kept in
rounds. -/
lemma preserve_rounds {r s : Root} (h : Rounds r s) (hr : P r) : P s := by
  induction h with
  | refl => exact hr
  | tail _ hlast ih =>
    cases hlast with
    | chore hchore => exact hwaits _ _ (.chores (.single hchore)) ih
    | handOn hports => exact hwaits _ _ (.handOn hports) ih
    | serve _ hqueue => exact hserve _ _ _ hqueue ih
    | advance htick => exact hwaits _ _ (.deed (.more (.advance htick)) rfl) ih

include hwaits hserve in
/-- What is kept while whoever waits goes on waiting, whenever a call is served, and when the host
changes the state of the handle that an operation names, is kept by the operation. -/
lemma preserve_waits {r : Root} {o : Operation}
    (htouch : ∀ id f, o.handle? = some id → P { r with handles := r.handles.update id f })
    (hr : P r) : P (o.run r) := by
  have hdoes := o.does r
  generalize o.run r = s at hdoes ⊢
  cases hdoes with
  | chores h => exact hwaits _ _ (.chores h) hr
  | rounds h => exact preserve_rounds hwaits hserve h hr
  | asks h => exact hwaits _ _ (.asks h) hr
  | send c => exact hwaits _ _ (.send r c) hr
  | keepAnswer c _ args => exact hwaits _ _ (.keepAnswer ..) hr
  | touch id f h => exact htouch id f h

end Induction

end Operation

end Switchboard
