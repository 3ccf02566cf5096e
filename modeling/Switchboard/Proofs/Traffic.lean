import Mathlib
import Switchboard.Proofs.Operations

/-!
# Calls under way

`Root.traffic` is the part of a root that has to do with calls: the clock, the queue, the scheduler,
the ledger and the history.  Whatever a root does, its traffic makes steps of three kinds
(`Traffic.Step`): some calls are exchanged, the call in front of the queue is taken, or the clock
advances and releases the calls that are due.  In an exchange the answers among the calls that are
sent are those that were made meanwhile, and each is sent once.
-/

namespace Switchboard

open Relation

/-! ## Ledgers -/

/-- A step of a ledger. -/
inductive Ledger.Step (l : Ledger) : Ledger → Prop
  | request (target source : Endpoint) (time : Int64) (args : List Value) :
      Step l (l.request target source time args).2
  | quiet (target : Endpoint) (source : Option Endpoint) (time : Int64) (args : List Value) :
      Step l (l.quiet target source time args).2
  | answer {c a : Call} {kind : CallKind} {args : List Value} {m : Ledger}
      (hkind : kind = .reply ∨ kind = .error) (h : l.answer c kind args = .ok (a, m)) : Step l m

/-- Steps of a ledger, one after the other. -/
def Ledger.Steps : Ledger → Ledger → Prop := ReflTransGen Ledger.Step

/-- Steps of a ledger take no number back. -/
lemma Ledger.Steps.nextId_le {l m : Ledger} (h : Ledger.Steps l m) : l.nextId ≤ m.nextId := by
  induction h with
  | refl => exact le_refl _
  | tail _ hlast ih =>
    cases hlast with
    | request target source time args => exact ih.trans (Nat.le_succ _)
    | quiet target source time args => exact ih.trans (Nat.le_succ _)
    | answer hkind hanswer =>
      obtain ⟨-, -, -, rfl⟩ := Ledger.answer_eq_ok hanswer
      exact ih

/-- Between two ledgers some calls are exchanged: the ledger makes steps, and the answers among the
calls are those made meanwhile. -/
def Exchange (l l' : Ledger) (cs : List Call) : Prop :=
  Ledger.Steps l l' ∧ ∃ as : List (Call × Call),
    l'.answers = as ++ l.answers ∧ as.map Prod.snd = (cs.filter Call.isResponse).reverse

namespace Exchange

variable {l l' l'' : Ledger} {cs cs' : List Call}

/-- Nothing is exchanged. -/
lemma refl (l : Ledger) : Exchange l l [] := ⟨ReflTransGen.refl, [], rfl, rfl⟩

/-- One exchange after another. -/
lemma trans (h : Exchange l l' cs) (h' : Exchange l' l'' cs') : Exchange l l'' (cs ++ cs') := by
  obtain ⟨hsteps, as, has, hcs⟩ := h
  obtain ⟨hsteps', as', has', hcs'⟩ := h'
  refine ⟨hsteps.trans hsteps', as' ++ as, ?_, ?_⟩
  · rw [has', has, List.append_assoc]
  · rw [List.map_append, hcs, hcs', List.filter_append, List.reverse_append]

/-- A request is made, whether it is sent or not. -/
lemma request (l : Ledger) (target source : Endpoint) (time : Int64) (args : List Value)
    (hcs : ∀ c ∈ cs, c.isResponse = false) :
    Exchange l (l.request target source time args).2 cs := by
  refine ⟨ReflTransGen.single (.request ..), [], rfl, ?_⟩
  rw [List.filter_eq_nil_iff.mpr fun c hc => by simp [hcs c hc]]
  rfl

/-- A quiet request is made, whether it is sent or not. -/
lemma quiet (l : Ledger) (target : Endpoint) (source : Option Endpoint) (time : Int64)
    (args : List Value) (hcs : ∀ c ∈ cs, c.isResponse = false) :
    Exchange l (l.quiet target source time args).2 cs := by
  refine ⟨ReflTransGen.single (.quiet ..), [], rfl, ?_⟩
  rw [List.filter_eq_nil_iff.mpr fun c hc => by simp [hcs c hc]]
  rfl

/-- A call that is no answer is sent. -/
lemma send (l : Ledger) {c : Call} (hc : c.isResponse = false) : Exchange l l [c] := by
  refine ⟨ReflTransGen.refl, [], rfl, ?_⟩
  simp [hc]

/-- A request is answered and the answer is sent. -/
lemma answer {c a : Call} {kind : CallKind} {args : List Value}
    (hkind : kind = .reply ∨ kind = .error) (h : l.answer c kind args = .ok (a, l')) :
    Exchange l l' [a] := by
  obtain ⟨-, -, ⟨back, -, ha⟩, hl⟩ := Ledger.answer_eq_ok h
  refine ⟨ReflTransGen.single (.answer hkind h), [(c, a)], by rw [hl]; rfl, ?_⟩
  have hresponse : a.isResponse = true := by
    rw [ha]
    rcases hkind with rfl | rfl <;> rfl
  simp [hresponse]

end Exchange

/-- In a step of a turn the calls that are sent are exchanged. -/
lemma Turn.Step.exchange {t u : Turn} (h : Turn.Step t u) :
    ∃ cs, u.outbox.calls = t.outbox.calls ++ cs ∧ Exchange t.ledger u.ledger cs := by
  cases h with
  | request target source time args =>
    refine ⟨[_], rfl, .request t.ledger target source time args fun c hc => ?_⟩
    rw [List.mem_singleton.mp hc]
    rfl
  | quiet target source time args =>
    refine ⟨[_], rfl, .quiet t.ledger target source time args fun c hc => ?_⟩
    rw [List.mem_singleton.mp hc]
    rfl
  | answer hkind hanswer =>
    obtain ⟨a, l, hl, rfl⟩ := Turn.answer_eq_ok hanswer
    exact ⟨[a], rfl, .answer hkind hl⟩
  | produce hledger hcalls _ =>
    refine ⟨[], by simp [hcalls], ?_⟩
    rw [hledger]
    exact .refl _

/-- In a turn the calls that are sent are exchanged; entries in the chronicle change nothing of
that. -/
lemma Turn.Course.exchange {t u : Turn} (h : Turn.Course t u) :
    ∃ cs, u.outbox.calls = t.outbox.calls ++ cs ∧ Exchange t.ledger u.ledger cs := by
  induction h with
  | refl => exact ⟨[], by simp, .refl _⟩
  | tail _ hlast ih =>
    obtain hstep | ⟨f, rfl⟩ := hlast
    · obtain ⟨cs, hcs, hexchange⟩ := ih
      obtain ⟨ds, hds, hexchange'⟩ := hstep.exchange
      exact ⟨cs ++ ds, by rw [hds, hcs, List.append_assoc], hexchange.trans hexchange'⟩
    · exact ih

/-! ## Traffic -/

/-- What a root has to do with calls. -/
structure Traffic where
  time : Int64
  queue : List Call
  scheduler : Scheduler
  ledger : Ledger
  history : History

namespace Traffic

/-- The traffic with a call that is sent. -/
def send (t : Traffic) (c : Call) : Traffic :=
  let history := { t.history with posted := c :: t.history.posted }
  if isAfter c.time t.time then
    { t with scheduler := t.scheduler.schedule c, history := history }
  else { t with queue := t.queue ++ [c], history := history }

/-- The traffic with calls that are sent, one after the other. -/
def sendAll (t : Traffic) (cs : List Call) : Traffic := cs.foldl send t

/-- The traffic without the call that was in front of the queue. -/
def take (t : Traffic) (c : Call) (rest : List Call) : Traffic :=
  { t with
    queue := rest
    history := { t.history with dispatched := (c, t.time) :: t.history.dispatched } }

/-- The traffic at another time of the clock. -/
def advance (t : Traffic) (time : Int64) : Traffic :=
  { t with
    time := time
    queue := t.queue ++ (t.scheduler.release time).1
    scheduler := (t.scheduler.release time).2
    history := { t.history with times := time :: t.history.times } }

/-- A step of the traffic. -/
inductive Step (t : Traffic) : Traffic → Prop
  | exchange {l : Ledger} {cs : List Call} (h : Exchange t.ledger l cs) :
      Step t ({ t with ledger := l }.sendAll cs)
  | take {c : Call} {rest : List Call} (h : t.queue = c :: rest) : Step t (t.take c rest)
  | advance {time : Int64} (h : isAfter time t.time = true) : Step t (t.advance time)

/-- Steps of the traffic, one after the other. -/
def Steps : Traffic → Traffic → Prop := ReflTransGen Step

/-- No step at all. -/
lemma Steps.refl (t : Traffic) : Steps t t := ReflTransGen.refl

/-- Steps after steps. -/
lemma Steps.trans {t u v : Traffic} (h : Steps t u) (h' : Steps u v) : Steps t v :=
  ReflTransGen.trans h h'

/-- One step. -/
lemma Steps.single {t u : Traffic} (h : Step t u) : Steps t u := ReflTransGen.single h

/-- Calls that are exchanged. -/
lemma Steps.exchange {t : Traffic} {l : Ledger} {cs : List Call} (h : Exchange t.ledger l cs) :
    Steps t ({ t with ledger := l }.sendAll cs) := single (.exchange h)

/-- Nothing is sent, but the ledger has made steps. -/
lemma Steps.ledger {t : Traffic} {l : Ledger} (h : Exchange t.ledger l []) :
    Steps t { t with ledger := l } := exchange h

end Traffic

namespace Root

/-- The traffic of a root. -/
def traffic (r : Root) : Traffic := ⟨r.time, r.queue, r.scheduler, r.ledger, r.history⟩

/-- Sending a call is a matter of the traffic. -/
lemma traffic_send (r : Root) (c : Call) : (r.send c).traffic = r.traffic.send c := by
  unfold send Traffic.send
  have htime : r.traffic.time = r.time := rfl
  rw [htime]
  split <;> rfl

/-- Sending calls is a matter of the traffic. -/
lemma traffic_foldl_send (cs : List Call) (r : Root) :
    (cs.foldl send r).traffic = r.traffic.sendAll cs := by
  induction cs generalizing r with
  | nil => rfl
  | cons c cs ih =>
    rw [List.foldl_cons, ih, traffic_send]
    rfl

/-- Emissions are no traffic. -/
lemma traffic_foldl_emit (source : Path) (es : List (String × List Value)) (r : Root) :
    (es.foldl (emit source) r).traffic = r.traffic := by
  induction es generalizing r with
  | nil => rfl
  | cons e es ih =>
    rw [List.foldl_cons, ih]
    unfold emit
    split <;> rfl

/-- Sending a call that is no answer. -/
lemma steps_send (r : Root) {c : Call} (hc : c.isResponse = false) :
    Traffic.Steps r.traffic (r.send c).traffic := by
  rw [traffic_send]
  have hexchange : Exchange r.traffic.ledger r.traffic.ledger [c] := .send _ hc
  exact .exchange hexchange

/-- Sending the log lines of a unit. -/
lemma steps_sendLog (source : Path) (r : Root) (lines : List LogEntry) :
    Traffic.Steps r.traffic (sendLog source r lines).traffic := by
  unfold sendLog
  split
  · exact .refl _
  · split
    · exact .refl _
    · rename_i destination _ _
      rcases h : r.ledger.quiet destination none r.time
        [.ofPath source, .list (lines.map LogEntry.value)] with ⟨c, l⟩
      have hquiet : Exchange r.ledger (r.ledger.quiet destination none r.time
          [.ofPath source, .list (lines.map LogEntry.value)]).2 [] :=
        .quiet r.ledger destination none r.time _ fun c hc => by contradiction
      have hc : c.isResponse = false := by
        cases h
        rfl
      rw [h] at hquiet
      have hledger : Traffic.Steps r.traffic { r with ledger := l }.traffic := .ledger hquiet
      exact hledger.trans (steps_send { r with ledger := l } hc)

/-- Sending what a unit has produced. -/
lemma steps_flush (source : Path) (r : Root) (o : Outbox) :
    Traffic.Steps (r.traffic.sendAll o.calls) (r.flush source o).traffic := by
  have hlog := steps_sendLog source (o.emissions.foldl (emit source) (o.calls.foldl send r)) o.log
  rw [traffic_foldl_emit, traffic_foldl_send] at hlog
  exact hlog

/-- A turn of a unit. -/
lemma steps_act (r : Root) (h : Handle) (k : Task) :
    Traffic.Steps r.traffic (r.act h k.run).traffic := by
  unfold act inTurn
  cases hn : r.units.get? h with
  | none => exact .refl _
  | some n =>
    obtain ⟨cs, hcs, hexchange⟩ :=
      (Turn.hookRule_course.task k (r.setting n.address) n r.turn).exchange
    simp only [turn, List.nil_append] at hcs
    have hflush := steps_flush n.address
      { r with
        units := r.units.set h (k.run (r.setting n.address) n r.turn).1
        ledger := (k.run (r.setting n.address) n r.turn).2.ledger
        journal := (k.run (r.setting n.address) n r.turn).2.journal
        chronicle := (k.run (r.setting n.address) n r.turn).2.chronicle }
      (k.run (r.setting n.address) n r.turn).2.outbox
    unfold turn at hflush
    rw [hcs] at hflush
    exact (Traffic.Steps.exchange hexchange).trans hflush

/-- Sending an answer. -/
lemma steps_sendAnswer (r : Root) (c : Call) {kind : CallKind}
    (hkind : kind = .reply ∨ kind = .error) (args : List Value) :
    Traffic.Steps r.traffic (r.sendAnswer c kind args).traffic := by
  unfold sendAnswer
  match h : r.ledger.answer c kind args with
  | .error e => exact .refl _
  | .ok (a, l) =>
    simp only [traffic_send]
    exact .exchange (.answer hkind h)

/-- Taking a unit out of the tree. -/
lemma steps_dropNode (r : Root) (h : Handle) :
    Traffic.Steps r.traffic (r.dropNode h).traffic := steps_act r h .dispose

/-- Removing a unit and all units below it. -/
lemma steps_removeSubtree (fuel : ℕ) (h : Handle) (r : Root) :
    Traffic.Steps r.traffic (removeSubtree fuel h r).traffic := by
  induction fuel generalizing h r with
  | zero => exact .refl _
  | succ fuel ih =>
    unfold removeSubtree
    cases r.units.get? h with
    | none => exact .refl _
    | some n =>
      have hchildren : ∀ (es : Named Handle) (r : Root), Traffic.Steps r.traffic
          (es.foldl (fun r e => removeSubtree fuel e.2 r) r).traffic := by
        intro es
        induction es with
        | nil => exact fun r => .refl _
        | cons e es ihes => exact fun r => (ih e.2 r).trans (ihes _)
      exact (hchildren n.children r).trans (steps_dropNode _ h)

/-- Removing a child. -/
lemma steps_removeChild (r : Root) (parent : Path) (id : String) :
    Traffic.Steps r.traffic (r.removeChild parent id).2.traffic := by
  unfold removeChild
  split
  · exact .refl _
  · rename_i h _
    have hsteps := fun fuel c => steps_removeSubtree fuel c
      { r with units := r.units.modify h fun n => n.removeChild id }
    simp only
    split
    · exact .refl _
    · exact hsteps _ _

/-- Making a connection is no traffic. -/
lemma traffic_connect (r : Root) (p : Path) (c : Connection) :
    (r.connect p c).2.traffic = r.traffic := by
  unfold connect
  split <;> rfl

/-- Removing a connection is no traffic. -/
lemma traffic_disconnect (r : Root) (p : Path) (c : Connection) :
    (r.disconnect p c).2.traffic = r.traffic := by
  unfold disconnect
  split
  · rfl
  · split <;> rfl

/-- Adding a unit does not change the time. -/
lemma time_attach (c : Clock Handle) (h : Handle) : (c.attach h).time = c.time := by
  unfold Clock.attach
  split <;> rfl

/-- Whatever a root does, its traffic makes steps. -/
theorem Change.traffic_steps {r s : Root} (h : Change r s) :
    Traffic.Steps r.traffic s.traffic := by
  cases h with
  | turn h k => exact steps_act r h k
  | answer c hkind args => exact steps_sendAnswer r c hkind args
  | @activity a clock h =>
    have htraffic : { r with clock := clock }.traffic = r.traffic := by
      unfold Root.traffic Root.time
      rw [Clock.become?_eq_some h]
    rw [htraffic]
    exact .refl _
  | @insert parent address id b h i hcheck kind hkind typeName =>
    have htraffic : (r.insertNode h id
        ⟨address, some h, kind, typeName, .empty, false, [], [], []⟩).2.traffic = r.traffic := by
      unfold insertNode Root.traffic Root.time
      simp only [time_attach]
    rw [htraffic]
    exact .refl _
  | enlist i => exact .refl _
  | remove parent id => exact steps_removeChild r parent id
  | connect p c =>
    rw [traffic_connect]
    exact .refl _
  | disconnect p c =>
    rw [traffic_disconnect]
    exact .refl _
  | touch h hf => exact .refl _
  | books => exact .refl _
  | request target source time args =>
    exact .ledger (.request r.ledger target source time args fun c hc => by contradiction)
  | quiet target source time args =>
    exact .ledger (.quiet r.ledger target source time args fun c hc => by contradiction)
  | send hc => exact steps_send r hc
  | take h => exact .single (.take h)
  | takeEmission h => exact .refl _
  | @advance time clock h =>
    obtain ⟨rfl, hafter⟩ := Clock.tick?_eq_some h
    exact .single (.advance hafter)

/-- Changes are steps of the traffic. -/
lemma Changes.traffic_steps {r s : Root} (h : Changes r s) :
    Traffic.Steps r.traffic s.traffic := by
  induction h with
  | refl => exact .refl _
  | tail _ hlast ih => exact ih.trans hlast.traffic_steps

end Root

end Switchboard
