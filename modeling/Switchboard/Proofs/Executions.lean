import Mathlib
import Switchboard.Proofs.ScriptHistories
import Switchboard.Proofs.Tables

/-!
# Executors keep their books

`Kept` is the invariant of a script executor.  Its books are kept (`ScriptHistory.Books`), and each
caller either has no script that is pending or has one that is suspended on an outstanding request.
It holds from event to event: a call brings a script (`Kept.eval`), an answer arrives
(`Kept.receive`), the scripts of one caller are given up (`Kept.clear`).  When all are given up, as
when the executor is disposed of, nothing is left pending (`Kept.clearAll`).

The proofs follow the loop that runs what can run of a caller.  The script in front is advanced
(`advance_suspends`, `advance_ends`), then those behind it one after the other (`drain_books`).
-/

namespace Switchboard

/-- An answer that is sent has been admitted by the ledger. -/
lemma Turn.answer_of_ledger {t : Turn} {c a : Call} {kind : CallKind} {args : List Value}
    {m : Ledger} (h : t.ledger.answer c kind args = .ok (a, m)) :
    t.answer c kind args = .ok ({ t with ledger := m }.send a) := by
  unfold Turn.answer
  rw [h]
  rfl

namespace Turn

/-- A turn in which a call is answered, where this is admitted. -/
def settle (t : Turn) (c : Call) (kind : CallKind) (args : List Value) : Turn :=
  match t.answer c kind args with
  | .ok t => t
  | .error _ => t

/-- A call is answered where this is admitted. -/
lemma settle_of_answer {t : Turn} {c a : Call} {kind : CallKind} {args : List Value} {m : Ledger}
    (h : t.ledger.answer c kind args = .ok (a, m)) :
    t.settle c kind args = { t with ledger := m }.send a := by
  unfold settle
  rw [answer_of_ledger h]

/-- A call is answered or not. -/
lemma settle_cases (t : Turn) (c : Call) (kind : CallKind) (args : List Value) :
    t.settle c kind args = t ∨ ∃ a m, t.ledger.answer c kind args = .ok (a, m) ∧
      t.settle c kind args = { t with ledger := m }.send a := by
  cases h : t.ledger.answer c kind args with
  | error e =>
    left
    simp [settle, answer, h, Except.map]
  | ok made => exact .inr ⟨made.1, made.2, rfl, settle_of_answer h⟩

end Turn

namespace ScriptHistory

/-- How a history goes on while no script is handed an answer. -/
def Grows (H H' : List ScriptEvent) : Prop :=
  ∃ K, H' = H ++ K ∧ ∀ d a, ⟨d, .resumed a⟩ ∉ K

variable {H H' H'' : List ScriptEvent} {c : Call} {id : ℕ}

/-- Nothing happens. -/
lemma Grows.refl (H : List ScriptEvent) : Grows H H := ⟨[], by simp, by simp⟩

/-- Something happens to a script. -/
lemma Grows.snoc (H : List ScriptEvent) (c : Call) {fate : ScriptFate}
    (h : ∀ a, fate ≠ .resumed a) : Grows H (H ++ [⟨c, fate⟩]) := by
  refine ⟨_, rfl, ?_⟩
  intro d a hmem
  rw [List.mem_singleton] at hmem
  exact h a (congrArg ScriptEvent.fate hmem).symm

/-- More happens. -/
lemma Grows.trans (h : Grows H H') (h' : Grows H' H'') : Grows H H'' := by
  obtain ⟨K, rfl, hK⟩ := h
  obtain ⟨L, rfl, hL⟩ := h'
  refine ⟨K ++ L, List.append_assoc .., ?_⟩
  intro d a hmem
  rcases List.mem_append.mp hmem with hmem | hmem
  · exact hK d a hmem
  · exact hL d a hmem

/-- What is outstanding stays so until an answer of its number arrives. -/
lemma Outstanding.append (h : Outstanding H c id) {K : List ScriptEvent}
    (hK : ∀ d a, ⟨d, .resumed a⟩ ∈ K → a.matchId ≠ id) : Outstanding (H ++ K) c id := by
  obtain ⟨⟨r, hr, hid⟩, hnone⟩ := h
  refine ⟨⟨r, hr.append K, hid⟩, ?_⟩
  intro d a hmem
  rcases List.mem_append.mp hmem with hmem | hmem
  · exact hnone d a hmem
  · exact hK d a hmem

/-- What is outstanding stays so while no script is handed an answer. -/
lemma Outstanding.grows (h : Outstanding H c id) (hgrows : Grows H H') : Outstanding H' c id := by
  obtain ⟨K, rfl, hK⟩ := hgrows
  exact h.append fun d a hmem => absurd hmem (hK d a)

end ScriptHistory

open ScriptHistory
open ScriptExecutor (callerKey)

/-- Whether a call says that the script of another one has been given up. -/
structure Call.Cancels (a c : Call) : Prop where
  answers : a.Answers c
  kind : a.kind = .error
  args : a.args = [.fault (.cancelled "script cleared")]

/-! ## Scripts that were started -/

/-- Whether a script that was started may run: where it waits, it does so for a request of its that
is outstanding. -/
structure RunningJob.Ready (H : List ScriptEvent) (job : RunningJob) : Prop where
  sound : job.stack.Sound
  outstanding : ∀ id, job.stack.awaiting = some id → Outstanding H job.call id

/-- Whether a script that was started waits for a request of its that is outstanding. -/
structure RunningJob.Suspended (H : List ScriptEvent) (job : RunningJob) : Prop where
  sound : job.stack.Sound
  waits : ∃ id, job.stack.awaiting = some id ∧ Outstanding H job.call id

/-- Whether a caller has no script that could run. -/
structure CallerContext.Resting (H : List ScriptEvent) (context : CallerContext) : Prop where
  idle : context.running = none → context.queue = []
  suspended : ∀ job, context.running = some job → job.Suspended H

variable {H H' : List ScriptEvent} {job : RunningJob} {context : CallerContext}

/-- A suspended script may run, though it does not get far. -/
lemma RunningJob.Suspended.ready (h : job.Suspended H) : job.Ready H where
  sound := h.sound
  outstanding := by
    intro id hid
    obtain ⟨waited, hwaited, houtstanding⟩ := h.waits
    rw [hwaited] at hid
    cases hid
    exact houtstanding

/-- A suspended script stays so while no script is handed an answer. -/
lemma RunningJob.Suspended.grows (h : job.Suspended H) (hgrows : Grows H H') :
    job.Suspended H' := by
  obtain ⟨id, hid, houtstanding⟩ := h.waits
  exact ⟨h.sound, id, hid, houtstanding.grows hgrows⟩

/-- A caller whose scripts rest goes on to rest while no script is handed an answer. -/
lemma CallerContext.Resting.grows (h : context.Resting H) (hgrows : Grows H H') :
    context.Resting H' :=
  ⟨h.idle, fun job hjob => (h.suspended job hjob).grows hgrows⟩

namespace ScriptExecutor

variable {s : Setting} {p p' : Progress} {pending : String → List Call} {rest : List Call}
  {t : Turn} {l : Ledger} {c : Call} {key : String} {x : ScriptExecutor}

/-! ## Answers -/

/-- The lines of a script that pass its threshold are written. -/
lemma writeLog_eq (s : Setting) (threshold : LogLevel) (lines : List (LogLevel × String))
    (t : Turn) :
    writeLog s threshold lines t = { t with outbox := { t.outbox with
      log := t.outbox.log ++
        (lines.filter fun l => l.1.passes threshold).map fun l => ⟨l.1, s.time, l.2⟩ } } := by
  unfold writeLog
  induction lines.filter fun l => l.1.passes threshold generalizing t with
  | nil => simp
  | cons line lines ih =>
    rw [List.foldl_cons, ih]
    simp [Turn.logAlways]

/-- Log lines have to do with neither the ledger nor the history. -/
lemma writeLog_frame (s : Setting) (threshold : LogLevel) (lines : List (LogLevel × String))
    (t : Turn) :
    (writeLog s threshold lines t).ledger = t.ledger ∧
      (writeLog s threshold lines t).scripts = t.scripts := by
  rw [writeLog_eq]
  exact ⟨rfl, rfl⟩

/-- How a call is answered whose script has ended. -/
def answerOf (ending : Ending) (result : List Value) : CallKind × List Value :=
  match ending with
  | .ok => (.reply, result)
  | .error => (.error, [.fault (.ofArgs result)])
  | .break => (.error, [.fault (.script "break or continue outside of a loop")])
  | .continue => (.error, [.fault (.script "break or continue outside of a loop")])

/-- A call that waits for an answer is given one, and the failure of another one is noted. -/
lemma conclude_eq (s : Setting) (c : Call) (ending : Ending) (result : List Value) (t : Turn) :
    conclude s c ending result t =
      if c.expectsReply = true then
        t.settle c (answerOf ending result).1 (answerOf ending result).2
      else if ending = .error then
        t.log s .error ("script failed: " ++ (Fault.ofArgs result).message)
      else t := by
  unfold conclude
  cases c.expectsReply with
  | false => rfl
  | true => cases ending <;> rfl

/-- The answer to a script is no event of its history. -/
lemma conclude_scripts (s : Setting) (c : Call) (ending : Ending) (result : List Value)
    (t : Turn) : (conclude s c ending result t).scripts = t.scripts := by
  rw [conclude_eq]
  split
  · rcases t.settle_cases c (answerOf ending result).1 (answerOf ending result).2 with
      heq | ⟨a, m, -, heq⟩
    · rw [heq]
    · rw [heq]
      rfl
  · split
    · unfold Turn.log
      split <;> rfl
    · rfl

/-- A script that has ended has its call answered. -/
lemma concluded_conclude (s : Setting) (ending : Ending) (result : List Value)
    (h : c.expectsReply = true → ∀ kind args, ∃ a m, t.ledger.answer c kind args = .ok (a, m)) :
    Concluded c t.ledger (conclude s c ending result t).ledger := by
  have hkind : (answerOf ending result).1 = .reply ∨ (answerOf ending result).1 = .error := by
    cases ending with
    | ok => exact .inl rfl
    | _ => exact .inr rfl
  rw [conclude_eq]
  unfold Concluded
  split
  · next hreply =>
    obtain ⟨a, m, hanswer⟩ := h hreply (answerOf ending result).1 (answerOf ending result).2
    refine ⟨(answerOf ending result).1, (answerOf ending result).2, a, hkind, ?_⟩
    rw [Turn.settle_of_answer hanswer]
    exact hanswer
  · split
    · unfold Turn.log
      split <;> rfl
    · rfl

/-! ## One script -/

/-- Frames that run leave a valid ledger. -/
lemma valid_run {site : Site} {fuel : ℕ} {stack stack' : FrameStack} {o : StackOutcome}
    {scopes : Scopes} {w : Workspace} (hl : l.Valid)
    (hrun : stack.run site fuel ⟨scopes, l, [], []⟩ = some (o, stack', w)) : w.ledger.Valid := by
  have hcourse := Turn.hookRule_course.runStack site fuel stack ⟨scopes, l, [], []⟩
    { ledger := l } hrun
  obtain ⟨_, _, hledger, _⟩ := hcourse.exchange
  exact hl.steps hledger

/-- A script that has run has sent requests, and where it waits it does so for an outstanding
one. -/
lemma run_books {o : StackOutcome} {stack : FrameStack} {w : Workspace}
    (h : Books pending l H) (hjob : pending (callerKey job.call) = job.call :: rest)
    (hready : job.Ready H) {scopes : Scopes}
    (hrun : job.stack.run (site s) FrameStack.stepLimit ⟨scopes, l, [], []⟩ = some (o, stack, w)) :
    Books pending w.ledger (H ++ [⟨job.call, .ran w.sent⟩]) ∧
      ∀ id, o = .suspended id →
        RunningJob.Suspended (H ++ [⟨job.call, .ran w.sent⟩]) { job with stack := stack } := by
  obtain ⟨hsound, -, hwaits, new, hsends, hnumbers⟩ := FrameStack.run_rests hready.sound hrun
  have hsent : w.sent = new := hsends.sent
  rw [hsent]
  refine ⟨h.ran hjob rfl hsends (valid_run h.valid hrun), ?_⟩
  intro id hid
  have hawaiting : stack.awaiting = some id := (hwaits id).mp hid
  have hsource : id ∈ job.stack.awaiting.toList ++ new.map Call.matchId := by
    rw [hnumbers, hawaiting]
    simp
  refine ⟨hsound, id, hawaiting, ?_⟩
  rcases List.mem_append.mp hsource with hbefore | hnew
  · exact (hready.outstanding id (Option.mem_toList.mp hbefore)).grows (.snoc H job.call (by simp))
  · obtain ⟨r, hr, hnumber⟩ := List.mem_map.mp hnew
    refine ⟨⟨r, ⟨new, by simp, hr⟩, hnumber⟩, ?_⟩
    intro d a hmem
    -- Numbers of answers that were handed over are older than those of new requests.
    have hold : a.matchId < l.nextId := by
      rcases List.mem_append.mp hmem with hmem | hmem
      · exact h.resumed d a hmem
      · simp at hmem
    have hrange : id ∈ List.range' l.nextId new.length := hsends.numbers ▸ hnew
    have hlater := (List.mem_range'_1.mp hrange).1
    omega

/-- A script that is advanced and goes on is suspended. -/
lemma advance_suspends {job' : RunningJob} (h : Books pending p.turn.ledger p.turn.scripts)
    (hjob : pending (callerKey job.call) = job.call :: rest) (hready : job.Ready p.turn.scripts)
    (hadvance : advance s job p = (some job', p'))
    (hrests : ∀ d, ⟨d, .stuck⟩ ∉ p'.turn.scripts) :
    Grows p.turn.scripts p'.turn.scripts ∧ Books pending p'.turn.ledger p'.turn.scripts ∧
      job'.call = job.call ∧ job'.Suspended p'.turn.scripts := by
  unfold advance at hadvance
  match hrun : job.stack.run (site s) FrameStack.stepLimit ⟨p.scopes, p.turn.ledger, [], []⟩ with
  | none =>
    rw [hrun] at hadvance
    cases hadvance
    exact absurd (by simp [Turn.script]) (hrests job.call)
  | some (.done ending result, stack, w) =>
    rw [hrun] at hadvance
    cases hadvance
  | some (.suspended id, stack, w) =>
    rw [hrun] at hadvance
    cases hadvance
    obtain ⟨hbooks, hsuspended⟩ := run_books h hjob hready hrun
    obtain ⟨hledger, hscripts⟩ := writeLog_frame s job.options.threshold w.log
      (({ p.turn with ledger := w.ledger }.sendAll w.sent).script job.call (.ran w.sent))
    simp only
    rw [hledger, hscripts]
    exact ⟨.snoc _ _ (by simp), hbooks, trivial, hsuspended id rfl⟩

/-- A script that is advanced and does not go on has ended, and its call is answered. -/
lemma advance_ends (h : Books pending p.turn.ledger p.turn.scripts)
    (hjob : pending (callerKey job.call) = job.call :: rest) (hready : job.Ready p.turn.scripts)
    (hadvance : advance s job p = (none, p')) :
    Grows p.turn.scripts p'.turn.scripts ∧
      Books (Function.update pending (callerKey job.call) rest) p'.turn.ledger p'.turn.scripts := by
  unfold advance at hadvance
  match hrun : job.stack.run (site s) FrameStack.stepLimit ⟨p.scopes, p.turn.ledger, [], []⟩ with
  | none =>
    rw [hrun] at hadvance
    cases hadvance
  | some (.suspended id, stack, w) =>
    rw [hrun] at hadvance
    cases hadvance
  | some (.done ending result, stack, w) =>
    rw [hrun] at hadvance
    cases hadvance
    obtain ⟨hbooks, -⟩ := run_books h hjob hready hrun
    obtain ⟨hledger, hscripts⟩ := writeLog_frame s job.options.threshold w.log
      (({ p.turn with ledger := w.ledger }.sendAll w.sent).script job.call (.ran w.sent))
    set logged := writeLog s job.options.threshold w.log
      (({ p.turn with ledger := w.ledger }.sendAll w.sent).script job.call (.ran w.sent))
    have hmem : job.call ∈ pending (callerKey job.call) := by
      rw [hjob]
      exact List.mem_cons_self
    have hconcluded : Concluded job.call w.ledger
        (conclude s job.call ending result logged).ledger := by
      have hlogged : logged.ledger = w.ledger := hledger
      rw [← hlogged]
      refine concluded_conclude s ending result fun hreply kind args => ?_
      obtain ⟨back, -, hanswer⟩ := hbooks.answer_eq_ok hmem hreply kind args
      rw [hlogged]
      exact ⟨_, _, hanswer⟩
    have hhistory : ((conclude s job.call ending result logged).script job.call .ended).scripts =
        (p.turn.scripts ++ [⟨job.call, .ran w.sent⟩]) ++ [⟨job.call, .ended⟩] := by
      unfold Turn.script
      rw [conclude_scripts, hscripts]
      rfl
    have hfirst : Grows p.turn.scripts (p.turn.scripts ++ [⟨job.call, .ran w.sent⟩]) :=
      .snoc _ _ (by simp)
    simp only
    rw [hhistory]
    exact ⟨hfirst.trans (.snoc _ _ (by simp)), hbooks.finish hjob rfl hconcluded⟩

/-! ## The scripts of one caller -/

/-- A script that is started waits for nothing. -/
lemma start_ready (H : List ScriptEvent) (scope : ScopeRef) (job : Job) :
    (start scope job).Ready H where
  sound := .ofScript ..
  outstanding := by
    intro id hid
    contradiction

/-- When the scripts of a queue have run, one of them is suspended or none is left. -/
lemma drain_books (scope : ScopeRef) (queue : List Job)
    (h : Books pending p.turn.ledger p.turn.scripts)
    (hqueue : pending key = queue.map Job.call)
    (hrests : ∀ d, ⟨d, .stuck⟩ ∉ (drain s scope queue p).2.turn.scripts) :
    Grows p.turn.scripts (drain s scope queue p).2.turn.scripts ∧
      (drain s scope queue p).1.Resting (drain s scope queue p).2.turn.scripts ∧
      Books (Function.update pending key (drain s scope queue p).1.calls)
        (drain s scope queue p).2.turn.ledger (drain s scope queue p).2.turn.scripts := by
  induction queue generalizing p pending with
  | nil =>
    have hsame : Function.update pending key [] = pending := Function.update_eq_self_iff.mpr
      hqueue.symm
    refine ⟨.refl _, ⟨fun _ => rfl, fun job hjob => by contradiction⟩, ?_⟩
    change Books (Function.update pending key []) p.turn.ledger p.turn.scripts
    rw [hsame]
    exact h
  | cons first queue ih =>
    have hmem : first.call ∈ pending key := by
      rw [hqueue]
      exact List.mem_cons_self
    have hkey : callerKey first.call = key := (h.mem_pending hmem).2
    have hjob : pending (callerKey (start scope first).call) =
        (start scope first).call :: queue.map Job.call := by
      change pending (callerKey first.call) = first.call :: queue.map Job.call
      rw [hkey, hqueue]
      rfl
    have hready := start_ready p.turn.scripts scope first
    unfold drain at hrests ⊢
    rcases hadvance : advance s (start scope first) p with ⟨_ | running, p₁⟩
    · rw [hadvance] at hrests
      obtain ⟨hgrows, hbooks⟩ := advance_ends h hjob hready hadvance
      have hstart : callerKey (start scope first).call = key := hkey
      rw [hstart] at hbooks
      obtain ⟨hgrows', hresting, hbooks'⟩ := ih hbooks (Function.update_self ..) hrests
      rw [Function.update_idem] at hbooks'
      exact ⟨hgrows.trans hgrows', hresting, hbooks'⟩
    · rw [hadvance] at hrests
      obtain ⟨hgrows, hbooks, hcall, hsuspended⟩ :=
        advance_suspends h hjob hready hadvance hrests
      have hcalls : CallerContext.calls ⟨scope, queue, some running⟩ = pending key := by
        have hcall' : running.call = first.call := hcall
        simp [CallerContext.calls, hqueue, hcall']
      refine ⟨hgrows, ⟨fun hnone => by contradiction, ?_⟩, ?_⟩
      · intro job hrunning
        cases hrunning
        exact hsuspended
      · simp only
        rw [hcalls, Function.update_eq_self]
        exact hbooks

/-- When what can run of a caller has run, one of its scripts is suspended or none is left. -/
lemma pumpContext_books (context : CallerContext)
    (h : Books pending p.turn.ledger p.turn.scripts) (hcontext : pending key = context.calls)
    (hready : ∀ job, context.running = some job → job.Ready p.turn.scripts)
    (hrests : ∀ d, ⟨d, .stuck⟩ ∉ (pumpContext s context p).2.turn.scripts) :
    Grows p.turn.scripts (pumpContext s context p).2.turn.scripts ∧
      (pumpContext s context p).1.Resting (pumpContext s context p).2.turn.scripts ∧
      Books (Function.update pending key (pumpContext s context p).1.calls)
        (pumpContext s context p).2.turn.ledger (pumpContext s context p).2.turn.scripts := by
  obtain ⟨scope, queue, running⟩ := context
  cases running with
  | none => exact drain_books scope queue h hcontext hrests
  | some job =>
    have hcalls : pending key = job.call :: queue.map Job.call := hcontext
    have hmem : job.call ∈ pending key := by
      rw [hcalls]
      exact List.mem_cons_self
    have hkey : callerKey job.call = key := (h.mem_pending hmem).2
    have hjob : pending (callerKey job.call) = job.call :: queue.map Job.call := by
      rw [hkey, hcalls]
    have hready := hready job rfl
    unfold pumpContext at hrests ⊢
    simp only at hrests ⊢
    match hadvance : advance s job p with
    | (some running, p₁) =>
      rw [hadvance] at hrests
      obtain ⟨hgrows, hbooks, hcall, hsuspended⟩ :=
        advance_suspends h hjob hready hadvance hrests
      have hcalls' : CallerContext.calls ⟨scope, queue, some running⟩ = pending key := by
        simp [CallerContext.calls, hcalls, hcall]
      refine ⟨hgrows, ⟨fun hnone => by contradiction, ?_⟩, ?_⟩
      · intro job hrunning
        cases hrunning
        exact hsuspended
      · simp only
        rw [hcalls', Function.update_eq_self]
        exact hbooks
    | (none, p₁) =>
      rw [hadvance] at hrests
      obtain ⟨hgrows, hbooks⟩ := advance_ends h hjob hready hadvance
      rw [hkey] at hbooks
      obtain ⟨hgrows', hresting, hbooks'⟩ :=
        drain_books scope queue hbooks (Function.update_self ..) hrests
      rw [Function.update_idem] at hbooks'
      exact ⟨hgrows.trans hgrows', hresting, hbooks'⟩

/-! ## The invariant -/

/-- The calls of a caller whose scripts are pending, the running one first. -/
def pendingOf (x : ScriptExecutor) (key : String) : List Call :=
  ((x.contexts.find? key).map CallerContext.calls).getD []

/-- What holds of an executor between two events, given the ledger and the history of its
scripts. -/
structure Kept (x : ScriptExecutor) (l : Ledger) (H : List ScriptEvent) : Prop where
  sorted : Keyed.Sorted x.contexts
  books : Books x.pendingOf l H
  resting : ∀ key context, x.contexts.find? key = some context → context.Resting H

/-- The pending calls of a caller that is known. -/
lemma pendingOf_of_find? (h : x.contexts.find? key = some context) :
    x.pendingOf key = context.calls := by
  simp [pendingOf, h]

/-- The pending calls after the scripts of one caller have changed. -/
lemma pendingOf_insert (x : ScriptExecutor) (key : String) (context : CallerContext) :
    ScriptExecutor.pendingOf { x with contexts := x.contexts.insert key context } =
      Function.update x.pendingOf key context.calls := by
  funext other
  by_cases hkey : other = key
  · subst hkey
    simp [pendingOf, Keyed.find?_insert_self]
  · simp [pendingOf, Keyed.find?_insert_of_ne hkey, hkey]

/-- When what can run of one caller has run, the executor is at rest. -/
lemma pump_kept (hsorted : Keyed.Sorted x.contexts) (hbooks : Books x.pendingOf t.ledger t.scripts)
    (hfind : x.contexts.find? key = some context)
    (hready : ∀ job, context.running = some job → job.Ready t.scripts)
    (hothers : ∀ other c, other ≠ key → x.contexts.find? other = some c → c.Resting t.scripts)
    (hrests : ∀ d, ⟨d, .stuck⟩ ∉ (pump s key x t).2.scripts) :
    Kept (pump s key x t).1 (pump s key x t).2.ledger (pump s key x t).2.scripts := by
  unfold pump at hrests ⊢
  simp only [hfind] at hrests ⊢
  obtain ⟨hgrows, hresting, hbooks'⟩ := pumpContext_books (p := ⟨x.scopes, t⟩) context hbooks
    (pendingOf_of_find? hfind) hready hrests
  set out := pumpContext s context ⟨x.scopes, t⟩
  refine ⟨hsorted.insert key out.1, ?_, ?_⟩
  · have hpending := pendingOf_insert x key out.1
    have hsame : ScriptExecutor.pendingOf
        { x with scopes := out.2.scopes, contexts := x.contexts.insert key out.1 } =
        Function.update x.pendingOf key out.1.calls := hpending
    rw [hsame]
    exact hbooks'
  · intro other c hc
    by_cases hkey : other = key
    · subst hkey
      have hself : c = out.1 := by
        rw [Keyed.find?_insert_self] at hc
        exact (Option.some.inj hc).symm
      rw [hself]
      exact hresting
    · rw [Keyed.find?_insert_of_ne hkey] at hc
      exact (hothers other c hkey hc).grows hgrows

/-! ## Calls that bring scripts -/

/-- The context of a caller is the one that it has, or one without scripts. -/
lemma enter_cases (s : Setting) (c : Call) (x : ScriptExecutor) :
    (enter s c x).2.contexts = x.contexts ∧ (enter s c x).1.calls = x.pendingOf (callerKey c) ∧
      (x.contexts.find? (callerKey c) = some (enter s c x).1 ∨
        (enter s c x).1.running = none) := by
  unfold enter
  match h : x.contexts.find? (callerKey c) with
  | some context => exact ⟨rfl, (pendingOf_of_find? h).symm, .inl rfl⟩
  | none =>
    refine ⟨rfl, ?_, .inr rfl⟩
    simp [pendingOf, h, CallerContext.calls]

/-- A call that brings a script keeps the invariant, whether the script can be read or not. -/
theorem Kept.eval (h : Kept x t.ledger t.scripts) (hmade : c ∈ t.ledger.made)
    (hnew : c ∉ accepted t.scripts) (hunanswered : c.matchId ∉ t.ledger.answered)
    (hrests : ∀ d, ⟨d, .stuck⟩ ∉ (eval s c x t).2.2.scripts) :
    Kept (eval s c x t).2.1 (eval s c x t).2.2.ledger (eval s c x t).2.2.scripts := by
  unfold ScriptExecutor.eval at hrests ⊢
  match hread : read c with
  | .error f => exact h
  | .ok (script, options) =>
    simp only [hread] at hrests ⊢
    obtain ⟨hcontexts, hcalls, hcontext⟩ := enter_cases s c x
    set entered := enter s c x
    set taken : CallerContext :=
      { entered.1 with queue := entered.1.queue ++ [⟨c, script, options⟩] }
    have htaken : taken.calls = x.pendingOf (callerKey c) ++ [c] := by
      rw [← hcalls]
      simp [taken, CallerContext.calls]
    have hgrows : Grows t.scripts (t.script c .accepted).scripts := .snoc _ _ (by simp)
    have hpending : entered.2.pendingOf = x.pendingOf := by
      funext key
      simp [pendingOf, hcontexts]
    have hfind : (entered.2.contexts.insert (callerKey c) taken).find? (callerKey c) =
        some taken := Keyed.find?_insert_self ..
    refine pump_kept ?_ ?_ hfind ?_ ?_ hrests
    · rw [hcontexts]
      exact h.sorted.insert ..
    · rw [pendingOf_insert entered.2 (callerKey c) taken, htaken, hpending]
      exact h.books.accept hmade hnew hunanswered
    · intro job hjob
      have hrunning : entered.1.running = some job := hjob
      rcases hcontext with hfound | hnone
      · exact (((h.resting _ _ hfound).suspended job hrunning).grows hgrows).ready
      · rw [hnone] at hrunning
        contradiction
    · intro other context hother hfound
      rw [Keyed.find?_insert_of_ne hother, hcontexts] at hfound
      exact (h.resting other context hfound).grows hgrows

/-! ## Answers to scripts -/

/-- The caller to which an answer goes has a running script that waits for it. -/
lemma recipient?_eq_some {contexts : Keyed CallerContext} {context' : CallerContext}
    (h : recipient? c contexts = some (key, context')) :
    ∃ context job stack, (key, context) ∈ contexts ∧ context.running = some job ∧
      job.stack.post c = (true, stack) ∧
      context' = { context with running := some { job with stack := stack } } := by
  obtain ⟨⟨k, context⟩, hmem, heq⟩ := List.exists_of_findSome?_eq_some h
  obtain ⟨job, hjob, hpost⟩ := Option.bind_eq_some_iff.mp heq
  match hposted : job.stack.post c with
  | (false, stack) =>
    rw [hposted] at hpost
    contradiction
  | (true, stack) =>
    rw [hposted] at hpost
    cases hpost
    exact ⟨context, job, stack, hmem, hjob, hposted, rfl⟩

/-- An answer that no running script waits for goes to nobody. -/
lemma recipient?_eq_none {contexts : Keyed CallerContext}
    (h : ∀ key context job, (key, context) ∈ contexts → context.running = some job →
      job.stack.awaiting ≠ some c.matchId) : recipient? c contexts = none := by
  unfold recipient?
  rw [List.findSome?_eq_none_iff]
  rintro ⟨key, context⟩ hmem
  simp only [Option.bind_eq_none_iff]
  intro job hjob
  have hnot := h key context job hmem hjob
  simp [FrameStack.post, hnot]

/-- Two running scripts do not wait for the same answer. -/
lemma Kept.awaiting_ne (h : Kept x l H) {other : String} {context' : CallerContext}
    {job' : RunningJob} {id id' : ℕ} (hfind : x.contexts.find? key = some context)
    (hjob : context.running = some job) (hfind' : x.contexts.find? other = some context')
    (hjob' : context'.running = some job') (hid : Outstanding H job.call id)
    (hid' : Outstanding H job'.call id') (hother : other ≠ key) : id ≠ id' := by
  rintro rfl
  obtain ⟨⟨r, hr, hnumber⟩, -⟩ := hid
  obtain ⟨⟨r', hr', hnumber'⟩, -⟩ := hid'
  have hcall : job.call = job'.call :=
    hr.unique h.books.numbers hr' (hnumber.trans hnumber'.symm)
  have hmem : job.call ∈ x.pendingOf key := by
    rw [pendingOf_of_find? hfind]
    simp [CallerContext.calls, hjob]
  have hmem' : job'.call ∈ x.pendingOf other := by
    rw [pendingOf_of_find? hfind']
    simp [CallerContext.calls, hjob']
  have hkey := (h.books.mem_pending hmem).2
  have hkey' := (h.books.mem_pending hmem').2
  rw [hcall] at hkey
  exact hother (hkey'.symm.trans hkey)

/-- An answer keeps the invariant, whether it is waited for or not. -/
theorem Kept.receive (h : Kept x t.ledger t.scripts) (hresponse : c.isResponse = true)
    (hrests : ∀ d, ⟨d, .stuck⟩ ∉ (receive s c x t).2.2.scripts) :
    Kept (receive s c x t).2.1 (receive s c x t).2.2.ledger (receive s c x t).2.2.scripts := by
  unfold ScriptExecutor.receive at hrests ⊢
  match hrecipient : recipient? c x.contexts with
  | none => exact h
  | some (key, context') =>
    simp only [hrecipient] at hrests ⊢
    obtain ⟨context, job, stack, hmem, hjob, hpost, rfl⟩ := recipient?_eq_some hrecipient
    have hfind := h.sorted.find?_of_mem hmem
    obtain ⟨hsound, waited, hwaited, houtstanding⟩ :=
      (h.resting key context hfind).suspended job hjob
    obtain ⟨hawaiting, hfree⟩ := FrameStack.free_post hsound hresponse hpost
    have hnumber : waited = c.matchId := by
      rw [hwaited] at hawaiting
      exact Option.some.inj hawaiting
    subst hnumber
    have hold : c.matchId < t.ledger.nextId := by
      obtain ⟨⟨r, hr, hrnumber⟩, -⟩ := houtstanding
      exact hrnumber ▸ h.books.fresh r hr.mem_sent
    have hcalls : CallerContext.calls { context with running := some { job with stack := stack } } =
        x.pendingOf key := by
      rw [pendingOf_of_find? hfind]
      simp [CallerContext.calls, hjob]
    refine pump_kept (h.sorted.insert ..) ?_ (Keyed.find?_insert_self ..) ?_ ?_ hrests
    · rw [pendingOf_insert, hcalls, Function.update_eq_self]
      exact h.books.resume hold
    · intro job' hjob'
      cases hjob'
      refine ⟨hfree.1, ?_⟩
      intro id hid
      have hnone := hfree.2
      simp only at hid
      rw [hnone] at hid
      contradiction
    · intro other c' hother hfound
      rw [Keyed.find?_insert_of_ne hother] at hfound
      have hresting := h.resting other c' hfound
      refine ⟨hresting.idle, fun job' hjob' => ?_⟩
      obtain ⟨hsound', id, hid, houtstanding'⟩ := hresting.suspended job' hjob'
      refine ⟨hsound', id, hid, houtstanding'.append ?_⟩
      intro d a hmem'
      have ha : a = c := by
        simp only [List.mem_singleton, ScriptEvent.mk.injEq, ScriptFate.resumed.injEq] at hmem'
        exact hmem'.2
      rw [ha]
      exact h.awaiting_ne hfind hjob hfound hjob' houtstanding houtstanding' hother

/-- An answer that no script waits for changes nothing. -/
theorem Kept.receive_stray (h : Kept x l H) (s : Setting) (t : Turn)
    (hstray : ∀ key context job, x.contexts.find? key = some context →
      context.running = some job → job.stack.awaiting ≠ some c.matchId) :
    ScriptExecutor.receive s c x t = (false, x, t) := by
  have hnone : recipient? c x.contexts = none := by
    refine recipient?_eq_none fun key context job hmem hjob => ?_
    exact hstray key context job (h.sorted.find?_of_mem hmem) hjob
  unfold ScriptExecutor.receive
  rw [hnone]

/-- No script waits for the answer to a request that a finished script has sent. -/
theorem Kept.awaiting_ne_of_finished (h : Kept x l H) {r : Call} (hc : c ∈ finished H)
    (hr : Sent H c r) (hfind : x.contexts.find? key = some context)
    (hjob : context.running = some job) : job.stack.awaiting ≠ some r.matchId := by
  intro hawaiting
  obtain ⟨-, id, hid, ⟨r', hr', hnumber⟩, -⟩ := (h.resting key context hfind).suspended job hjob
  have hsame : r'.matchId = r.matchId := by
    rw [hawaiting] at hid
    rw [hnumber]
    exact (Option.some.inj hid).symm
  have hcall : job.call = c := hr'.unique h.books.numbers hr hsame
  have hpending : job.call ∈ x.pendingOf key := by
    rw [pendingOf_of_find? hfind]
    simp [CallerContext.calls, hjob]
  exact h.books.not_finished hpending (hcall ▸ hc)

/-! ## Scripts that are given up -/

/-- In a turn the scripts of some calls are given up, in this order: each of the calls that is to be
answered is told so, once. -/
structure Cancellation (cs : List Call) (t t' : Turn) : Prop where
  scripts : t'.scripts = t.scripts ++ cs.map fun c => ⟨c, .cancelled⟩
  answered : ∀ id ∈ t'.ledger.answered, id ∈ t.ledger.answered ∨ ∃ c ∈ cs, c.matchId = id
  sent : ∃ new, t'.outbox.calls = t.outbox.calls ++ new ∧
    List.Forall₂ Call.Cancels new (cs.filter Call.expectsReply)

namespace Cancellation

variable {t' t'' : Turn} {cs ds : List Call}

/-- No script is given up. -/
lemma nothing (t : Turn) : Cancellation [] t t where
  scripts := by simp
  answered _ h := .inl h
  sent := ⟨[], by simp, .nil⟩

/-- More scripts are given up. -/
lemma trans (h : Cancellation cs t t') (h' : Cancellation ds t' t'') :
    Cancellation (cs ++ ds) t t'' where
  scripts := by rw [h'.scripts, h.scripts, List.map_append, List.append_assoc]
  answered := by
    intro id hid
    rcases h'.answered id hid with hid | ⟨c, hc, hnumber⟩
    · rcases h.answered id hid with hid | ⟨c, hc, hnumber⟩
      · exact .inl hid
      · exact .inr ⟨c, List.mem_append_left ds hc, hnumber⟩
    · exact .inr ⟨c, List.mem_append_right cs hc, hnumber⟩
  sent := by
    obtain ⟨new, hnew, hcancels⟩ := h.sent
    obtain ⟨new', hnew', hcancels'⟩ := h'.sent
    refine ⟨new ++ new', by rw [hnew', hnew, List.append_assoc], ?_⟩
    rw [List.filter_append]
    exact List.rel_append hcancels hcancels'

end Cancellation

/-- The first pending script of a caller is given up. -/
lemma cancel_books (h : Books pending t.ledger H) (hc : pending (callerKey c) = c :: rest) :
    Books (Function.update pending (callerKey c) rest) (cancel t c).ledger
        (H ++ [⟨c, .cancelled⟩]) ∧
      Cancellation [c] t (cancel t c) := by
  have hmem : c ∈ pending (callerKey c) := by
    rw [hc]
    exact List.mem_cons_self
  by_cases hreply : c.expectsReply = true
  · obtain ⟨back, hback, hanswer⟩ :=
      h.answer_eq_ok hmem hreply .error [.fault (.cancelled "script cleared")]
    have hkind : c.kind = .request := by simpa [Call.expectsReply] using hreply
    have hcancel := Turn.answer_of_ledger hanswer
    set m : Ledger := { t.ledger with
      answered := c.matchId :: t.ledger.answered
      answers := (c, ⟨c.matchId, some c.target, back, c.time, .error,
        [.fault (.cancelled "script cleared")]⟩) :: t.ledger.answers }
    have heq : cancel t c = ({ t with ledger := m }.send ⟨c.matchId, some c.target, back, c.time,
        .error, [.fault (.cancelled "script cleared")]⟩).script c .cancelled := by
      unfold cancel Turn.error
      rw [if_pos hreply, hcancel]
    have hconcluded : Concluded c t.ledger m := by
      unfold Concluded
      rw [if_pos hreply]
      exact ⟨.error, _, _, .inr rfl, hanswer⟩
    rw [heq]
    refine ⟨h.finish hc rfl hconcluded, rfl, ?_, ⟨_, rfl, ?_⟩⟩
    · intro id hid
      rcases List.mem_cons.mp hid with rfl | hid
      · exact .inr ⟨c, List.mem_singleton_self c, rfl⟩
      · exact .inl hid
    · rw [List.filter_cons_of_pos hreply]
      exact .cons ⟨⟨hkind, rfl, rfl, rfl, hback.symm, rfl⟩, rfl, rfl⟩ .nil
  · have heq : cancel t c = t.script c .cancelled := by
      unfold cancel
      rw [if_neg hreply]
    have hconcluded : Concluded c t.ledger t.ledger := by
      unfold Concluded
      rw [if_neg hreply]
    rw [heq]
    refine ⟨h.finish hc rfl hconcluded, rfl, fun _ hid => .inl hid, [], by simp [Turn.script], ?_⟩
    rw [List.filter_cons_of_neg hreply]
    exact .nil

/-- The pending scripts of a caller are given up, the running one first. -/
lemma cancels_books (cs : List Call) (h : Books pending t.ledger H) (hcs : pending key = cs) :
    Books (Function.update pending key []) (cs.foldl cancel t).ledger
        (H ++ cs.map fun c => ⟨c, .cancelled⟩) ∧
      Cancellation cs t (cs.foldl cancel t) := by
  induction cs generalizing t H pending with
  | nil =>
    have hsame : Function.update pending key [] = pending := Function.update_eq_self_iff.mpr
      hcs.symm
    rw [hsame, List.map_nil, List.append_nil]
    exact ⟨h, .nothing t⟩
  | cons c cs ih =>
    have hmem : c ∈ pending key := by
      rw [hcs]
      exact List.mem_cons_self
    have hkey : callerKey c = key := (h.mem_pending hmem).2
    subst hkey
    obtain ⟨hbooks, hfirst⟩ := cancel_books h hcs
    obtain ⟨hbooks', hrest⟩ := ih hbooks (Function.update_self ..)
    rw [Function.update_idem, List.append_assoc] at hbooks'
    exact ⟨hbooks', hfirst.trans hrest⟩

/-- When the scripts of a caller are given up, its pending calls are cancelled, the running one
first.  No other caller is concerned. -/
theorem Kept.clear (h : Kept x t.ledger t.scripts) (c : Call) :
    Kept (clear c x t).2.1 (clear c x t).2.2.ledger (clear c x t).2.2.scripts ∧
      Cancellation (x.pendingOf (callerKey c)) t (clear c x t).2.2 ∧
      (clear c x t).1 = (x.pendingOf (callerKey c)).length ∧
      (clear c x t).2.1.pendingOf (callerKey c) = [] ∧
      ∀ key, key ≠ callerKey c →
        (clear c x t).2.1.contexts.find? key = x.contexts.find? key := by
  unfold ScriptExecutor.clear
  match hfind : x.contexts.find? (callerKey c) with
  | none =>
    have hnone : x.pendingOf (callerKey c) = [] := by simp [pendingOf, hfind]
    rw [hnone]
    exact ⟨h, .nothing t, rfl, rfl, fun _ _ => rfl⟩
  | some context =>
    have hpending : x.pendingOf (callerKey c) = context.calls := pendingOf_of_find? hfind
    obtain ⟨hbooks, hcancellation⟩ := cancels_books context.calls h.books hpending
    set cleared : CallerContext := { context with queue := [], running := none }
    have hcleared : cleared.calls = [] := rfl
    have hlength : context.pending = context.calls.length := by
      cases hrunning : context.running <;>
        simp [CallerContext.pending, CallerContext.calls, hrunning]
    have hgrows : Grows t.scripts (context.calls.foldl cancel t).scripts := by
      refine ⟨_, hcancellation.scripts, ?_⟩
      simp
    rw [hpending]
    refine ⟨⟨h.sorted.insert .., ?_, ?_⟩, hcancellation, hlength, ?_, ?_⟩
    · have hsame := pendingOf_insert x (callerKey c) cleared
      rw [hcleared] at hsame
      have hscripts := hcancellation.scripts
      change Books (ScriptExecutor.pendingOf
        { x with contexts := x.contexts.insert (callerKey c) cleared })
        (context.calls.foldl cancel t).ledger (context.calls.foldl cancel t).scripts
      rw [hsame, hscripts]
      exact hbooks
    · intro other context' hfound
      by_cases hkey : other = callerKey c
      · subst hkey
        rw [Keyed.find?_insert_self] at hfound
        cases hfound
        exact ⟨fun _ => rfl, fun job hjob => by contradiction⟩
      · rw [Keyed.find?_insert_of_ne hkey] at hfound
        exact (h.resting other context' hfound).grows hgrows
    · rw [← hcleared]
      exact pendingOf_of_find? (Keyed.find?_insert_self ..)
    · intro other hother
      exact Keyed.find?_insert_of_ne hother ..

/-! ## All scripts are given up -/

/-- The pending calls of all callers, in the order of their keys. -/
def allPending (x : ScriptExecutor) : List Call := x.contexts.flatMap fun e => e.2.calls

/-- The pending scripts of some callers are given up, in the order of their keys. -/
lemma abortAll_books {contexts : Keyed CallerContext} (hsorted : Keyed.Sorted contexts)
    (h : Books pending t.ledger H) (hpending : ∀ e ∈ contexts, pending e.1 = e.2.calls) :
    (∃ pending', Books pending' (abortAll contexts t).2.ledger
        (H ++ (contexts.flatMap fun e => e.2.calls).map fun c => ⟨c, .cancelled⟩) ∧
        (∀ e ∈ contexts, pending' e.1 = []) ∧
        ∀ key, (∀ e ∈ contexts, e.1 ≠ key) → pending' key = pending key) ∧
      Cancellation (contexts.flatMap fun e => e.2.calls) t (abortAll contexts t).2 := by
  induction contexts generalizing t H pending with
  | nil =>
    refine ⟨⟨pending, ?_, by simp, fun _ _ => rfl⟩, .nothing t⟩
    rw [List.flatMap_nil, List.map_nil, List.append_nil]
    exact h
  | cons first contexts ih =>
    obtain ⟨key, context⟩ := first
    obtain ⟨hfirst, hrest⟩ := hsorted
    have hcalls : pending key = context.calls := hpending (key, context) List.mem_cons_self
    obtain ⟨hbooks, hcancelled⟩ := cancels_books context.calls h hcalls
    have hlater : ∀ e ∈ contexts, Function.update pending key [] e.1 = e.2.calls := by
      intro e he
      rw [Function.update_of_ne (hfirst e he).ne']
      exact hpending e (List.mem_cons_of_mem _ he)
    obtain ⟨⟨pending', hbooks', hdone, hsame⟩, hcancelled'⟩ := ih hrest hbooks hlater
    refine ⟨⟨pending', ?_, ?_, ?_⟩, hcancelled.trans hcancelled'⟩
    · rw [List.flatMap_cons, List.map_append, ← List.append_assoc]
      exact hbooks'
    · intro e he
      rcases List.mem_cons.mp he with rfl | he
      · rw [hsame key fun e he => (hfirst e he).ne', Function.update_self]
      · exact hdone e he
    · intro other hother
      have hne : key ≠ other := hother (key, context) List.mem_cons_self
      rw [hsame other fun e he => hother e (List.mem_cons_of_mem _ he),
        Function.update_of_ne hne.symm]

/-- When all scripts are given up, every pending call is cancelled, caller after caller and the
running one first, and none is left. The turn may have a history of its own. -/
theorem Kept.clearAll (h : Kept x l H) (hbooks : Books x.pendingOf t.ledger H) :
    Books (fun _ => []) (clearAll x t).2.2.ledger
        (H ++ x.allPending.map fun c => ⟨c, .cancelled⟩) ∧
      Cancellation x.allPending t (clearAll x t).2.2 := by
  have hpending : ∀ e ∈ x.contexts, x.pendingOf e.1 = e.2.calls := by
    intro e he
    exact pendingOf_of_find? (h.sorted.find?_of_mem he)
  obtain ⟨⟨pending', hbooks', hdone, hsame⟩, hcancelled⟩ :=
    abortAll_books h.sorted hbooks hpending
  have hnone : pending' = fun _ => [] := by
    funext key
    by_cases hknown : ∃ e ∈ x.contexts, e.1 = key
    · obtain ⟨e, he, rfl⟩ := hknown
      exact hdone e he
    · have hunknown : ∀ e ∈ x.contexts, e.1 ≠ key := fun e he heq => hknown ⟨e, he, heq⟩
      have hfind : x.contexts.find? key = none := by
        rw [Option.eq_none_iff_forall_ne_some]
        intro context hfound
        exact hunknown _ (Keyed.mem_of_find? hfound) rfl
      rw [hsame key hunknown]
      simp [pendingOf, hfind]
  rw [hnone] at hbooks'
  exact ⟨hbooks', hcancelled⟩

end ScriptExecutor

end Switchboard
