import Mathlib
import Switchboard.Node

/-!
# What a turn is made of

Whatever a program does in a turn comes down to four kinds of steps: it makes and sends a request,
makes and sends a quiet request, makes and sends the answer to a request, or changes what has
nothing to do with calls and takes back nothing that was written to the log.  A relation between
turns that holds of all of these, and of one after the other, is a `Turn.Rule`; where members come
and go it also has to hold of entries in the chronicle (`Turn.HookRule`).  The lemmas below show for
everything that can happen in a turn, from the programs of behaviors to the scripts of an executor,
that it is under every such rule.

There are three rules.  A turn is a sequence of steps (`Turn.Steps`), where members come and go with
entries in the chronicle between them (`Turn.Course`), so what holds of every step holds of every
turn.  And whatever happens in a turn only adds lines to the log (`Turn.Logs`).

A unit also keeps its place in the tree during a turn (`Task.place_run`).
-/

namespace Switchboard

open Relation

/-- An answer that is admitted is sent, and the ledger knows of it. -/
lemma Turn.answer_eq_ok {t u : Turn} {c : Call} {kind : CallKind} {args : List Value}
    (h : t.answer c kind args = .ok u) :
    ∃ a l, t.ledger.answer c kind args = .ok (a, l) ∧ u = { t with ledger := l }.send a := by
  unfold answer at h
  match hl : t.ledger.answer c kind args with
  | .error e =>
    rw [hl] at h
    contradiction
  | .ok (a, l) =>
    rw [hl] at h
    cases h
    exact ⟨a, l, rfl, rfl⟩

/-! ## Rules -/

/-- Whether a relation holds between a turn and what programs make of it: when a request is sent or
answered, when anything else is produced, and when one comes after the other. -/
structure Turn.Rule (R : Turn → Turn → Prop) : Prop where
  refl : ∀ t, R t t
  trans : ∀ {t u v}, R t u → R u v → R t v
  request : ∀ (t : Turn) (target source : Endpoint) (time : Int64) (args : List Value),
    R t ({ t with ledger := (t.ledger.request target source time args).2 }.send
      (t.ledger.request target source time args).1)
  quiet : ∀ (t : Turn) (target : Endpoint) (source : Option Endpoint) (time : Int64)
    (args : List Value),
    R t ({ t with ledger := (t.ledger.quiet target source time args).2 }.send
      (t.ledger.quiet target source time args).1)
  answer : ∀ {t u : Turn} {c : Call} {kind : CallKind} {args : List Value},
    kind = .reply ∨ kind = .error → t.answer c kind args = .ok u → R t u
  /-- Everything else leaves the ledger, the calls that were sent and the chronicle as they are, and
  only adds lines to the log. -/
  produce : ∀ {t u : Turn}, u.ledger = t.ledger → u.outbox.calls = t.outbox.calls →
    u.chronicle = t.chronicle → t.outbox.log <+: u.outbox.log → R t u

/-- Whether a relation holds of these changes, and also of entries in the chronicle. -/
structure Turn.HookRule (R : Turn → Turn → Prop) : Prop extends Turn.Rule R where
  record : ∀ (t : Turn) (f : Chronicle → Chronicle), R t (t.record f)

namespace Turn.Rule

variable {R : Turn → Turn → Prop} (K : Turn.Rule R) {t u : Turn}

include K

/-- A log line. -/
lemma logAlways (s : Setting) (t : Turn) (level : LogLevel) (message : String) :
    R t (t.logAlways s level message) := K.produce rfl rfl rfl (List.prefix_append ..)

/-- A log line that has to pass the threshold. -/
lemma log (s : Setting) (t : Turn) (level : LogLevel) (message : String) :
    R t (t.log s level message) := by
  unfold Turn.log
  split
  · exact K.logAlways s t level message
  · exact K.refl t

/-- An entry in the history of scripts. -/
lemma script (t : Turn) (c : Call) (fate : ScriptFate) : R t (t.script c fate) :=
  K.produce rfl rfl rfl List.prefix_rfl

/-- An answer, if it is admitted, and else nothing. -/
lemma answerOr {c : Call} {kind : CallKind} {args : List Value}
    (hkind : kind = .reply ∨ kind = .error) :
    R t (match t.answer c kind args with
      | .ok t' => t'
      | .error _ => t) := by
  cases h : t.answer c kind args with
  | ok t' => exact K.answer hkind h
  | error e => exact K.refl t

/-- A fold whose every step is under a rule. -/
lemma foldl {α β : Type} (f : β → α → β) (turn : β → Turn)
    (h : ∀ b a, R (turn b) (turn (f b a))) (l : List α) (b : β) :
    R (turn b) (turn (l.foldl f b)) := by
  induction l generalizing b with
  | nil => exact K.refl _
  | cons a l ih => exact K.trans (h b a) (ih (f b a))

end Turn.Rule

/-! ## Steps of a turn -/

/-- A step of a turn. -/
inductive Turn.Step (t : Turn) : Turn → Prop
  | request (target source : Endpoint) (time : Int64) (args : List Value) :
      Step t ({ t with ledger := (t.ledger.request target source time args).2 }.send
        (t.ledger.request target source time args).1)
  | quiet (target : Endpoint) (source : Option Endpoint) (time : Int64) (args : List Value) :
      Step t ({ t with ledger := (t.ledger.quiet target source time args).2 }.send
        (t.ledger.quiet target source time args).1)
  | answer {c : Call} {kind : CallKind} {args : List Value} {t' : Turn}
      (hkind : kind = .reply ∨ kind = .error) (h : t.answer c kind args = .ok t') : Step t t'
  /-- Everything else leaves the ledger, the calls that were sent and the chronicle as they are. -/
  | produce {t' : Turn} (hledger : t'.ledger = t.ledger)
      (hcalls : t'.outbox.calls = t.outbox.calls) (hchronicle : t'.chronicle = t.chronicle) :
      Step t t'

/-- Steps of a turn, one after the other. -/
def Turn.Steps : Turn → Turn → Prop := ReflTransGen Turn.Step

/-- Turns are sequences of steps. -/
lemma Turn.rule_steps : Turn.Rule Turn.Steps where
  refl _ := ReflTransGen.refl
  trans := ReflTransGen.trans
  request _ target source time args := ReflTransGen.single (.request target source time args)
  quiet _ target source time args := ReflTransGen.single (.quiet target source time args)
  answer hkind h := ReflTransGen.single (.answer hkind h)
  produce hledger hcalls hchronicle _ :=
    ReflTransGen.single (.produce hledger hcalls hchronicle)

/-- Steps enter nothing in the chronicle. -/
lemma Turn.Steps.chronicle {t u : Turn} (h : Turn.Steps t u) : u.chronicle = t.chronicle := by
  induction h with
  | refl => rfl
  | @tail u v _ hstep ih =>
    refine Eq.trans ?_ ih
    cases hstep with
    | request => rfl
    | quiet => rfl
    | answer hkind hanswer =>
      obtain ⟨a, l, -, rfl⟩ := answer_eq_ok hanswer
      rfl
    | produce _ _ hchronicle => exact hchronicle

/-- Steps of a turn and entries in the chronicle, in any order. -/
def Turn.Course : Turn → Turn → Prop :=
  ReflTransGen fun t u => Turn.Step t u ∨ ∃ f, u = t.record f

/-- Steps alone. -/
lemma Turn.Course.ofSteps {t u : Turn} (h : Turn.Steps t u) : Turn.Course t u :=
  ReflTransGen.mono (fun _ _ hstep => Or.inl hstep) t u h

/-- Turns in which members come and go are sequences of steps and of entries in the chronicle. -/
lemma Turn.hookRule_course : Turn.HookRule Turn.Course where
  refl _ := ReflTransGen.refl
  trans := ReflTransGen.trans
  request t target source time args := .ofSteps (rule_steps.request t target source time args)
  quiet t target source time args := .ofSteps (rule_steps.quiet t target source time args)
  answer hkind h := .ofSteps (rule_steps.answer hkind h)
  produce hledger hcalls hchronicle hlog :=
    .ofSteps (rule_steps.produce hledger hcalls hchronicle hlog)
  record _ f := ReflTransGen.single (.inr ⟨f, rfl⟩)

/-! ## Lines of the log -/

/-- Whether a turn has gone on with all lines that were written to the log before. -/
def Turn.Logs (t u : Turn) : Prop := t.outbox.log <+: u.outbox.log

/-- Nothing that was written to the log during a turn is taken back. -/
lemma Turn.hookRule_logs : Turn.HookRule Turn.Logs where
  refl _ := List.prefix_rfl
  trans := List.IsPrefix.trans
  request _ _ _ _ _ := List.prefix_rfl
  quiet _ _ _ _ _ := List.prefix_rfl
  answer _ h := by
    obtain ⟨a, l, -, rfl⟩ := answer_eq_ok h
    exact List.prefix_rfl
  produce _ _ _ hlog := hlog
  record _ _ := List.prefix_rfl

/-! ## Scripts -/

/-- The turn in which frames run, with the calls that they have sent so far. -/
def Workspace.over (w : Workspace) (t : Turn) : Turn := { t with ledger := w.ledger }.sendAll w.sent

namespace FrameStack

/-- A frame that ends leaves the turn alone. -/
lemma over_resume (p : Pending) (below : List Pending) (ending : Ending) (result : List Value)
    (w : Workspace) (t : Turn) : (resume p below ending result w).2.over t = w.over t := by
  cases p <;> cases ending <;> rfl

end FrameStack

namespace Turn.Rule

variable {R : Turn → Turn → Prop} (K : Turn.Rule R)

include K

/-- Sending a call from a script. -/
lemma sendCall (site : Site) (target : Endpoint) (args : List Value) (w : Workspace) (t : Turn) :
    R (w.over t) ((FrameStack.sendCall site target args w).2.over t) := by
  unfold FrameStack.sendCall
  cases site.replyTo with
  | none => exact K.refl _
  | some source =>
    have h := K.request (w.over t) target source site.time args
    have heq : { w.over t with
        ledger := ((w.over t).ledger.request target source site.time args).2 }.send
        ((w.over t).ledger.request target source site.time args).1 =
        (FrameStack.sendCall ⟨site.time, some source⟩ target args w).2.over t := by
      simp [Workspace.over, Turn.sendAll, Turn.send, FrameStack.sendCall]
    rw [heq] at h
    exact h

/-- A step of a stack of frames. -/
lemma step (site : Site) (s : FrameStack) (w : Workspace) (t : Turn) :
    R (w.over t) ((FrameStack.step site s w).2.over t) := by
  unfold FrameStack.step
  match s.top with
  | none => exact K.refl _
  | some (.done ending result) =>
    match s.below with
    | [] => exact K.refl _
    | p :: below =>
      simp only [FrameStack.over_resume]
      exact K.refl _
  | some (.waiting id) => exact K.refl _
  | some (.call target args) => exact K.sendCall site target args w t
  | some (.log level message) => exact K.refl _
  | some (.andThen base next) => exact K.refl _
  | some (.onFail body fallback) => exact K.refl _
  | some (.script run) => exact K.refl _
  | some (.loop run) =>
    match hitems : run.items with
    | [] => simp only [hitems]; exact K.refl _
    | item :: items => simp only [hitems]; exact K.refl _

/-- A run of a stack of frames. -/
lemma runStack (site : Site) (fuel : ℕ) (s : FrameStack) (w : Workspace) (t : Turn)
    {o : StackOutcome} {s' : FrameStack} {w' : Workspace}
    (h : s.run site fuel w = some (o, s', w')) : R (w.over t) (w'.over t) := by
  induction fuel generalizing s w with
  | zero => contradiction
  | succ fuel ih =>
    rw [FrameStack.run] at h
    have hstep := K.step site s w t
    match hs : FrameStack.step site s w with
    | (.goOn s₁, w₁) =>
      rw [hs] at h hstep
      exact K.trans hstep (ih s₁ w₁ h)
    | (.stop o₁ s₁, w₁) =>
      rw [hs] at h hstep
      cases h
      exact hstep

/-- The log lines of a script. -/
lemma writeLog (s : Setting) (threshold : LogLevel) (lines : List (LogLevel × String))
    (t : Turn) : R t (ScriptExecutor.writeLog s threshold lines t) :=
  K.foldl (fun (t : Turn) (l : LogLevel × String) => t.logAlways s l.1 l.2) id
    (fun t l => K.logAlways s t l.1 l.2) _ t

/-- The answer to the call that brought a script. -/
lemma conclude (s : Setting) (c : Call) (ending : Ending) (result : List Value) (t : Turn) :
    R t (ScriptExecutor.conclude s c ending result t) := by
  unfold ScriptExecutor.conclude
  split
  · split
    · exact K.log ..
    · exact K.refl t
  · cases ending with
    | ok => exact K.answerOr (.inl rfl)
    | error => exact K.answerOr (.inr rfl)
    | «break» => exact K.answerOr (.inr rfl)
    | «continue» => exact K.answerOr (.inr rfl)

/-- A script that goes on. -/
lemma advance (s : Setting) (job : RunningJob) (p : ScriptExecutor.Progress) :
    R p.turn (ScriptExecutor.advance s job p).2.turn := by
  unfold ScriptExecutor.advance
  match hrun : job.stack.run (ScriptExecutor.site s) FrameStack.stepLimit
      ⟨p.scopes, p.turn.ledger, [], []⟩ with
  | none => exact K.script ..
  | some (outcome, stack, w) =>
    have hover : Workspace.over ⟨p.scopes, p.turn.ledger, [], []⟩ p.turn = p.turn := by
      simp [Workspace.over, Turn.sendAll]
    have hran := K.runStack _ _ _ _ p.turn hrun
    rw [hover] at hran
    have hlog := K.trans (K.trans hran (K.script (w.over p.turn) job.call (.ran w.sent)))
      (K.writeLog s job.options.threshold w.log _)
    cases outcome with
    | suspended id => exact hlog
    | done ending result =>
      exact K.trans (K.trans hlog (K.conclude s job.call ending result _)) (K.script ..)

/-- The scripts of a queue. -/
lemma drain (s : Setting) (scope : ScopeRef) (queue : List Job) (p : ScriptExecutor.Progress) :
    R p.turn (ScriptExecutor.drain s scope queue p).2.turn := by
  induction queue generalizing p with
  | nil => exact K.refl _
  | cons job queue ih =>
    have hadvance := K.advance s (ScriptExecutor.start scope job) p
    unfold ScriptExecutor.drain
    match h : ScriptExecutor.advance s (ScriptExecutor.start scope job) p with
    | (some running, p') =>
      rw [h] at hadvance
      exact hadvance
    | (none, p') =>
      rw [h] at hadvance
      exact K.trans hadvance (ih p')

/-- What can run of one caller. -/
lemma pumpContext (s : Setting) (c : CallerContext) (p : ScriptExecutor.Progress) :
    R p.turn (ScriptExecutor.pumpContext s c p).2.turn := by
  unfold ScriptExecutor.pumpContext
  match c.running with
  | none => exact K.drain ..
  | some job =>
    have hadvance := K.advance s job p
    simp only
    match h : ScriptExecutor.advance s job p with
    | (some running, p') =>
      rw [h] at hadvance
      exact hadvance
    | (none, p') =>
      rw [h] at hadvance
      exact K.trans hadvance (K.drain ..)

/-- What can run of the caller under a key. -/
lemma pump (s : Setting) (key : String) (x : ScriptExecutor) (t : Turn) :
    R t (ScriptExecutor.pump s key x t).2 := by
  unfold ScriptExecutor.pump
  match x.contexts.find? key with
  | none => exact K.refl t
  | some c => exact K.pumpContext s c ⟨x.scopes, t⟩

/-- A call that brings a script. -/
lemma eval (s : Setting) (c : Call) (x : ScriptExecutor) (t : Turn) :
    R t (x.eval s c t).2.2 := by
  unfold ScriptExecutor.eval
  match ScriptExecutor.read c with
  | .error f => exact K.refl t
  | .ok (script, options) => exact K.trans (K.script t c .accepted) (K.pump ..)

/-- The running script of a caller is handed an answer. -/
lemma noteResumed (context : CallerContext) (c : Call) (t : Turn) :
    R t (ScriptExecutor.noteResumed context c t) := by
  unfold ScriptExecutor.noteResumed
  split
  · exact K.script ..
  · exact K.refl t

/-- An answer to a script. -/
lemma resume (s : Setting) (c : Call) (x : ScriptExecutor) (t : Turn) :
    R t (x.receive s c t).2.2 := by
  unfold ScriptExecutor.receive
  match ScriptExecutor.recipient? c x.contexts with
  | none => exact K.refl t
  | some (key, context) => exact K.trans (K.noteResumed context c t) (K.pump ..)

/-- The answer to a call whose script is given up. -/
lemma cancel (t : Turn) (c : Call) : R t (ScriptExecutor.cancel t c) := by
  refine K.trans ?_ (K.script ..)
  split
  · exact K.answerOr (.inr rfl)
  · exact K.refl t

/-- The answers to the calls of one caller. -/
lemma abort (c : CallerContext) (t : Turn) : R t (ScriptExecutor.abort c t).2 :=
  K.foldl ScriptExecutor.cancel id K.cancel c.calls t

/-- The answers to the calls of the caller that a call comes from. -/
lemma clear (c : Call) (x : ScriptExecutor) (t : Turn) : R t (x.clear c t).2.2 := by
  unfold ScriptExecutor.clear
  match x.contexts.find? (ScriptExecutor.callerKey c) with
  | none => exact K.refl t
  | some context => exact K.abort context t

/-- The answers to the calls of several callers. -/
lemma abortAll (contexts : Keyed CallerContext) (t : Turn) :
    R t (ScriptExecutor.abortAll contexts t).2 := by
  induction contexts generalizing t with
  | nil => exact K.refl t
  | cons e rest ih => exact K.trans (K.abort e.2 t) (ih _)

/-- What an executor is asked to do. -/
lemma executeOn (s : Setting) (x : ScriptExecutor) (task : ExecutorTask) (t : Turn) :
    R t (Program.executeOn s x task t).2.2 := by
  cases task with
  | eval c => exact K.eval s c x t
  | receive c => exact K.resume s c x t
  | clear c => exact K.clear c x t
  | clearAll => exact K.abortAll x.contexts t

/-! ## Programs -/

/-- An attempt to answer. -/
lemma answerOn {kind : CallKind} (hkind : kind = .reply ∨ kind = .error) (t : Turn) (c : Call)
    (args : List Value) : R t (Program.answerOn t c kind args).2 := by
  unfold Program.answerOn
  cases h : t.answer c kind args with
  | ok t' => exact K.answer hkind h
  | error e => exact K.refl t

/-- A program is under every rule, whatever it does. -/
lemma run (s : Setting) (p : Program) (w : Workbench) : R w.turn (p.run s w).2.turn := by
  induction p generalizing w with
  | done result => exact K.refl _
  | look next ih => exact ih s w.turn.attached w
  | request target source time args next ih =>
    exact K.trans (K.request w.turn target source time args) (ih _ { w with turn := _ })
  | quiet target source time args next ih =>
    exact K.trans (K.quiet w.turn target source time args) (ih _ { w with turn := _ })
  | reply c args next ih =>
    exact K.trans (K.answerOn (.inl rfl) w.turn c args) (ih _ { w with turn := _ })
  | error c args next ih =>
    exact K.trans (K.answerOn (.inr rfl) w.turn c args) (ih _ { w with turn := _ })
  | emit port values next ih =>
    have hstep : R w.turn (w.turn.emit port values) := K.produce rfl rfl rfl List.prefix_rfl
    exact K.trans hstep (ih { w with turn := _ })
  | log always level message next ih =>
    have hstep : R w.turn
        (if always then w.turn.logAlways s level message else w.turn.log s level message) := by
      split
      · exact K.logAlways ..
      · exact K.log ..
    exact K.trans hstep (ih { w with turn := _ })
  | note tag values next ih =>
    have hstep : R w.turn (w.turn.note (.values s.address tag values)) :=
      K.produce rfl rfl rfl List.prefix_rfl
    exact K.trans hstep (ih { w with turn := _ })
  | noteCall tag c next ih =>
    have hstep : R w.turn
        (w.turn.note (.call s.address tag c (w.turn.ledger.isAnswered c))) :=
      K.produce rfl rfl rfl List.prefix_rfl
    exact K.trans hstep (ih { w with turn := _ })
  | getProperty id next ih => exact ih _ w
  | setProperty id v time next ih =>
    exact ih _ { w with cells := (Program.setOn w.cells id v time).2 }
  | getReference id next ih => exact ih _ w
  | setReference id v next ih => exact ih { w with cells := w.cells.write id v }
  | execute x task next ih =>
    exact K.trans (K.executeOn s x task w.turn) (ih _ _ { w with turn := _ })

/-- A program that reports its failure. -/
lemma runReported (s : Setting) (what id : String) (p : Program) (w : Workbench) :
    R w.turn (Upkeep.runReported s what id p w).turn := by
  have hrun := K.run s p w
  unfold Upkeep.runReported
  match h : p.run s w with
  | (.ok _, w') =>
    rw [h] at hrun
    exact hrun
  | (.error f, w') =>
    rw [h] at hrun
    exact K.trans hrun (K.log s w'.turn .error _)

/-- The tick handler. -/
lemma tick (s : Setting) (i : Iteration) (t : Turn) : R t (i.tick s t).2 := by
  unfold Iteration.tick
  split
  · exact K.refl t
  · exact K.runReported s "tick" "tick" _ ⟨i.cells, t⟩

/-- The reply of a control. -/
lemma replyIfExpected (c : Call) (args : List Value) (t : Turn) :
    R t (Iteration.replyIfExpected c args t).2 := by
  unfold Iteration.replyIfExpected
  split
  · cases h : t.reply c args with
    | ok t' => exact K.answer (.inl rfl) h
    | error e => exact K.refl t
  · exact K.refl t

/-- A call to a property. -/
lemma callProperty (id : String) (c : Call) (w : Workbench) :
    R w.turn (Iteration.callProperty id c w).2.turn := by
  unfold Iteration.callProperty
  split
  · exact K.refl _
  · simp only
    split
    · exact K.refl _
    · exact K.replyIfExpected ..

/-- A call to a function. -/
lemma callFunction (s : Setting) (handler : List Value → Program) (c : Call) (w : Workbench) :
    R w.turn (Iteration.callFunction s handler c w).2.turn := by
  have hrun := K.run s (handler c.args) w
  unfold Iteration.callFunction
  split
  · exact K.refl _
  · match h : (handler c.args).run s w with
    | (.error f, w') =>
      rw [h] at hrun
      exact hrun
    | (.ok result, w') =>
      rw [h] at hrun
      exact K.trans hrun (K.replyIfExpected c result w'.turn)

/-- A call to a control. -/
lemma callControl (s : Setting) (id : String) (control : Control) (c : Call) (w : Workbench) :
    R w.turn (Iteration.callControl s id control c w).2.turn := by
  cases control with
  | function handler => exact K.callFunction ..
  | raw handler => exact K.run ..
  | property shape default => exact K.callProperty ..
  | observer o => exact K.refl _

/-- A call to a unit. -/
lemma invoke (s : Setting) (c : Call) (i : Iteration) (t : Turn) :
    R t (i.invoke s c t).2.2 := by
  unfold Iteration.invoke
  split
  · exact K.refl t
  · exact K.callControl s _ _ c ⟨i.cells, t⟩

/-- Values for a port. -/
lemma receive (s : Setting) (port : String) (values : List Value) (i : Iteration) (t : Turn) :
    R t (i.receive s port values t).2 := by
  unfold Iteration.receive
  split
  · rename_i handler _
    have hrun := K.run s (handler values) ⟨i.cells, t⟩
    match h : (handler values).run s ⟨i.cells, t⟩ with
    | (.ok result, w) =>
      rw [h] at hrun
      exact hrun
    | (.error f, w) =>
      rw [h] at hrun
      exact K.trans hrun (K.log s w.turn .error _)
  · exact K.refl t

end Turn.Rule

/-! ## Behaviors that come and go -/

namespace Turn.HookRule

variable {R : Turn → Turn → Prop} (K : Turn.HookRule R)

include K

/-- An entry in the chronicle. -/
lemma recordOn (w : Workbench) (f : Chronicle → Chronicle) :
    R w.turn (Upkeep.record w f).turn := K.record w.turn f

/-- A hook of a reference. -/
lemma runReference (s : Setting) (h : Hook) (m : MemberId) (spec : ReferenceSpec)
    (w : Workbench) : R w.turn (Upkeep.runReference s h m spec w).turn := by
  unfold Upkeep.runReference
  cases h with
  | dispose =>
    simp only
    split
    · next held handler _ _ =>
      have hrun := K.run s (handler held.value) (Upkeep.record
        { w with cells := (w.cells.take m.id).2 } (·.dispose ⟨held.maker, m, true⟩))
      exact K.trans (K.recordOn { w with cells := (w.cells.take m.id).2 } _) hrun
    · exact K.recordOn { w with cells := (w.cells.take m.id).2 } _
    · exact K.refl _
  | _ =>
    simp only
    split
    · exact K.runReported ..
    · exact K.refl _

/-- A hook of a member. -/
lemma upkeep (s : Setting) (h : Hook) (m : MemberId) (w : Workbench) (u : Upkeep) :
    R w.turn (u.run s h m w).turn := by
  have hmoment : R w.turn (Upkeep.record w (·.moment m h)).turn := K.recordOn ..
  cases u with
  | none => exact hmoment
  | observer o => exact K.trans hmoment (K.runReported ..)
  | reference spec => exact K.trans hmoment (K.runReference ..)

/-- The initialization of a reference. -/
lemma makeValue (s : Setting) (m : MemberId) (spec : ReferenceSpec) (w : Workbench) :
    R w.turn (Iteration.makeValue s m spec w).turn := by
  have hrun := K.run s spec.init w
  unfold Iteration.makeValue
  split
  · exact K.refl _
  · match h : spec.init.run s w with
    | (.ok values, w') =>
      rw [h] at hrun
      exact K.trans hrun (K.record w'.turn (·.make m))
    | (.error f, w') =>
      rw [h] at hrun
      exact K.trans hrun (K.log s w'.turn .error _)

/-- The arrival of a reference. -/
lemma attachReference (s : Setting) (m : MemberId) (r : ReferenceMember) (former : Cells)
    (w : Workbench) : R w.turn (Iteration.attachReference s m r former w).2.turn := by
  cases r with
  | observer o => exact K.refl _
  | typed spec =>
    exact K.makeValue s m spec
      { w with cells := (Iteration.moveValue m.id spec.kind w.cells former).1 }

/-- The arrival of references. -/
lemma attachReferences (s : Setting) (number : ℕ) (rs : Named ReferenceMember) (former : Cells)
    (w : Workbench) : R w.turn (Iteration.attachReferences s number rs former w).2.turn := by
  induction rs generalizing former w with
  | nil => exact K.refl _
  | cons e rest ih =>
    exact K.trans (K.attachReference s ⟨number, .reference, e.1⟩ e.2 former w) (ih _ _)

/-- The disposal of members. -/
lemma disposeMembers (s : Setting) (members : List (MemberId × Upkeep)) (w : Workbench) :
    R w.turn (Iteration.disposeMembers s members w).turn :=
  K.foldl (fun w (e : MemberId × Upkeep) => e.2.run s .dispose e.1 w) Workbench.turn
    (fun w e => K.upkeep s .dispose e.1 w e.2) members w

/-- An iteration that follows another. -/
lemma attach (s : Setting) (next former : Iteration) (t : Turn) :
    R t (next.attach s former t).2 := by
  have hattached : R t
      { t with attached := t.attached ++ Named.names next.members.controls } :=
    K.produce rfl rfl rfl List.prefix_rfl
  have hreferences := K.attachReferences s next.number next.members.references former.cells
    ⟨Iteration.carryProperties next.cells former.cells,
      { t with attached := t.attached ++ Named.names next.members.controls }⟩
  unfold Iteration.attach
  rcases h : Iteration.attachReferences s next.number next.members.references former.cells
    ⟨Iteration.carryProperties next.cells former.cells,
      { t with attached := t.attached ++ Named.names next.members.controls }⟩ with ⟨cells, w⟩
  rw [h] at hreferences
  have hdisposed := K.disposeMembers s (Iteration.givenUp next former) ⟨cells, w.turn⟩
  simp only [h]
  exact K.trans hattached (K.trans hreferences hdisposed)

/-- A hook of all members. -/
lemma runHook (s : Setting) (h : Hook) (i : Iteration) (t : Turn) : R t (i.runHook s h t).2 :=
  K.foldl (fun w (e : MemberId × Upkeep) => e.2.run s h e.1 w) Workbench.turn
    (fun w e => K.upkeep s h e.1 w e.2) i.upkeeps ⟨i.cells, t⟩

/-- The disposal of an iteration. -/
lemma dispose (s : Setting) (i : Iteration) (t : Turn) : R t (i.dispose s t).2 :=
  K.disposeMembers s i.upkeeps ⟨i.cells, t⟩

/-- Becoming active. -/
lemma activate (s : Setting) (n : Node) (t : Turn) : R t (n.activate s t).2 := by
  have hinit := K.runHook s .init n.iteration t
  unfold Node.activate
  simp only
  split
  · exact hinit
  · exact K.trans hinit (K.runHook s .start _ _)

end Turn.HookRule

/-! ## Tasks of units -/

/-- What stays as it is while a unit acts: its place in the tree and, for a container, what it
contains. -/
structure Place where
  address : Path
  parent : Option Handle
  kind : NodeKind
  children : Named Handle
  connections : List Connection
deriving DecidableEq

/-- The place of a unit. -/
def Node.place (n : Node) : Place := ⟨n.address, n.parent, n.kind, n.children, n.connections⟩

/-- What a unit is given a turn for. -/
inductive Task where
  | activate
  | install (next : Iteration) (active : Bool)
  | stop
  | reset
  | tick
  | dispose
  | receive (port : String) (values : List Value)
  | invoke (c : Call)

namespace Task

/-- What a unit does in a turn that it is given for a task. -/
def run (k : Task) (s : Setting) (n : Node) (t : Turn) : Node × Turn :=
  match k with
  | .activate => n.activate s t
  | .install next active => n.install s next active t
  | .stop => n.stop s t
  | .reset => n.reset s t
  | .tick => n.tick s t
  | .dispose => n.dispose s t
  | .receive port values => n.receive s port values t
  | .invoke c => (n.invoke s c t).2

/-- A unit that becomes active keeps its place. -/
lemma place_activate (s : Setting) (n : Node) (t : Turn) : (n.activate s t).1.place = n.place := by
  unfold Node.activate
  simp only
  split <;> rfl

/-- A unit keeps its place during a turn. -/
lemma place_run (k : Task) (s : Setting) (n : Node) (t : Turn) :
    (k.run s n t).1.place = n.place := by
  cases k with
  | activate => exact place_activate s n t
  | install next active =>
    simp only [run, Node.install]
    split
    · exact place_activate ..
    · rfl
  | _ => rfl

end Task

/-- What a unit does in a turn that it is given is under every rule that holds of entries in the
chronicle. -/
lemma Turn.HookRule.task {R : Turn → Turn → Prop} (K : Turn.HookRule R) (k : Task) (s : Setting)
    (n : Node) (t : Turn) : R t (k.run s n t).2 := by
  cases k with
  | activate => exact K.activate ..
  | install next active =>
    have hattach := K.attach s next n.iteration t
    simp only [Task.run, Node.install]
    split
    · exact K.trans hattach (K.activate ..)
    · exact hattach
  | stop => exact K.runHook ..
  | reset => exact K.runHook ..
  | tick => exact K.tick ..
  | dispose => exact K.dispose ..
  | receive port values => exact K.receive ..
  | invoke c => exact K.invoke ..

end Switchboard
