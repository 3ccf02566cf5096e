import Mathlib
import Switchboard.Proofs.Driving

/-!
# Suspendable evaluation does what direct evaluation does

The main theorem `drive_script` says that a driven stack over the frame of a script comes to the
same as `Direct.evaluate`: the same calls and log lines in the same order, the same ending and
result, the same variables.

The proof is a simulation by evaluations rather than by steps.  `Leads x start good bad` says that
whatever a stack comes to from where the evaluation `x` lands, it comes to from `start` as well;
`good` and `bad` give the stack for the value or the signal of `x`.  Such statements compose along
the recursion of the evaluator (`Leads.bind`), so every kind of frame is met once, with whatever
lies below it, and the scripts inside scripts are the induction hypothesis.
-/

namespace Switchboard

open FrameStack Direct

/-- The frame that has ended with a signal. -/
def Signal.frame : Signal → Frame
  | .error f => .error f
  | .break => .done .break []
  | .continue => .done .continue []

/-- How a frame ends that comes to a result or to a signal. -/
def landing : Except Signal (List Value) → Frame
  | .ok result => .ok result
  | .error e => e.frame

/-- The ending and the result of what an evaluation comes to. -/
def verdict : Except Signal (List Value) → Ending × List Value
  | .ok result => (.ok, result)
  | .error (.error f) => (.error, [.fault f])
  | .error .break => (.break, [])
  | .error .continue => (.continue, [])

/-- A frame lands in the ending and with the result of what the evaluation comes to. -/
lemma landing_eq_done (x : Except Signal (List Value)) :
    landing x = .done (verdict x).1 (verdict x).2 := by
  rcases x with (f | _ | _) | result <;> rfl

/-- The fault that a failure carries is the one it was made with. -/
lemma ofArgs_fault (f : Fault) : Fault.ofArgs [.fault f] = f := rfl

/-! ## Sessions and worlds -/

/-- A session has come as far as a direct evaluation: both have the same scopes, the same answers
still to come and the same effects so far, and no call of the run under way is waited for. -/
structure Session.Agrees (σ : Session) (w : World) : Prop where
  scopes : σ.work.scopes = w.scopes
  answers : σ.answers = w.answers
  effects : σ.past ++ σ.work.effects = w.effects
  sent : σ.work.sent = []

/-- The session with other scopes. -/
def Session.withScopes (σ : Session) (s : Scopes) : Session :=
  { σ with work := { σ.work with scopes := s } }

/-- The session with one more log line. -/
def Session.withLog (σ : Session) (level : LogLevel) (message : String) : Session :=
  { σ with work := { σ.work with log := σ.work.log ++ [(level, message)] } }

namespace Session.Agrees

variable {σ : Session} {w : World}

/-- Changing the scopes on both sides keeps the agreement. -/
lemma withScopes (h : σ.Agrees w) (s : Scopes) : (σ.withScopes s).Agrees { w with scopes := s } :=
  ⟨rfl, h.answers, h.effects, h.sent⟩

/-- Writing a log line on both sides keeps the agreement. -/
lemma withLog (h : σ.Agrees w) (level : LogLevel) (message : String) :
    (σ.withLog level message).Agrees
      { w with effects := w.effects ++ [.log level message] } := by
  refine ⟨h.scopes, h.answers, ?_, h.sent⟩
  have he := h.effects
  simp only [Workspace.effects, h.sent, List.map_nil, List.append_nil] at he
  simp [Session.withLog, Workspace.effects, h.sent, ← he]

end Session.Agrees

/-! ## Leading from one stack to another -/

section Leads

variable {site : Site} {α β : Type}

/-- The stack for a value or for a signal. -/
def resting (good : α → FrameStack) (bad : Signal → FrameStack) : Except Signal α → FrameStack
  | .ok a => good a
  | .error e => bad e

/-- Whatever comes of `t`, in any session, comes of `s`. -/
def Passes (site : Site) (s t : FrameStack) : Prop :=
  ∀ σ o, Drives site t σ o → Drives site s σ o

/-- Where `x` comes to a value or a signal, what is driven from the stack for it in an agreeing
session is driven from `start`. -/
def Leads (site : Site) (x : Eval α) (start : FrameStack) (good : α → FrameStack)
    (bad : Signal → FrameStack) : Prop :=
  ∀ ⦃w : World⦄ ⦃outcome : Except Signal α⦄ ⦃w' : World⦄, x w = some (outcome, w') →
    ∀ ⦃σ : Session⦄, σ.Agrees w → ∃ σ' : Session, σ'.Agrees w' ∧
      ∀ o, Drives site (resting good bad outcome) σ' o → Drives site start σ o

/-- A stack passes on to itself. -/
lemma Passes.refl (site : Site) (s : FrameStack) : Passes site s s := fun _ _ hs => hs

/-- A stack passes on to where a step takes it that changes nothing else. -/
lemma Passes.of_step {s t : FrameStack} (h : ∀ w, step site s w = (.goOn t, w)) :
    Passes site s t := fun _ _ ht => Drives.of_step (h _) ht

/-- A stack passes on to another one that makes the same step. -/
lemma Passes.of_step_eq {s t : FrameStack} (h : ∀ w, step site s w = step site t w) :
    Passes site s t := fun _ _ ht => Drives.of_step_eq (h _) ht

namespace Leads

variable {x : Eval α} {start : FrameStack} {good : α → FrameStack} {bad : Signal → FrameStack}

/-- A value leads to the stack for it. -/
lemma pure {a : α} (h : Passes site start (good a)) :
    Leads site (Pure.pure a : Eval α) start good bad := by
  rintro w outcome w' hx σ hσ
  cases hx
  exact ⟨σ, hσ, fun o ho => h σ o ho⟩

/-- A signal leads to the stack for it. -/
lemma signal {e : Signal} (h : Passes site start (bad e)) :
    Leads site (Eval.signal e : Eval α) start good bad := by
  rintro w outcome w' hx σ hσ
  cases hx
  exact ⟨σ, hσ, fun o ho => h σ o ho⟩

/-- What leads on from a stack leads on from each stack that passes on to it. -/
lemma of_passes {t : FrameStack} (h : Passes site start t) (hx : Leads site x t good bad) :
    Leads site x start good bad := by
  intro w outcome w' he σ hσ
  obtain ⟨σ', hσ', hd⟩ := hx he hσ
  exact ⟨σ', hσ', fun o ho => h σ o (hd o ho)⟩

/-- What leads to some stacks leads to those that they pass on to. -/
lemma mono {good' : α → FrameStack} {bad' : Signal → FrameStack}
    (hx : Leads site x start good bad) (hgood : ∀ a, Passes site (good a) (good' a))
    (hbad : ∀ e, Passes site (bad e) (bad' e)) : Leads site x start good' bad' := by
  intro w outcome w' he σ hσ
  obtain ⟨σ', hσ', hd⟩ := hx he hσ
  refine ⟨σ', hσ', fun o ho => hd o ?_⟩
  cases outcome with
  | ok a => exact hgood a σ' o ho
  | error e => exact hbad e σ' o ho

/-- One evaluation after another leads from the first stack over the middle ones to the last. -/
lemma bind {f : α → Eval β} {mid : α → FrameStack} {good : β → FrameStack}
    (hx : Leads site x start mid bad) (hf : ∀ a, Leads site (f a) (mid a) good bad) :
    Leads site (x >>= f) start good bad := by
  intro w outcome w' h σ hσ
  change Eval.andThen x f w = _ at h
  unfold Eval.andThen at h
  match hxw : x w with
  | none => rw [hxw] at h; contradiction
  | some (.error e, v) =>
    rw [hxw] at h
    cases h
    exact hx hxw hσ
  | some (.ok a, v) =>
    rw [hxw] at h
    obtain ⟨σ₁, hσ₁, hd₁⟩ := hx hxw hσ
    obtain ⟨σ₂, hσ₂, hd₂⟩ := hf a h hσ₁
    exact ⟨σ₂, hσ₂, fun o ho => hd₁ o (hd₂ o ho)⟩

/-- An attempt hands on the value or the signal, each with its own stack. -/
lemma attempt {mid : Except Signal α → FrameStack}
    (hx : Leads site x start (fun a => mid (.ok a)) (fun e => mid (.error e))) :
    Leads site x.attempt start mid bad := by
  intro w outcome w' h σ hσ
  obtain ⟨⟨a, v⟩, ha, hv⟩ := Option.map_eq_some_iff.mp h
  cases hv
  obtain ⟨σ', hσ', hd⟩ := hx ha hσ
  exact ⟨σ', hσ', fun o ho => hd o (by cases a <;> exact ho)⟩

/-- A change of the scopes leads to where a step takes the stack that makes the same change. -/
lemma modifyScopes {f : Scopes → Scopes} {good : Unit → FrameStack}
    (h : ∀ w, step site start w = (.goOn (good ()), { w with scopes := f w.scopes })) :
    Leads site (Eval.modifyScopes f) start good bad := by
  intro w outcome w' hx σ hσ
  cases hx
  refine ⟨σ.withScopes (f w.scopes), hσ.withScopes _, fun o ho => Drives.of_step (h _) ?_⟩
  rw [hσ.scopes]
  exact ho

/-- The answer to a call leads to the frame that it becomes. -/
lemma call {source : Endpoint} (hsite : site.replyTo = some source) {target : Endpoint}
    {args : List Value} {below : List Pending} :
    Leads site (Eval.call target args) ⟨some (.call target args), below⟩
      (fun result => ⟨some (.ok result), below⟩) (fun e => ⟨some e.frame, below⟩) := by
  intro w outcome w' hx σ hσ
  unfold Eval.call at hx
  cases ha : w.answers with
  | nil => rw [ha] at hx; contradiction
  | cons a rest =>
    rw [ha] at hx
    -- The run under way ends here, and the answer is the first frame of the next one.
    refine ⟨{ work := { scopes := σ.work.scopes
                        ledger := (σ.work.ledger.request target source site.time args).2 }
              past := σ.past ++ σ.work.effects ++ [.call target args]
              answers := rest },
            ?_, fun o ho => Drives.of_call hsite hσ.sent (hσ.answers.trans ha) ?_⟩
    · cases a <;> cases hx <;>
        exact ⟨hσ.scopes, rfl, by simp [Workspace.effects, ← hσ.effects], rfl⟩
    · cases a <;> cases hx <;> exact ho

end Leads

/-- An evaluation is what a frame does, whatever lies below it. -/
def Performs (site : Site) (x : Eval (List Value)) (f : Frame) : Prop :=
  ∀ below, Leads site x ⟨some f, below⟩ (fun result => ⟨some (.ok result), below⟩)
    fun e => ⟨some e.frame, below⟩

end Leads

section Performs

variable {site : Site}

/-- A result is what an ended frame does. -/
lemma performs_pure (result : List Value) : Performs site (pure result) (.ok result) :=
  fun _ => Leads.pure (Passes.refl site _)

/-- A signal is what a frame does that has ended with it. -/
lemma performs_signal (e : Signal) : Performs site (Eval.signal e) e.frame :=
  fun _ => Leads.signal (Passes.refl site _)

/-- Writing a log line is what a log frame does. -/
lemma performs_log (args : List Value) :
    Performs site (writeLog args)
      (.log (Command.logLine args).1 (Command.spaced (Command.logLine args).2)) := by
  intro below w outcome w' hx σ hσ
  cases hx
  refine ⟨σ.withLog (Command.logLine args).1 (Command.spaced (Command.logLine args).2),
    hσ.withLog _ _, fun o ho => ?_⟩
  exact Drives.of_step rfl ho

/-- A call is what a call frame does, where its answer has somewhere to go. -/
lemma performs_call {source : Endpoint} (hsite : site.replyTo = some source) (target : Endpoint)
    (args : List Value) : Performs site (Eval.call target args) (.call target args) :=
  fun _ => Leads.call hsite

end Performs

/-! ## Lines under way -/

/-- A script on a line. -/
def ScriptRun.onLine (run : ScriptRun) (l : LineRun) : ScriptRun :=
  { run with entry := [], current := some l }

section Lines

variable {site : Site} {run : ScriptRun} {below : List Pending}

/-- The stack of a script on a line. -/
def lineStack (run : ScriptRun) (below : List Pending) (l : LineRun) : FrameStack :=
  ⟨some (.script (run.onLine l)), below⟩

/-- The stack on which the command of the line with this number has come to a frame. -/
def commandStack (run : ScriptRun) (below : List Pending) (number : ℕ) (f : Frame) : FrameStack :=
  ⟨some f, .command (run.onLine ⟨number, [], none, []⟩) :: below⟩

/-- Failing looks at nothing of the line but its number. -/
lemma fail_spent (l : LineRun) (s : Scopes) (f : Fault) :
    (run.onLine l.spent).fail s f = (run.onLine l).fail s f := by
  rfl

/-- A word that fails fails its line, as a command does. -/
lemma step_word_eq_command (l : LineRun) (e : Signal) (w : Workspace) :
    step site ⟨some e.frame, .word (run.onLine l) :: below⟩ w =
      step site (commandStack run below l.number e.frame) w := by
  cases e with
  | error f =>
    have hf : (run.onLine l.spent).fail w.scopes f = (run.onLine l).fail w.scopes f :=
      fail_spent l w.scopes f
    rw [LineRun.spent] at hf
    simp only [commandStack, Signal.frame, Frame.error, step, resume, ofArgs_fault, hf]
  | _ => rfl

/-- A step of a script on a line: a fault fails the line, a substitution runs as a frame, and so
does the command once all words have values. -/
lemma step_lineStack (l : LineRun) (w : Workspace) :
    step site (lineStack run below l) w =
      match l.eval w.scopes run.scope with
      | .failed f => step site (commandStack run below l.number (.error f)) w
      | .substitution l' script =>
        (.goOn ⟨some (.ofScript script run.scope false), .word (run.onLine l') :: below⟩, w)
      | .words vs =>
        match commandFrame w.scopes run.scope vs with
        | .error f => step site (commandStack run below l.number (.error f)) w
        | .ok (child, s) =>
          (.goOn (commandStack run below l.number child), { w with scopes := s }) := by
  have hcmd : ∀ f, step site (commandStack run below l.number (.error f)) w =
      (.goOn (ofStep ((run.onLine l).fail w.scopes f).1 below),
        { w with scopes := ((run.onLine l).fail w.scopes f).2 }) := by
    intro f
    have hf : (run.onLine l.spent).fail w.scopes f = (run.onLine l).fail w.scopes f :=
      fail_spent l w.scopes f
    rw [LineRun.spent] at hf
    simp only [commandStack, Frame.error, step, resume, ofArgs_fault, hf]
  have hstep : step site (lineStack run below l) w =
      (.goOn (ofStep ((run.onLine l).step w.scopes).1 below),
        { w with scopes := ((run.onLine l).step w.scopes).2 }) := rfl
  rw [hstep, ScriptRun.step]
  simp only [ScriptRun.onLine, List.isEmpty_nil, Bool.not_true, Bool.false_eq_true, ↓reduceIte]
  cases l.eval w.scopes run.scope with
  | failed f => exact (hcmd f).symm
  | substitution l' script => rfl
  | words vs =>
    cases hc : commandFrame w.scopes run.scope vs with
    | error f =>
      simp only [hc]
      exact (hcmd f).symm
    | ok x =>
      simp only [hc]
      rfl

/-- Lines of one number that evaluate to the same make the same step. -/
lemma step_lineStack_congr {l l' : LineRun} {w : Workspace} (hnumber : l.number = l'.number)
    (heval : l.eval w.scopes run.scope = l'.eval w.scopes run.scope) :
    step site (lineStack run below l) w = step site (lineStack run below l') w := by
  rw [step_lineStack, step_lineStack, hnumber, heval]

/-! ### Words -/

/-- A variable in a line leads on with its value, or fails the line. -/
lemma leads_lookUp {l : LineRun} {name : String} {good : Value → FrameStack}
    (hsome : ∀ (w : Workspace) v, w.scopes.get? run.scope name = some v →
      step site (lineStack run below l) w = step site (good v) w)
    (hnone : ∀ s, s.get? run.scope name = none →
      l.eval s run.scope = .failed (Command.noVariable name)) :
    Leads site (lookUp run.scope name) (lineStack run below l) good
      (fun e => commandStack run below l.number e.frame) := by
  intro w outcome w' hx σ hσ
  cases hv : w.scopes.get? run.scope name with
  | some v =>
    rw [lookUp_eq_ok hv] at hx
    cases hx
    rw [← hσ.scopes] at hv
    exact ⟨σ, hσ, fun o ho => Drives.of_step_eq (hsome σ.work v hv) ho⟩
  | none =>
    rw [lookUp_eq_error hv] at hx
    cases hx
    rw [← hσ.scopes] at hv
    refine ⟨σ, hσ, fun o ho => Drives.of_step_eq ?_ ho⟩
    rw [step_lineStack, hnone _ hv]
    rfl

variable {R : ScopeRef → Script → Eval (List Value)}
  (hR : ∀ r s, Performs site (R r s) (.ofScript s r false))

include hR

/-- A substitution runs as a frame and leads on with what the line takes from its result. -/
lemma leads_substitution (l l' : LineRun) {script : Script} (hnumber : l'.number = l.number)
    (heval : ∀ s, l.eval s run.scope = .substitution l' script) :
    Leads site (R run.scope script) (lineStack run below l)
      (fun result => lineStack run below (l'.take result))
      (fun e => commandStack run below l.number e.frame) := by
  have hpush : Passes site (lineStack run below l)
      ⟨some (.ofScript script run.scope false), .word (run.onLine l') :: below⟩ := by
    refine Passes.of_step fun w => ?_
    rw [step_lineStack, heval]
  refine Leads.of_passes hpush ((hR run.scope script _).mono (fun result => ?_) fun e => ?_)
  · exact Passes.of_step fun w => rfl
  · refine Passes.of_step_eq fun w => ?_
    rw [step_word_eq_command, hnumber]

/-- A part of a word leads on with the text behind which it is put. -/
lemma leads_part (number : ℕ) (ready : List Value) (todo : List ScriptWord) (text : String)
    (rest : List ScriptPart) (p : ScriptPart) :
    Leads site (part R run.scope p)
      (lineStack run below ⟨number, ready, some (text, p :: rest), todo⟩)
      (fun t => lineStack run below ⟨number, ready, some (text ++ t, rest), todo⟩)
      (fun e => commandStack run below number e.frame) := by
  cases p with
  | text t => exact Leads.pure (Passes.of_step_eq fun w => step_lineStack_congr rfl rfl)
  | variableRef name =>
    have hv : Leads site (lookUp run.scope name)
        (lineStack run below ⟨number, ready, some (text, .variableRef name :: rest), todo⟩)
        (fun v => lineStack run below ⟨number, ready, some (text ++ v.render, rest), todo⟩)
        (fun e => commandStack run below number e.frame) := by
      refine leads_lookUp (fun w v hv => step_lineStack_congr rfl ?_) fun s hs => ?_
      · simp only [LineRun.eval, evalParts, hv]
      · simp only [LineRun.eval, evalParts, hs]
    exact Leads.bind hv fun v => Leads.pure (Passes.refl site _)
  | substitution script =>
    exact Leads.bind (leads_substitution hR
      ⟨number, ready, some (text, .substitution script :: rest), todo⟩
      ⟨number, ready, some (text, rest), todo⟩ rfl fun s => rfl)
      fun result => Leads.pure (Passes.refl site _)

/-- The parts of a word lead on with the word that they make. -/
lemma leads_parts (number : ℕ) (ready : List Value) (todo : List ScriptWord) (text : String)
    (ps : List ScriptPart) :
    Leads site (parts R run.scope text ps)
      (lineStack run below ⟨number, ready, some (text, ps), todo⟩)
      (fun t => lineStack run below ⟨number, ready ++ [.text t], none, todo⟩)
      (fun e => commandStack run below number e.frame) := by
  induction ps generalizing text with
  | nil => exact Leads.pure (Passes.of_step_eq fun w => step_lineStack_congr rfl rfl)
  | cons p rest ih =>
    exact Leads.bind (leads_part hR number ready todo text rest p) fun t => ih (text ++ t)

/-- A word leads on with its value behind those of the words before it. -/
lemma leads_word (number : ℕ) (ready : List Value) (todo : List ScriptWord) (x : ScriptWord) :
    Leads site (word R run.scope x) (lineStack run below ⟨number, ready, none, x :: todo⟩)
      (fun v => lineStack run below ⟨number, ready ++ [v], none, todo⟩)
      (fun e => commandStack run below number e.frame) := by
  cases x with
  | literal text => exact Leads.pure (Passes.of_step_eq fun w => step_lineStack_congr rfl rfl)
  | block text => exact Leads.pure (Passes.of_step_eq fun w => step_lineStack_congr rfl rfl)
  | variableRef name =>
    refine leads_lookUp (fun w v hv => ?_) fun s hs => ?_
    · refine step_lineStack_congr rfl ?_
      simp only [LineRun.eval, evalWords, hv]
    · simp only [LineRun.eval, evalWords, hs]
  | substitution script =>
    exact Leads.bind (leads_substitution hR ⟨number, ready, none, .substitution script :: todo⟩
      ⟨number, ready, none, todo⟩ rfl fun s => rfl)
      fun result => Leads.pure (Passes.refl site _)
  | quoted ps =>
    -- A word of parts that has not been begun is one that has been begun with no text.
    refine Leads.of_passes (Passes.of_step_eq fun w => ?_)
      (Leads.bind (leads_parts hR number ready todo "" ps) fun t => Leads.pure (Passes.refl site _))
    refine step_lineStack_congr rfl ?_
    simp only [LineRun.eval, evalWords]

/-- The words of a line lead on with their values. -/
lemma leads_words (number : ℕ) (ready : List Value) (todo : List ScriptWord) :
    Leads site (words R run.scope ready todo) (lineStack run below ⟨number, ready, none, todo⟩)
      (fun vs => lineStack run below ⟨number, vs, none, []⟩)
      (fun e => commandStack run below number e.frame) := by
  induction todo generalizing ready with
  | nil => exact Leads.pure (Passes.refl site _)
  | cons x rest ih =>
    exact Leads.bind (leads_word hR number ready rest x) fun v => ih (ready ++ [v])

end Lines

/-! ## Commands -/

/-- An evaluation is what a command does: it comes to the same fault at once, or it changes the
scopes in the same way and is then what the frame of the command does. -/
def Runs (site : Site) (x : Eval (List Value)) (c : Scopes → CommandResult) : Prop :=
  ∀ w : World, match c w.scopes with
  | .error f => x w = some (.error (.error f), w)
  | .ok (child, s) => ∃ y, Performs site y child ∧ x w = y { w with scopes := s }

section Commands

variable {site : Site} {r : ScopeRef}

/-- A fault is what a command does that fails at once. -/
lemma runs_fault (f : Fault) : Runs site (Eval.signal (.error f)) fun _ => .error f :=
  fun _ => rfl

/-- A command that only makes a frame does what the frame does. -/
lemma runs_frame {x : Eval (List Value)} {f : Frame} (h : Performs site x f) :
    Runs site x fun s => .ok (f, s) := fun _ => ⟨x, h, rfl⟩

/-- `set` does what its evaluation does. -/
lemma runs_set (args : List Value) : Runs site (set r args) (Command.set · r args) := by
  match args with
  | [] => exact runs_fault _
  | [name] =>
    intro w
    cases hv : w.scopes.get? r name.render with
    | none =>
      simp only [Command.set, hv]
      exact Eval.bind_eq_of_eq_error (lookUp_eq_error hv) _
    | some v =>
      simp only [Command.set, hv]
      exact ⟨_, performs_pure [v], Eval.bind_eq_of_eq_ok (lookUp_eq_ok hv) _⟩
  | [name, v] => exact fun w => ⟨_, performs_pure [v], rfl⟩
  | _ :: _ :: _ :: _ => exact runs_fault _

/-- Adding to a variable does what its evaluation does. -/
lemma runs_add (name : String) (amount : Int64) :
    Runs site (add r name amount) (Command.add · r name amount) := by
  intro w
  simp only [Command.add, add, Eval.scopes_bind]
  cases Command.counter w.scopes r name with
  | error f => rfl
  | ok n => exact ⟨_, performs_pure [.int (n + amount)], rfl⟩

/-- `incr` does what its evaluation does. -/
lemma runs_incr (args : List Value) : Runs site (incr r args) (Command.incr · r args) := by
  match args with
  | [] => exact runs_fault _
  | [name] => exact runs_add name.render 1
  | [name, amount] =>
    simp only [incr, Command.incr]
    cases amount.int? with
    | none => exact runs_fault _
    | some n => exact runs_add name.render n
  | _ :: _ :: _ :: _ => exact runs_fault _

/-- `error` does what its evaluation does. -/
lemma runs_error (args : List Value) : Runs site (error args) (Command.error · args) := by
  by_cases hfault : ∃ f, args = [.fault f]
  · obtain ⟨f, rfl⟩ := hfault
    exact runs_frame (performs_signal (.error f))
  · have heval : error args = Eval.signal (.error (.script (Command.spaced args))) := by
      unfold error
      split
      · exact absurd ⟨_, rfl⟩ hfault
      · rfl
    have hcommand : ∀ s, Command.error s args =
        .ok (.error (.script (Command.spaced args)), s) := by
      intro s
      unfold Command.error
      split
      · exact absurd ⟨_, rfl⟩ hfault
      · rfl
    rw [heval, funext hcommand]
    exact runs_frame (performs_signal (.error _))

/-- A word that stands for an endpoint, or for nothing, does what its evaluation does. -/
lemma runs_outward {source : Endpoint} (hsite : site.replyTo = some source) (word : String)
    (args : List Value) :
    Runs site (outward r word args) fun s =>
      let named (e : Except Fault Endpoint) : CommandResult :=
        e.map fun target => (.call target args, s)
      if word.toList.head? = some '.' then
        named (CommandWord.relative ((s.get? r contextVariable).bind Value.path?) word)
      else if word.toList.contains '/' && word.toList.contains '.' then
        named (CommandWord.absolute word)
      else .error (.script ("unknown command '" ++ word ++ "'")) := by
  intro w
  unfold outward
  by_cases hdot : word.toList.head? = some '.'
  · simp only [hdot, ↓reduceIte, Eval.scopes_bind]
    cases CommandWord.relative ((w.scopes.get? r contextVariable).bind Value.path?) word with
    | error f => rfl
    | ok target => exact ⟨_, performs_call hsite target args, rfl⟩
  · by_cases hslash : (word.toList.contains '/' && word.toList.contains '.') = true
    · simp only [hdot, hslash, ↓reduceIte]
      cases CommandWord.absolute word with
      | error f => rfl
      | ok target => exact ⟨_, performs_call hsite target args, rfl⟩
    · simp only [hdot, hslash, ↓reduceIte]
      rfl

/-! ### Commands that run scripts -/

variable {R : ScopeRef → Script → Eval (List Value)}
  (hR : ∀ r s, Performs site (R r s) (.ofScript s r false))

include hR

/-- The rounds of a loop are what its frame does. -/
lemma performs_rounds (name : String) (body : Script) (last items : List Value) :
    Performs site (rounds R r name body last items) (.loop ⟨r, name, items, body, last⟩) := by
  intro below
  induction items generalizing last with
  | nil => exact Leads.pure (Passes.of_step fun w => rfl)
  | cons item items ih =>
    -- A round runs the body above the loop, which looks at how it has ended.
    have hround : Leads site (R r body).attempt
        ⟨some (.ofScript body r false), .loop ⟨r, name, items, body, last⟩ :: below⟩
        (fun outcome => ⟨some (landing outcome), .loop ⟨r, name, items, body, last⟩ :: below⟩)
        (fun e => ⟨some e.frame, below⟩) := Leads.attempt (hR r body _)
    refine Leads.bind (Leads.modifyScopes fun w => rfl) fun _ => Leads.bind hround fun outcome => ?_
    match outcome with
    | .ok result => exact Leads.of_passes (Passes.of_step fun w => rfl) (ih result)
    | .error .continue => exact Leads.of_passes (Passes.of_step fun w => rfl) (ih last)
    | .error .break => exact Leads.pure (Passes.of_step fun w => rfl)
    | .error (.error f) => exact Leads.signal (Passes.of_step fun w => rfl)

/-- `foreach` does what its evaluation does. -/
lemma runs_foreach (args : List Value) :
    Runs site (foreach R r args) (Command.foreach · r args) := by
  match args with
  | [] => exact runs_fault _
  | [_] => exact runs_fault _
  | [_, _] => exact runs_fault _
  | [name, items, code] =>
    intro w
    simp only [Command.foreach, foreach]
    cases Command.body code with
    | error f => rfl
    | ok body => exact ⟨_, performs_rounds hR name.render body [] items.toList, rfl⟩
  | _ :: _ :: _ :: _ :: _ => exact runs_fault _

/-- A guarded script is what a frame does that makes the same of its faults. -/
lemma performs_guarded (body : Script) {fallback : Fault → Eval (List Value)} {g : Fault → Frame}
    (h : ∀ f, Performs site (fallback f) (g f)) :
    Performs site (guarded R r body fallback) (.onFail (.ofScript body r false) g) := by
  intro below
  have hbody : Leads site (R r body).attempt ⟨some (.onFail (.ofScript body r false) g), below⟩
      (fun outcome => ⟨some (landing outcome), .onFail g :: below⟩)
      (fun e => ⟨some e.frame, below⟩) :=
    Leads.of_passes (Passes.of_step fun w => rfl) (Leads.attempt (hR r body _))
  refine Leads.bind hbody fun outcome => ?_
  match outcome with
  | .ok result => exact Leads.pure (Passes.of_step fun w => rfl)
  | .error .continue => exact Leads.signal (Passes.of_step fun w => rfl)
  | .error .break => exact Leads.signal (Passes.of_step fun w => rfl)
  | .error (.error f) =>
    -- What the fallback comes to is relayed.
    refine Leads.of_passes (Passes.of_step fun w => rfl)
      ((h f _).mono (fun result => ?_) fun e => ?_)
    · exact Passes.of_step fun w => rfl
    · exact Passes.of_step fun w => by cases e <;> rfl

/-- A handler with the fault in its variable is what its frame does. -/
lemma performs_ofFallback (handler : Script) (f : Fault) :
    Performs site
      (do Eval.modifyScopes (·.set r errorVariable (.fault f)); R r handler)
      (.ofFallback handler r f) := by
  intro below
  exact Leads.bind (Leads.modifyScopes fun w => rfl) fun _ => hR r handler below

/-- `try` does what its evaluation does. -/
lemma runs_try (args : List Value) : Runs site (try_ R r args) (Command.try_ · r args) := by
  match args with
  | [] => exact runs_fault _
  | [code] =>
    intro w
    simp only [Command.try_, try_]
    cases Command.body code with
    | error f => rfl
    | ok body => exact ⟨_, performs_guarded hR body fun f => performs_pure [.fault f], rfl⟩
  | [code, fallback] =>
    intro w
    simp only [Command.try_, try_]
    cases Command.body code with
    | error f => rfl
    | ok body =>
      cases Command.body fallback with
      | error f => rfl
      | ok handler =>
        exact ⟨_, performs_guarded hR body fun f => performs_ofFallback hR handler f, rfl⟩
  | _ :: _ :: _ :: _ => exact runs_fault _

/-- `eval` does what its evaluation does. -/
lemma runs_eval (args : List Value) : Runs site (eval R r args) (Command.eval · r args) := by
  intro w
  simp only [Command.eval, eval]
  cases args.isEmpty with
  | true => rfl
  | false =>
    simp only [Bool.false_eq_true, ↓reduceIte]
    cases Command.body (.text (Command.spaced args)) with
    | error f => rfl
    | ok body => exact ⟨_, hR (w.scopes.newChild r).1 body, rfl⟩

/-- A built-in command does what its evaluation does. -/
lemma runs_builtin (b : Builtin) (args : List Value) :
    Runs site (builtin R r b args) (b.run · r args) := by
  cases b with
  | set => exact runs_set args
  | list => exact runs_frame (performs_pure [.list args])
  | incr => exact runs_incr args
  | error => exact runs_error args
  | «break» => exact runs_frame (performs_signal .break)
  | «continue» => exact runs_frame (performs_signal .continue)
  | foreach => exact runs_foreach hR args
  | «try» => exact runs_try hR args
  | eval => exact runs_eval hR args
  | log => exact runs_frame (performs_log args)

/-- The command of a line does what its evaluation does. -/
lemma runs_command {source : Endpoint} (hsite : site.replyTo = some source) (vs : List Value) :
    Runs site (command R r vs) (commandFrame · r vs) := by
  unfold command
  split
  · exact runs_frame (performs_pure [])
  · exact runs_frame (performs_call hsite _ _)
  · rename_i head args hne
    intro w
    rw [Eval.scopes_bind]
    beta_reduce
    rw [commandFrame]
    cases w.scopes.command? r head.render with
    | some b => exact runs_builtin hR b args w
    | none => exact runs_outward hsite head.render args w
    exact hne

end Commands

/-! ## Scripts -/

section Scripts

variable {site : Site} {r : ScopeRef} {R : ScopeRef → Script → Eval (List Value)}
  (hR : ∀ r s, Performs site (R r s) (.ofScript s r false))

/-- A command leads on from its line to the frame that it becomes. -/
lemma leads_of_runs {run : ScriptRun} {below : List Pending} {number : ℕ} {vs : List Value}
    {x : Eval (List Value)} (hx : Runs site x (commandFrame · run.scope vs)) :
    Leads site x (lineStack run below ⟨number, vs, none, []⟩)
      (fun result => commandStack run below number (.ok result))
      (fun e => commandStack run below number e.frame) := by
  intro w outcome w' h σ hσ
  have hw := hx w
  have hstep : step site (lineStack run below ⟨number, vs, none, []⟩) σ.work = _ :=
    step_lineStack ⟨number, vs, none, []⟩ σ.work
  simp only [LineRun.eval, evalWords] at hstep
  rw [← hσ.scopes] at hw
  beta_reduce at hw
  cases hc : commandFrame σ.work.scopes run.scope vs with
  | error f =>
    rw [hc] at hw hstep
    rw [hw] at h
    cases h
    exact ⟨σ, hσ, fun o ho => Drives.of_step_eq hstep ho⟩
  | ok p =>
    obtain ⟨child, s⟩ := p
    rw [hc] at hw hstep
    obtain ⟨y, hy, hxy⟩ := hw
    rw [hxy] at h
    obtain ⟨σ', hσ', hd⟩ :=
      hy (.command (run.onLine ⟨number, [], none, []⟩) :: below) h (hσ.withScopes s)
    exact ⟨σ', hσ', fun o ho => Drives.of_step hstep (hd o ho)⟩

include hR

/-- A line leads on to the ending of its command. -/
lemma leads_line {source : Endpoint} (hsite : site.replyTo = some source) (run : ScriptRun)
    (below : List Pending) (l : ScriptLine) :
    Leads site (line R run.scope l) (lineStack run below ⟨l.number, [], none, l.words⟩)
      (fun result => commandStack run below l.number (.ok result))
      (fun e => commandStack run below l.number e.frame) :=
  Leads.bind (leads_words hR l.number [] l.words) fun vs =>
    leads_of_runs (runs_command hR hsite vs)

/-- The lines of a script lead on to its ending. -/
lemma leads_lines {source : Endpoint} (hsite : site.replyTo = some source) (below : List Pending)
    (trap : Bool) (trapped : List String) (last : List Value) (rest : List ScriptLine) :
    Leads site (lines R r trap trapped last rest)
      ⟨some (.script ⟨r, trap, [], none, rest, trapped, last⟩), below⟩
      (fun result => ⟨some (.ok result), below⟩) (fun e => ⟨some e.frame, below⟩) := by
  induction rest generalizing trapped last with
  | nil =>
    simp only [lines]
    cases ht : trapped.isEmpty with
    | true =>
      refine Leads.pure (Passes.of_step fun w => ?_)
      simp [step, ScriptRun.step, ScriptRun.complete, ht, ofStep, Frame.ok]
    | false =>
      refine Leads.signal (Passes.of_step fun w => ?_)
      simp [step, ScriptRun.step, ScriptRun.complete, ht, ofStep, Signal.frame, Frame.error]
  | cons l rest ih =>
    have hline : Leads site (line R r l).attempt
        ⟨some (.script ⟨r, trap, [], none, l :: rest, trapped, last⟩), below⟩
        (fun outcome =>
          commandStack ⟨r, trap, [], none, rest, trapped, last⟩ below l.number (landing outcome))
        (fun e => ⟨some e.frame, below⟩) :=
      Leads.of_passes (Passes.of_step fun w => rfl) (Leads.attempt (leads_line hR hsite
        ⟨r, trap, [], none, rest, trapped, last⟩ below l))
    refine Leads.bind hline fun outcome => ?_
    cases outcome with
    | ok result => exact Leads.of_passes (Passes.of_step fun w => rfl) (ih trapped result)
    | error e =>
      cases e with
      | «continue» => exact Leads.signal (Passes.of_step fun w => rfl)
      | «break» => exact Leads.signal (Passes.of_step fun w => rfl)
      | error f =>
        cases trap with
        | true =>
          exact Leads.bind (Leads.modifyScopes fun w => rfl) fun _ =>
            ih (trapped ++ [failureText l f]) last
        | false => exact Leads.signal (Passes.of_step fun w => rfl)

/-- A script is what its frame does. -/
lemma performs_script {source : Endpoint} (hsite : site.replyTo = some source) (trap : Bool)
    (s : Script) : Performs site (script R r trap s) (.ofScript s r trap) := by
  intro below
  cases trap with
  | true =>
    exact Leads.bind (Leads.modifyScopes fun w => rfl) fun _ =>
      leads_lines hR hsite below true [] [] s.lines
  | false => exact leads_lines hR hsite below false [] [] s.lines

end Scripts

/-- The evaluation of a script to any depth is what its frame does. -/
lemma performs_evaluate {site : Site} {source : Endpoint} (hsite : site.replyTo = some source)
    (depth : ℕ) (r : ScopeRef) (trap : Bool) (s : Script) :
    Performs site (evaluate depth r trap s) (.ofScript s r trap) := by
  induction depth generalizing r trap s with
  | zero =>
    intro below w outcome w' h
    contradiction
  | succ depth ih => exact performs_script (fun r s => ih r false s) hsite trap s

/-- Suspendable evaluation agrees with direct evaluation.  Where a script, evaluated directly with
some answers to its calls, comes to an outcome, the stack over its frame that is run, handed the
next answer, run again and so on comes to the same: it is done with that ending and that result, it
has made the same calls and written the same log lines in the same order, it leaves the scopes
alike, and the same answers are left over.  This holds for every bound on the steps of a run that is
large enough. -/
theorem drive_script {site : Site} {source : Endpoint} (hsite : site.replyTo = some source)
    {depth : ℕ} {r : ScopeRef} {trap : Bool} {s : Script} {scopes : Scopes}
    {answers : List Answer} {outcome : Except Signal (List Value)} {w : World}
    (h : evaluate depth r trap s { scopes, answers } = some (outcome, w)) (ledger : Ledger) :
    ∃ bound, ∀ limit, bound ≤ limit →
      drive site limit (.ofFrame (.ofScript s r trap)) { scopes, ledger } [] answers =
        some ⟨(verdict outcome).1, (verdict outcome).2, w.scopes, w.effects, w.answers⟩ := by
  have hσ : Session.Agrees ⟨{ scopes, ledger }, [], answers⟩ { scopes, answers } :=
    ⟨rfl, rfl, rfl, rfl⟩
  obtain ⟨σ, hσ', hd⟩ := performs_evaluate hsite depth r trap s [] h hσ
  -- The stack on which the evaluation lands is one whose last frame has ended.
  have hrest : resting (fun result => ⟨some (.ok result), []⟩)
      (fun e => ⟨some e.frame, []⟩) outcome =
        (⟨some (.done (verdict outcome).1 (verdict outcome).2), []⟩ : FrameStack) := by
    rw [← landing_eq_done]
    cases outcome <;> rfl
  have hdone : Drives site ⟨some (.done (verdict outcome).1 (verdict outcome).2), []⟩ σ _ :=
    Drives.of_done (verdict outcome).1 (verdict outcome).2
  rw [hσ'.scopes, hσ'.effects, hσ'.answers] at hdone
  rw [hrest] at hd
  obtain ⟨bound, hb⟩ := hd _ hdone
  exact ⟨bound, fun limit hl => drive_mono hl hb⟩

/-- A script that sets `x` to what the endpoint in `unit` answers to `now`. -/
def asking : Script :=
  let ask : Script := ⟨[⟨1, [.variableRef "unit", .block "now"]⟩], "$unit {now}"⟩
  ⟨[⟨1, [.literal "set", .literal "x", .substitution ask]⟩], "set x [$unit {now}]"⟩

/-- An endpoint for `asking`. -/
def clock : Endpoint := ⟨⟨⟨"house", by decide⟩, []⟩, ⟨"clock", by decide⟩⟩

/-- Scopes for `asking`. -/
def askingScopes : Scopes := ⟨[⟨[("unit", .address (.endpoint clock))], [("set", .set)]⟩]⟩

/-- A script that stops within a word takes the answer as that word. -/
theorem drive_asking :
    evaluate 2 ⟨0, []⟩ false asking ⟨askingScopes, [.reply [.int 3]], []⟩ =
        some (.ok [.int 3],
          ⟨askingScopes.set ⟨0, []⟩ "x" (.int 3), [], [.call clock [.text "now"]]⟩) ∧
      ∃ bound, ∀ limit, bound ≤ limit →
        drive ⟨0, some clock⟩ limit (.ofFrame (.ofScript asking ⟨0, []⟩ false))
            { scopes := askingScopes } [] [.reply [.int 3]] =
          some ⟨.ok, [.int 3], askingScopes.set ⟨0, []⟩ "x" (.int 3),
            [.call clock [.text "now"]], []⟩ := by
  have h : evaluate 2 ⟨0, []⟩ false asking ⟨askingScopes, [.reply [.int 3]], []⟩ =
      some (.ok [.int 3],
        ⟨askingScopes.set ⟨0, []⟩ "x" (.int 3), [], [.call clock [.text "now"]]⟩) := by
    rfl
  exact ⟨h, drive_script rfl h {}⟩

end Switchboard
