import Mathlib
import Switchboard.FrameStack

/-!
# Where scripts write

Scripts change scopes in two ways: they set variables, each in the scope of its own, and they open
new scopes inside of others.  What holds of these two changes holds of everything that scripts do.
Which scopes are written in and what is kept thereby is a `WriteRule`; the frames that come of
frames under such a rule are under it too, and whatever they do keeps what the rule says
(`FrameStack.Within.step`).
-/

namespace Switchboard

/-! ## Rules -/

/-- In which scopes scripts write, and what is kept of a store when they do. -/
structure WriteRule where
  /-- The references that scripts write through. -/
  inside : ScopeRef → Prop
  /-- The stores in which they may run. -/
  admits : Scopes → Prop
  /-- What is kept when a store becomes another one. -/
  keeps : Scopes → Scopes → Prop
  refl : ∀ s, keeps s s
  trans : ∀ {s t u}, keeps s t → keeps t u → keeps s u
  set : ∀ {s r}, inside r → ∀ name v, keeps s (s.set r name v)
  newChild : ∀ {s}, admits s → ∀ r, keeps s (s.newChild r).2 ∧ inside (s.newChild r).1

namespace WriteRule

variable (K : WriteRule) {s : Scopes} {r : ScopeRef}

/-- Variables are set in turn. -/
lemma setAll (hr : K.inside r) (entries : List (String × Value)) :
    K.keeps s (s.setAll r entries) := by
  induction entries generalizing s with
  | nil => exact K.refl s
  | cons e entries ih => exact K.trans (K.set hr e.1 e.2) ih

/-- A value is added to a list. -/
lemma push (hr : K.inside r) (name : String) (v : Value) : K.keeps s (s.push r name v) :=
  K.set hr name _

end WriteRule

/-! ## Frames -/

/-- Whether a frame, and every frame that it goes on with, writes under a rule. -/
inductive Frame.Within (K : WriteRule) : Frame → Prop
  | done (ending : Ending) (result : List Value) : Within K (.done ending result)
  | call (target : Endpoint) (args : List Value) : Within K (.call target args)
  | waiting (matchId : ℕ) : Within K (.waiting matchId)
  | log (level : LogLevel) (message : String) : Within K (.log level message)
  | andThen {base : Frame} {next : List Value → Frame} (hbase : Within K base)
      (hnext : ∀ result, Within K (next result)) : Within K (.andThen base next)
  | onFail {body : Frame} {fallback : Fault → Frame} (hbody : Within K body)
      (hfallback : ∀ f, Within K (fallback f)) : Within K (.onFail body fallback)
  | script {run : ScriptRun} (h : K.inside run.scope) : Within K (.script run)
  | loop {run : LoopRun} (h : K.inside run.scope) : Within K (.loop run)

/-- Whether what waits goes on with frames that write under a rule. -/
def Pending.Within (K : WriteRule) : Pending → Prop
  | .andThen next => ∀ result, (next result).Within K
  | .onFail fallback => ∀ f, (fallback f).Within K
  | .relay => True
  | .word run | .command run => K.inside run.scope
  | .loop run => K.inside run.scope

/-- Whether all frames of a stack write under a rule. -/
structure FrameStack.Within (K : WriteRule) (s : FrameStack) : Prop where
  top : ∀ f, s.top = some f → f.Within K
  below : ∀ p ∈ s.below, p.Within K

/-- Whether a command keeps what a rule says and comes to a frame under the rule. -/
def CommandResult.Within (K : WriteRule) (s : Scopes) (c : CommandResult) : Prop :=
  ∀ f t, c = .ok (f, t) → K.keeps s t ∧ f.Within K

section Commands

variable {K : WriteRule} {s t : Scopes} {r : ScopeRef}

namespace CommandResult

/-- A command that is refused changes nothing. -/
lemma Within.refused (f : Fault) : Within K s (.error f) := fun _ _ h => by contradiction

/-- A command that comes to a frame. -/
lemma Within.ok {f : Frame} (hkeeps : K.keeps s t) (hf : f.Within K) :
    Within K s (.ok (f, t)) := by
  intro g u h
  cases h
  exact ⟨hkeeps, hf⟩

/-- A command that comes to a frame and changes nothing at once. -/
lemma Within.frame {f : Frame} (hf : f.Within K) : Within K s (.ok (f, s)) :=
  .ok (K.refl s) hf

end CommandResult

namespace Command

open CommandResult

variable (args : List Value)

/-- `set` writes in its own scope. -/
lemma set_within (hr : K.inside r) : Within K s (set s r args) := by
  unfold set
  split
  · split
    · exact .frame (.done ..)
    · exact .refused _
  · exact .ok (K.set hr _ _) (.done ..)
  · exact .refused _

/-- Adding to a variable writes in the own scope. -/
lemma add_within (hr : K.inside r) (name : String) (amount : Int64) :
    Within K s (add s r name amount) := by
  unfold add
  split
  · exact .refused _
  · exact .ok (K.set hr _ _) (.done ..)

/-- `incr` writes in its own scope. -/
lemma incr_within (hr : K.inside r) : Within K s (incr s r args) := by
  unfold incr
  split
  · exact add_within hr _ _
  · split
    · exact .refused _
    · exact add_within hr _ _
  · exact .refused _

/-- `error` writes nowhere. -/
lemma error_within : Within K s (error s args) := by
  unfold error
  split <;> exact .frame (.done ..)

/-- `foreach` comes to a loop in its own scope. -/
lemma foreach_within (hr : K.inside r) : Within K s (foreach s r args) := by
  unfold foreach
  split
  · split
    · exact .refused _
    · exact .frame (.loop hr)
  · exact .refused _

/-- `try` comes to scripts in its own scope. -/
lemma try_within (hr : K.inside r) : Within K s (try_ s r args) := by
  unfold try_
  split
  · split
    · exact .refused _
    · exact .frame (.onFail (.script hr) fun f => .done ..)
  · split
    · exact .refused _
    · exact .refused _
    · exact .frame (.onFail (.script hr) fun f => .script hr)
  · exact .refused _

/-- `eval` comes to a script in a scope that is new, whatever scope it is called in. -/
lemma eval_within (hn : K.admits s) (r : ScopeRef) : Within K s (eval s r args) := by
  unfold eval
  split
  · exact .refused _
  · split
    · exact .refused _
    · obtain ⟨hkeeps, hinner⟩ := K.newChild hn r
      exact .ok hkeeps (.script hinner)

end Command

open CommandResult

/-- Built-in commands write under the rule. -/
lemma Builtin.run_within (b : Builtin) (hr : K.inside r) (hn : K.admits s)
    (args : List Value) : Within K s (b.run s r args) := by
  cases b with
  | set => exact Command.set_within args hr
  | list => exact .frame (.done ..)
  | incr => exact Command.incr_within args hr
  | error => exact Command.error_within args
  | «break» => exact .frame (.done ..)
  | «continue» => exact .frame (.done ..)
  | foreach => exact Command.foreach_within args hr
  | «try» => exact Command.try_within args hr
  | eval => exact Command.eval_within args hn r
  | log => exact .frame (.log ..)

/-- A line writes under the rule. -/
lemma commandFrame_within (hr : K.inside r) (hn : K.admits s) (words : List Value) :
    Within K s (commandFrame s r words) := by
  have hnamed (e : Except Fault Endpoint) (args : List Value) :
      Within K s (e.map fun target => (.call target args, s)) := by
    cases e with
    | error f => exact .refused f
    | ok target => exact .frame (.call ..)
  unfold commandFrame
  split
  · exact .frame (.done ..)
  · exact .frame (.call ..)
  · next head args _ =>
    cases hcommand : s.command? r head.render with
    | some b =>
      simp only [hcommand]
      exact b.run_within hr hn args
    | none =>
      simp only [hcommand]
      split
      · exact hnamed _ _
      · split
        · exact hnamed _ _
        · exact .refused _

end Commands

namespace ScriptRun

/-- Whether a step of a script leads only to what writes under a rule. -/
inductive Step.Within (K : WriteRule) : Step → Prop
  | goOn {run : ScriptRun} (h : K.inside run.scope) : Within K (.goOn run)
  | push {child : Frame} {below : Pending} (hchild : child.Within K)
      (hbelow : below.Within K) : Within K (.push child below)
  | finish (ending : Ending) (result : List Value) : Within K (.finish ending result)

variable {K : WriteRule} {run : ScriptRun} {s : Scopes}

/-- A script that fails writes at most in its own scope, under the rule. -/
lemma fail_within (hrun : K.inside run.scope) (f : Fault) :
    K.keeps s (run.fail s f).2 ∧ (run.fail s f).1.Within K := by
  unfold fail
  split
  · exact ⟨K.refl s, .finish ..⟩
  · exact ⟨K.push hrun _ _, .goOn hrun⟩

/-- A step of a script writes under the rule. -/
lemma step_within (hrun : K.inside run.scope) (hn : K.admits s) :
    K.keeps s (run.step s).2 ∧ (run.step s).1.Within K := by
  unfold step
  split
  · exact ⟨K.setAll hrun _, .goOn hrun⟩
  · split
    · split
      · refine ⟨K.refl s, ?_⟩
        unfold complete
        split <;> exact .finish ..
      · exact ⟨K.refl s, .goOn hrun⟩
    · split
      · exact fail_within hrun _
      · exact ⟨K.refl s, .push (.script hrun) hrun⟩
      · next values _ =>
        split
        · exact fail_within hrun _
        · next child t hchild =>
          obtain ⟨hkeeps, hf⟩ := commandFrame_within hrun hn values child t hchild
          exact ⟨hkeeps, .push hf hrun⟩

end ScriptRun

/-! ## Stacks -/

namespace FrameStack

variable {K : WriteRule} {s : FrameStack} {below : List Pending} {w : Workspace}

/-- A stack by its running frame and those below. -/
lemma Within.mk' {f : Frame} (hf : f.Within K) (hbelow : ∀ p ∈ below, p.Within K) :
    Within K ⟨some f, below⟩ where
  top := by
    rintro g ⟨⟩
    exact hf
  below := hbelow

/-- One more frame waits. -/
lemma within_cons {p : Pending} (hp : p.Within K) (hbelow : ∀ p ∈ below, p.Within K) :
    ∀ q ∈ p :: below, q.Within K :=
  List.forall_mem_cons.mpr ⟨hp, hbelow⟩

/-- The frame of a script after a step of it. -/
lemma ofStep_within {step : ScriptRun.Step} (h : step.Within K)
    (hbelow : ∀ p ∈ below, p.Within K) : (ofStep step below).Within K := by
  cases h with
  | goOn h => exact .mk' (.script h) hbelow
  | push hchild hpending => exact .mk' hchild (within_cons hpending hbelow)
  | finish ending result => exact .mk' (.done ..) hbelow

/-- A frame that waits goes on under the rule. -/
lemma resume_within {p : Pending} (hp : p.Within K) (hbelow : ∀ p ∈ below, p.Within K)
    (ending : Ending) (result : List Value) :
    K.keeps w.scopes (resume p below ending result w).2.scopes ∧
      (resume p below ending result w).1.Within K := by
  have hpass : K.keeps w.scopes w.scopes ∧ Within K ⟨some (.done ending result), below⟩ :=
    ⟨K.refl _, .mk' (.done ..) hbelow⟩
  have hfail {run : ScriptRun} (hrun : K.inside run.scope) (f : Fault) :
      K.keeps w.scopes (run.fail w.scopes f).2 ∧
        (ofStep (run.fail w.scopes f).1 below).Within K := by
    obtain ⟨hkeeps, hstep⟩ := ScriptRun.fail_within (s := w.scopes) hrun f
    exact ⟨hkeeps, ofStep_within hstep hbelow⟩
  cases p with
  | andThen next =>
    cases ending with
    | ok => exact ⟨K.refl _, .mk' (hp result) (within_cons trivial hbelow)⟩
    | _ => exact hpass
  | onFail fallback =>
    cases ending with
    | error => exact ⟨K.refl _, .mk' (hp _) (within_cons trivial hbelow)⟩
    | _ => exact hpass
  | relay => cases ending <;> exact hpass
  | word run | command run =>
    cases ending with
    | ok => exact ⟨K.refl _, .mk' (.script hp) hbelow⟩
    | error => exact hfail hp _
    | _ => exact hpass
  | loop run =>
    cases ending with
    | ok | «continue» => exact ⟨K.refl _, .mk' (.loop hp) hbelow⟩
    | error | «break» => exact ⟨K.refl _, .mk' (.done ..) hbelow⟩

/-- A step of a stack under a rule keeps what the rule says and leads to a stack under the rule. -/
lemma Within.step {t : FrameStack} {w' : Workspace} (hs : s.Within K)
    (hn : K.admits w.scopes) {site : Site} (h : step site s w = (.goOn t, w')) :
    K.keeps w.scopes w'.scopes ∧ t.Within K := by
  obtain ⟨top, below⟩ := s
  obtain ⟨htop, hbelow⟩ := hs
  cases top with
  | none => cases h
  | some f =>
    cases htop f rfl with
    | done ending result =>
      cases below with
      | nil => cases h
      | cons p below =>
        obtain ⟨hp, hrest⟩ := List.forall_mem_cons.mp hbelow
        cases h
        exact resume_within hp hrest ending result
    | call target args =>
      cases h
      obtain ⟨time, replyTo⟩ := site
      cases replyTo with
      | none => exact ⟨K.refl _, .mk' (.done ..) hbelow⟩
      | some source => exact ⟨K.refl _, .mk' (.waiting _) hbelow⟩
    | waiting id => cases h
    | log level message =>
      cases h
      exact ⟨K.refl _, .mk' (.done ..) hbelow⟩
    | andThen hbase hnext =>
      cases h
      exact ⟨K.refl _, .mk' hbase (within_cons hnext hbelow)⟩
    | onFail hbody hfallback =>
      cases h
      exact ⟨K.refl _, .mk' hbody (within_cons hfallback hbelow)⟩
    | script hrun =>
      cases h
      obtain ⟨hkeeps, hstep⟩ := ScriptRun.step_within hrun hn
      exact ⟨hkeeps, ofStep_within hstep hbelow⟩
    | @loop run hrun =>
      obtain ⟨scope, name, items, body, last⟩ := run
      cases items with
      | nil =>
        cases h
        exact ⟨K.refl _, .mk' (.done ..) hbelow⟩
      | cons item items =>
        cases h
        exact ⟨K.set hrun name item, .mk' (.script hrun) (within_cons hrun hbelow)⟩

/-- A stack that is handed a call stays under the rule. -/
lemma Within.post (hs : s.Within K) (c : Call) : (s.post c).2.Within K := by
  unfold FrameStack.post
  split
  · split
    · exact .mk' (.done ..) hs.below
    · exact .mk' (.done ..) hs.below
    · exact hs
  · exact hs

end FrameStack

end Switchboard
