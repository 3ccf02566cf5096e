import Mathlib
import Switchboard.Proofs.Suspension

/-!
# Trapped failures

A script that traps goes on after a line that fails, and when it has no line left it fails itself
with what it has noted.  The main theorem `Scene.trapped_failures` says that nothing gets lost or is
noted twice on the way.

Whether a line fails is not read off the script that traps.  It is what becomes of a script of this
one line that does not trap, when the same happens to it (`Alone`): the same steps, the same calls
handed over, the same changes by others.  The two scripts are run side by side, and a line ends in
both at once (`Abreast`).

A line can also end in a signal for the loop around it.  Such a signal is no failure; it ends the
script there and then, and so the failures before it are not reported
(`Scene.signal_passes_failures`).
-/

namespace Switchboard

open FrameStack

/-! ## Scenes -/

/-- What can happen to a stack. -/
inductive Happening where
  | step (site : Site)
  /-- A call is handed over. -/
  | post (c : Call)
  /-- Others change the workspace. -/
  | elsewhere (w : Workspace)

/-- A stack in its workspace. -/
structure Scene where
  stack : FrameStack
  workspace : Workspace

namespace Scene

/-- A scene after one thing has happened; a stack at rest stays as it is. -/
def after (σ : Scene) : Happening → Scene
  | .step site =>
    match FrameStack.step site σ.stack σ.workspace with
    | (.goOn t, w) => ⟨t, w⟩
    | (.stop _ _, _) => σ
  | .post c => { σ with stack := (σ.stack.post c).2 }
  | .elsewhere w => { σ with workspace := w }

/-- A scene after several things have happened, one after the other. -/
def afterAll (σ : Scene) (hs : List Happening) : Scene := hs.foldl after σ

/-- A script that has not been run. -/
def start (s : Script) (r : ScopeRef) (trap : Bool) (w : Workspace) : Scene :=
  ⟨.ofFrame (.ofScript s r trap), w⟩

/-- After one more thing. -/
lemma afterAll_concat (σ : Scene) (hs : List Happening) (x : Happening) :
    σ.afterAll (hs ++ [x]) = (σ.afterAll hs).after x :=
  List.foldl_concat ..

/-- First one thing and then others. -/
lemma afterAll_append (σ : Scene) (hs hs' : List Happening) :
    σ.afterAll (hs ++ hs') = (σ.afterAll hs).afterAll hs' :=
  List.foldl_append ..

end Scene

/-! ## Frames on others

What a frame does until it has ended does not depend on what lies below it. -/

namespace FrameStack

variable {site : Site}

/-- A step of a script comes to a frame on what was below. -/
lemma ofStep_onto (st : ScriptRun.Step) (upper : List Pending) :
    ∃ f above, ∀ tail, ofStep st (upper ++ tail) = ⟨some f, above ++ tail⟩ := by
  cases st with
  | goOn run => exact ⟨.script run, upper, fun tail => rfl⟩
  | push child p => exact ⟨child, p :: upper, fun tail => rfl⟩
  | finish ending result => exact ⟨.done ending result, upper, fun tail => rfl⟩

/-- What a waiting frame does is done on what was below it. -/
lemma resume_onto (p : Pending) (upper : List Pending) (ending : Ending) (result : List Value)
    (w : Workspace) : ∃ f above w', ∀ tail,
      resume p (upper ++ tail) ending result w = (⟨some f, above ++ tail⟩, w') := by
  have hscript (r : ScriptRun.Step × Scopes) : ∃ f above w', ∀ tail,
      (ofStep r.1 (upper ++ tail), { w with scopes := r.2 }) =
        ((⟨some f, above ++ tail⟩ : FrameStack), w') := by
    obtain ⟨f, above, h⟩ := ofStep_onto r.1 upper
    exact ⟨f, above, _, fun tail => by rw [h]⟩
  have hpass : ∃ f above w', ∀ tail,
      ((⟨some (.done ending result), upper ++ tail⟩ : FrameStack), w) =
        ((⟨some f, above ++ tail⟩ : FrameStack), w') :=
    ⟨.done ending result, upper, w, fun tail => rfl⟩
  cases p with
  | relay => cases ending <;> exact hpass
  | andThen next =>
    cases ending with
    | ok => exact ⟨next result, .relay :: upper, w, fun tail => rfl⟩
    | _ => exact hpass
  | onFail fallback =>
    cases ending with
    | error => exact ⟨fallback (.ofArgs result), .relay :: upper, w, fun tail => rfl⟩
    | _ => exact hpass
  | word run =>
    cases ending with
    | ok => exact ⟨.script (run.takeWord result), upper, w, fun tail => rfl⟩
    | error => exact hscript (run.fail w.scopes (.ofArgs result))
    | _ => exact hpass
  | command run =>
    cases ending with
    | ok => exact ⟨.script (run.takeResult result), upper, w, fun tail => rfl⟩
    | error => exact hscript (run.fail w.scopes (.ofArgs result))
    | _ => exact hpass
  | loop run =>
    cases ending with
    | ok => exact ⟨.loop { run with last := result }, upper, w, fun tail => rfl⟩
    | error => exact ⟨.error (.ofArgs result), upper, w, fun tail => rfl⟩
    | «break» => exact ⟨.done .ok run.last, upper, w, fun tail => rfl⟩
    | «continue» => exact ⟨.loop run, upper, w, fun tail => rfl⟩

/-- A step above others: the frame has ended above them, it waits, or it leads to frames above the
same others, whatever those are. -/
lemma step_onto (site : Site) (f : Frame) (upper : List Pending) (w : Workspace) :
    (upper = [] ∧ ∃ ending result, f = .done ending result) ∨ (∃ id, f = .waiting id) ∨
      ∃ g above w', ∀ tail,
        step site ⟨some f, upper ++ tail⟩ w = (.goOn ⟨some g, above ++ tail⟩, w') := by
  cases f with
  | done ending result =>
    cases upper with
    | nil => exact .inl ⟨rfl, ending, result, rfl⟩
    | cons p upper =>
      obtain ⟨g, above, w', h⟩ := resume_onto p upper ending result w
      refine .inr (.inr ⟨g, above, w', fun tail => ?_⟩)
      simp only [step, List.cons_append, h]
  | waiting id => exact .inr (.inl ⟨id, rfl⟩)
  | call target args =>
    exact .inr (.inr ⟨(sendCall site target args w).1, upper, (sendCall site target args w).2,
      fun tail => rfl⟩)
  | log level message =>
    exact .inr (.inr ⟨.ok [], upper, { w with log := w.log ++ [(level, message)] },
      fun tail => rfl⟩)
  | andThen base next => exact .inr (.inr ⟨base, .andThen next :: upper, w, fun tail => rfl⟩)
  | onFail body fallback => exact .inr (.inr ⟨body, .onFail fallback :: upper, w, fun tail => rfl⟩)
  | script run =>
    obtain ⟨g, above, h⟩ := ofStep_onto (run.step w.scopes).1 upper
    refine .inr (.inr ⟨g, above, { w with scopes := (run.step w.scopes).2 }, fun tail => ?_⟩)
    simp only [step, h]
  | loop run =>
    obtain ⟨scope, name, items, body, last⟩ := run
    cases items with
    | nil => exact .inr (.inr ⟨.ok last, upper, w, fun tail => rfl⟩)
    | cons item items =>
      exact .inr (.inr ⟨.ofScript body scope false, .loop ⟨scope, name, items, body, last⟩ :: upper,
        { w with scopes := w.scopes.set scope name item }, fun tail => rfl⟩)

/-- A call is handed to the running frame, whatever is below it. -/
lemma post_onto (f : Frame) (c : Call) :
    ∃ flag g, ∀ below, (⟨some f, below⟩ : FrameStack).post c = (flag, ⟨some g, below⟩) := by
  by_cases h : (⟨some f, []⟩ : FrameStack).awaiting = some c.matchId
  · have hpost (below : List Pending) :
        (⟨some f, below⟩ : FrameStack).awaiting = some c.matchId := h
    cases hkind : c.kind with
    | reply => exact ⟨true, .ok c.args, fun below => by simp [post, hpost, hkind]⟩
    | error => exact ⟨true, .error (.ofArgs c.args), fun below => by simp [post, hpost, hkind]⟩
    | request => exact ⟨true, f, fun below => by simp [post, hpost, hkind]⟩
    | quiet => exact ⟨true, f, fun below => by simp [post, hpost, hkind]⟩
  · have hpost (below : List Pending) :
        (⟨some f, below⟩ : FrameStack).awaiting ≠ some c.matchId := h
    exact ⟨false, f, fun below => by simp [post, hpost]⟩

end FrameStack

namespace Scene

/-- A step above others leads to frames above the same others, unless the last frame above them has
ended. -/
lemma after_step_onto (site : Site) (f : Frame) (upper : List Pending) (w : Workspace) :
    (upper = [] ∧ ∃ ending result, f = .done ending result) ∨
      ∃ g above w', ∀ tail,
        after ⟨⟨some f, upper ++ tail⟩, w⟩ (.step site) = ⟨⟨some g, above ++ tail⟩, w'⟩ := by
  rcases step_onto site f upper w with hdone | ⟨id, rfl⟩ | ⟨g, above, w', h⟩
  · exact .inl hdone
  · exact .inr ⟨.waiting id, upper, w, fun tail => rfl⟩
  · refine .inr ⟨g, above, w', fun tail => ?_⟩
    simp only [after, h]

/-- A call is handed to the running frame. -/
lemma after_post_onto (f : Frame) (c : Call) (w : Workspace) :
    ∃ g, ∀ below, after ⟨⟨some f, below⟩, w⟩ (.post c) = ⟨⟨some g, below⟩, w⟩ := by
  obtain ⟨flag, g, h⟩ := post_onto f c
  refine ⟨g, fun below => ?_⟩
  simp only [after, h]

end Scene

/-! ## Lines on their own -/

/-- Whether nothing is left of a stack but how it has ended. -/
inductive FrameStack.Ended : FrameStack → Ending → List Value → Prop
  | done (ending : Ending) (result : List Value) :
    Ended ⟨some (.done ending result), []⟩ ending result
  /-- A script without a line left, of which none has failed. -/
  | script (r : ScopeRef) (trap : Bool) (last : List Value) :
    Ended ⟨some (.script ⟨r, trap, [], none, [], [], last⟩), []⟩ .ok last

/-- A stack that has ended has nothing to do but to say so. -/
lemma FrameStack.Ended.run {s : FrameStack} {ending : Ending} {result : List Value}
    (h : s.Ended ending result) (site : Site) (w : Workspace) :
    ∃ t, s.run site 2 w = some (.done ending result, t, w) := by
  cases h <;> exact ⟨_, rfl⟩

/-- How a line has ended. -/
structure LineEnd where
  line : ScriptLine
  ending : Ending
  result : List Value

namespace LineEnd

/-- Whether a line has ended in a signal for the loop around it. -/
def IsSignal (x : LineEnd) : Prop := x.ending = .break ∨ x.ending = .continue

/-- The message under which a failure is noted. -/
def text (x : LineEnd) : String := Direct.failureText x.line (.ofArgs x.result)

/-- The workspace after a line of a script that traps. -/
def noted (x : LineEnd) (r : ScopeRef) (w : Workspace) : Workspace :=
  if x.ending = .error then { w with scopes := w.scopes.push r errorsVariable (.text x.text) }
  else w

/-- The messages of the lines that failed, in order. -/
def failures (xs : List LineEnd) : List String :=
  (xs.filter fun x => x.ending = .error).map text

end LineEnd

/-- Whether a line, as a script of its own that does not trap, ends in some way with the last of
these things and not before, and leaves this workspace. -/
structure Alone (r : ScopeRef) (x : LineEnd) (w : Workspace) (hs : List Happening)
    (w' : Workspace) : Prop where
  ended : ((Scene.start ⟨[x.line], ""⟩ r false w).afterAll hs).stack.Ended x.ending x.result
  workspace : ((Scene.start ⟨[x.line], ""⟩ r false w).afterAll hs).workspace = w'
  first : ∀ front, front <+: hs →
    (∃ ending result, ((Scene.start ⟨[x.line], ""⟩ r false w).afterAll front).stack.Ended
      ending result) → front = hs

/-- The lines that have ended one after the other while all of this happened, and how.  A failure is
noted before the next line begins. -/
inductive LineByLine (r : ScopeRef) (w : Workspace) :
    List Happening → List LineEnd → Workspace → Prop
  | nil : LineByLine r w [] [] w
  | line {hs hs' : List Happening} {xs : List LineEnd} {x : LineEnd} {w₁ w₂ : Workspace}
      (h : LineByLine r w hs xs w₁) (hx : Alone r x w₁ hs' w₂) :
      LineByLine r w (hs ++ hs') (xs ++ [x]) (x.noted r w₂)

/-! ## Side by side -/

/-- A script between two lines; that it traps is part of it. -/
def trapping (r : ScopeRef) (rest : List ScriptLine) (trapped : List String) (last : List Value) :
    ScriptRun :=
  ⟨r, true, [], none, rest, trapped, last⟩

/-- A script on the only line that it has. -/
def solitary (r : ScopeRef) : ScriptRun := ⟨r, false, [], none, [], [], []⟩

section SideBySide

variable {r : ScopeRef} {l : ScriptLine} {rest : List ScriptLine} {trapped : List String}
  {last : List Value} {site : Site}

/-- Whether two stacks are within the same line at the same place, the first one in a script that
traps and the second one in a script of this line only. -/
inductive Beside (r : ScopeRef) (l : ScriptLine) (rest : List ScriptLine) (trapped : List String)
    (last : List Value) : FrameStack → FrameStack → Prop
  | start : Beside r l rest trapped last
      ⟨some (.script (trapping r (l :: rest) trapped last)), []⟩
      (.ofFrame (.ofScript ⟨[l], ""⟩ r false))
  | words (lr : LineRun) (hl : lr.number = l.number) : Beside r l rest trapped last
      (lineStack (trapping r rest trapped last) [] lr) (lineStack (solitary r) [] lr)
  | word (f : Frame) (upper : List Pending) (lr : LineRun) (hl : lr.number = l.number) :
    Beside r l rest trapped last
      ⟨some f, upper ++ [.word ((trapping r rest trapped last).onLine lr)]⟩
      ⟨some f, upper ++ [.word ((solitary r).onLine lr)]⟩
  | command (f : Frame) (upper : List Pending) (lr : LineRun) (hl : lr.number = l.number) :
    Beside r l rest trapped last
      ⟨some f, upper ++ [.command ((trapping r rest trapped last).onLine lr)]⟩
      ⟨some f, upper ++ [.command ((solitary r).onLine lr)]⟩

/-- What one thing that happens within a line comes to: both scripts are still in the line, or it
has ended in both. -/
inductive Abreast (r : ScopeRef) (l : ScriptLine) (rest : List ScriptLine) (trapped : List String)
    (last : List Value) : Scene → Scene → Prop
  | within {s t : FrameStack} (h : Beside r l rest trapped last s t) (w : Workspace) :
    Abreast r l rest trapped last ⟨s, w⟩ ⟨t, w⟩
  | succeeded {t : FrameStack} (result : List Value) (h : t.Ended .ok result) (w : Workspace) :
    Abreast r l rest trapped last ⟨⟨some (.script (trapping r rest trapped result)), []⟩, w⟩ ⟨t, w⟩
  | failed {t : FrameStack} (f : Fault) (h : t.Ended .error [.fault f]) (w : Workspace) :
    Abreast r l rest trapped last
      ⟨⟨some (.script (trapping r rest (trapped ++ [Direct.failureText l f]) last)), []⟩,
        (LineEnd.mk l .error [.fault f]).noted r w⟩ ⟨t, w⟩
  | left {t : FrameStack} (ending : Ending) (result : List Value)
      (hending : ending = .break ∨ ending = .continue) (h : t.Ended ending result) (w : Workspace) :
    Abreast r l rest trapped last ⟨⟨some (.done ending result), []⟩, w⟩ ⟨t, w⟩

/-- Within a line the script of it alone has not ended. -/
lemma Beside.not_ended {s t : FrameStack} (h : Beside r l rest trapped last s t) (ending : Ending)
    (result : List Value) : ¬t.Ended ending result := by
  intro hended
  cases h with
  | start => cases hended
  | words lr hl => cases hended
  | word f upper lr hl =>
    have hbelow : (upper ++ [Pending.word ((solitary r).onLine lr)]) = [] := by
      generalize upper ++ [Pending.word ((solitary r).onLine lr)] = below at hended
      cases hended <;> rfl
    simp at hbelow
  | command f upper lr hl =>
    have hbelow : (upper ++ [Pending.command ((solitary r).onLine lr)]) = [] := by
      generalize upper ++ [Pending.command ((solitary r).onLine lr)] = below at hended
      cases hended <;> rfl
    simp at hbelow

/-- Failing ends a script of one line, and a script that traps notes the failure. -/
lemma abreast_fail {lr : LineRun} (hl : lr.number = l.number) (f : Fault) (w : Workspace) :
    Abreast r l rest trapped last
      ⟨ofStep (((trapping r rest trapped last).onLine lr).fail w.scopes f).1 [],
        { w with scopes := (((trapping r rest trapped last).onLine lr).fail w.scopes f).2 }⟩
      ⟨ofStep (((solitary r).onLine lr).fail w.scopes f).1 [],
        { w with scopes := (((solitary r).onLine lr).fail w.scopes f).2 }⟩ := by
  have h : Abreast r l rest trapped last _ _ := .failed f (.done .error [.fault f]) w
  have htext :
      "line " ++ Decimal.ofNat lr.number ++ ": " ++ f.message = Direct.failureText l f := by
    rw [hl, Direct.failureText]
  have hfail : ((trapping r rest trapped last).onLine lr).fail w.scopes f =
      (.goOn (trapping r rest (trapped ++ [Direct.failureText l f]) last),
        w.scopes.push r errorsVariable (.text (Direct.failureText l f))) := by
    rw [← htext]
    rfl
  rw [hfail]
  exact h

/-- The command of a line ends in both scripts at once, and so does the line. -/
lemma abreast_command {lr : LineRun} (hl : lr.number = l.number) (ending : Ending)
    (result : List Value) (w : Workspace) (site : Site) :
    Abreast r l rest trapped last
      (Scene.after ⟨⟨some (.done ending result),
        [.command ((trapping r rest trapped last).onLine lr)]⟩, w⟩ (.step site))
      (Scene.after ⟨⟨some (.done ending result), [.command ((solitary r).onLine lr)]⟩, w⟩
        (.step site)) := by
  cases ending with
  | ok => exact .succeeded result (.script r false result) w
  | error => exact abreast_fail hl (.ofArgs result) w
  | «break» => exact .left .break result (.inl rfl) (.done ..) w
  | «continue» => exact .left .continue result (.inr rfl) (.done ..) w

/-- A substitution of a line ends in both scripts at once: the line goes on or ends. -/
lemma abreast_word {lr : LineRun} (hl : lr.number = l.number) (ending : Ending)
    (result : List Value) (w : Workspace) (site : Site) :
    Abreast r l rest trapped last
      (Scene.after ⟨⟨some (.done ending result),
        [.word ((trapping r rest trapped last).onLine lr)]⟩, w⟩ (.step site))
      (Scene.after ⟨⟨some (.done ending result), [.word ((solitary r).onLine lr)]⟩, w⟩
        (.step site)) := by
  cases ending with
  | ok =>
    have htake : (lr.take result).number = l.number := by
      unfold LineRun.take
      split <;> exact hl
    exact .within (.words (lr.take result) htake) w
  | error => exact abreast_fail hl (.ofArgs result) w
  | «break» => exact .left .break result (.inl rfl) (.done ..) w
  | «continue» => exact .left .continue result (.inr rfl) (.done ..) w

/-- Words that stop at a substitution stop on the same line. -/
lemma number_of_evalWords {s : Scopes} {number : ℕ} {ready : List Value} {todo : List ScriptWord}
    {lr : LineRun} {script : Script}
    (h : evalWords s r number ready todo = .substitution lr script) : lr.number = number := by
  induction todo generalizing ready with
  | nil => cases h
  | cons word todo ih =>
    cases word with
    | literal text => exact ih h
    | block text => exact ih h
    | substitution inner =>
      cases h
      rfl
    | variableRef name =>
      rw [evalWords] at h
      split at h
      · cases h
      · exact ih h
    | quoted parts =>
      rw [evalWords] at h
      split at h
      · cases h
      · exact ih h
      · cases h
        rfl

/-- A line that stops at a substitution is the same line. -/
lemma number_of_eval {s : Scopes} {lr lr' : LineRun} {script : Script}
    (h : lr.eval s r = .substitution lr' script) : lr'.number = lr.number := by
  unfold LineRun.eval at h
  split at h
  · exact number_of_evalWords h
  · split at h
    · cases h
    · exact number_of_evalWords h
    · cases h
      rfl

/-- A line whose words are evaluated goes on or fails in both scripts at once. -/
lemma abreast_words {lr : LineRun} (hl : lr.number = l.number) (w : Workspace) (site : Site) :
    Abreast r l rest trapped last
      (Scene.after ⟨lineStack (trapping r rest trapped last) [] lr, w⟩ (.step site))
      (Scene.after ⟨lineStack (solitary r) [] lr, w⟩ (.step site)) := by
  have hscope : (trapping r rest trapped last).scope = (solitary r).scope := rfl
  simp only [Scene.after, step_lineStack, hscope]
  cases heval : lr.eval w.scopes (solitary r).scope with
  | failed f => exact abreast_command hl .error [.fault f] w site
  | substitution lr' script =>
    exact .within (.word _ [] lr' ((number_of_eval heval).trans hl)) w
  | words vs =>
    dsimp only
    cases commandFrame w.scopes (solitary r).scope vs with
    | error f => exact abreast_command hl .error [.fault f] w site
    | ok p => exact .within (.command p.1 [] ⟨lr.number, [], none, []⟩ hl) { w with scopes := p.2 }

/-- Whatever happens within a line happens in both scripts. -/
theorem Beside.after {s t : FrameStack} (h : Beside r l rest trapped last s t) (w : Workspace)
    (x : Happening) :
    Abreast r l rest trapped last (Scene.after ⟨s, w⟩ x) (Scene.after ⟨t, w⟩ x) := by
  cases x with
  | elsewhere w' => exact .within h w'
  | post c =>
    cases h with
    | start => exact .within .start w
    | words lr hl => exact .within (.words lr hl) w
    | word f upper lr hl =>
      obtain ⟨g, hg⟩ := Scene.after_post_onto f c w
      rw [hg, hg]
      exact .within (.word g upper lr hl) w
    | command f upper lr hl =>
      obtain ⟨g, hg⟩ := Scene.after_post_onto f c w
      rw [hg, hg]
      exact .within (.command g upper lr hl) w
  | step site =>
    cases h with
    | start => exact .within (.words ⟨l.number, [], none, l.words⟩ rfl) w
    | words lr hl => exact abreast_words hl w site
    | word f upper lr hl =>
      obtain ⟨rfl, ending, result, rfl⟩ | ⟨g, above, w', hg⟩ :=
        Scene.after_step_onto site f upper w
      · exact abreast_word hl ending result w site
      · rw [hg, hg]
        exact .within (.word g above lr hl) w'
    | command f upper lr hl =>
      obtain ⟨rfl, ending, result, rfl⟩ | ⟨g, above, w', hg⟩ :=
        Scene.after_step_onto site f upper w
      · exact abreast_command hl ending result w site
      · rw [hg, hg]
        exact .within (.command g above lr hl) w'

end SideBySide

/-! ## Whole scripts -/

/-- Whether what has happened reaches up to the first step and no further. -/
def UpToFirstStep (hs : List Happening) : Prop :=
  ∃ before site, hs = before ++ [.step site] ∧ ∀ x ∈ before, ∀ site, x ≠ .step site

/-- The lines of a script that traps which have ended in all that has happened to it. -/
def Account (s : Script) (r : ScopeRef) (w : Workspace) (hs : List Happening) (xs : List LineEnd)
    (w' : Workspace) : Prop :=
  ∃ opening during, hs = opening ++ during ∧ UpToFirstStep opening ∧
    LineByLine r ((Scene.start s r true w).afterAll opening).workspace during xs w'

/-- Whether an ending with a result reports the failures of lines, each of them once and in order:
it is good exactly if no line has failed, and otherwise it is one fault with their messages. -/
structure Reports (xs : List LineEnd) (ending : Ending) (result : List Value) : Prop where
  ok_iff : ending = .ok ↔ ∀ x ∈ xs, x.ending ≠ .error
  error : ending ≠ .ok → ending = .error ∧
    result = [.fault (.script (Text.join "\n" (LineEnd.failures xs)))]

/-- What the lines of a script that traps come to.  Without a signal all lines have been run and
their failures are reported; a signal is that of the last line that was run, and the script ends
with it. -/
structure ComesTo (s : Script) (xs : List LineEnd) (ending : Ending) (result : List Value) :
    Prop where
  lines : xs.map LineEnd.line <+: s.lines
  reports : (∀ x ∈ xs, ¬x.IsSignal) → xs.map LineEnd.line = s.lines ∧ Reports xs ending result
  signal : ∀ x ∈ xs, x.IsSignal → xs.getLast? = some x ∧ ending = x.ending ∧ result = x.result

/-- Whether lines have ended without a signal, and the failures among them are those noted. -/
structure Noted (xs : List LineEnd) (trapped : List String) : Prop where
  plain : ∀ x ∈ xs, ¬x.IsSignal
  failures : LineEnd.failures xs = trapped

/-- How far a script that traps has come, with what has happened to it since it began. -/
inductive Progress (s : Script) (r : ScopeRef) (w : Workspace) : List Happening → Scene → Prop
  | fresh {hs : List Happening} {w' : Workspace} (hbefore : ∀ x ∈ hs, ∀ site, x ≠ .step site)
    (hstart : (Scene.start s r true w).afterAll hs = .start s r true w') :
    Progress s r w hs (.start s r true w')
  /-- In a line, or before it. -/
  | line {hs hs' : List Happening} {xs : List LineEnd} {w₁ w' : Workspace} {l : ScriptLine}
    {rest : List ScriptLine} {trapped : List String} {last : List Value} {t t' : FrameStack}
    (haccount : Account s r w hs xs w₁) (hnoted : Noted xs trapped)
    (hlines : xs.map LineEnd.line ++ l :: rest = s.lines)
    (halone : (Scene.start ⟨[l], ""⟩ r false w₁).afterAll hs' = ⟨t', w'⟩)
    (hbeside : Beside r l rest trapped last t t')
    (hfirst : ∀ front, front <+: hs' → ∀ ending result,
      ¬((Scene.start ⟨[l], ""⟩ r false w₁).afterAll front).stack.Ended ending result) :
    Progress s r w (hs ++ hs') ⟨t, w'⟩
  /-- After the last line. -/
  | closing {hs hs' : List Happening} {xs : List LineEnd} {w₁ : Workspace}
    {trapped : List String} {last : List Value} (haccount : Account s r w hs xs w₁)
    (hnoted : Noted xs trapped) (hlines : xs.map LineEnd.line = s.lines) (w' : Workspace) :
    Progress s r w (hs ++ hs') ⟨⟨some (.script (trapping r [] trapped last)), []⟩, w'⟩
  | finished {hs hs' : List Happening} {xs : List LineEnd} {w₁ : Workspace} {ending : Ending}
    {result : List Value} (haccount : Account s r w hs xs w₁) (h : ComesTo s xs ending result)
    (w' : Workspace) : Progress s r w (hs ++ hs') ⟨⟨some (.done ending result), []⟩, w'⟩

section Whole

variable {s : Script} {r : ScopeRef} {w w₁ w' : Workspace} {hs hs' : List Happening}
  {xs : List LineEnd} {x : LineEnd} {l : ScriptLine} {rest : List ScriptLine}
  {trapped : List String} {last : List Value} {σ : Scene} {site : Site}

/-- One more line has ended. -/
lemma Account.line (h : Account s r w hs xs w₁) (hx : Alone r x w₁ hs' w') :
    Account s r w (hs ++ hs') (xs ++ [x]) (x.noted r w') := by
  obtain ⟨opening, during, rfl, hopening, hlines⟩ := h
  exact ⟨opening, during ++ hs', List.append_assoc .., hopening, hlines.line hx⟩

/-- One more line has ended without a signal. -/
lemma Noted.line (h : Noted xs trapped) (hx : ¬x.IsSignal) :
    Noted (xs ++ [x]) (trapped ++ LineEnd.failures [x]) where
  plain := by
    intro y hy
    rcases List.mem_append.mp hy with hy | hy
    · exact h.plain y hy
    · rw [List.mem_singleton.mp hy]
      exact hx
  failures := by
    rw [← h.failures]
    simp [LineEnd.failures]

/-- Lines without a signal come to a report of what has been noted. -/
lemma Noted.comesTo (h : Noted xs trapped) (hlines : xs.map LineEnd.line = s.lines)
    (last : List Value) :
    ∃ ending result, ofStep (trapping r [] trapped last).complete [] =
      ⟨some (.done ending result), []⟩ ∧ ComesTo s xs ending result := by
  have hnone : trapped = [] ↔ ∀ x ∈ xs, x.ending ≠ .error := by
    rw [← h.failures]
    simp [LineEnd.failures]
  have hcomes {ending : Ending} {result : List Value} (hreports : Reports xs ending result) :
      ComesTo s xs ending result :=
    ⟨by rw [hlines], fun _ => ⟨hlines, hreports⟩, fun x hx hsignal => absurd hsignal (h.plain x hx)⟩
  cases htrapped : trapped with
  | nil =>
    refine ⟨.ok, last, rfl, hcomes ⟨?_, fun hne => absurd rfl hne⟩⟩
    exact iff_of_true rfl (hnone.mp htrapped)
  | cons message messages =>
    refine ⟨.error, _, rfl, hcomes ⟨?_, fun _ => ⟨rfl, ?_⟩⟩⟩
    · refine iff_of_false (by simp) fun hall => ?_
      rw [hnone.mpr hall] at htrapped
      contradiction
    · rw [h.failures, htrapped]
      rfl

/-- A line that ends in a signal ends the script with it. -/
lemma Noted.comesTo_signal (h : Noted xs trapped) (hx : x.IsSignal)
    (hlines : xs.map LineEnd.line ++ x.line :: rest = s.lines) :
    ComesTo s (xs ++ [x]) x.ending x.result where
  lines := ⟨rest, by simp [← hlines]⟩
  reports := fun hnone => absurd hx (hnone x (by simp))
  signal := by
    intro y hy hsignal
    rcases List.mem_append.mp hy with hy | hy
    · exact absurd hsignal (h.plain y hy)
    · rw [List.mem_singleton.mp hy]
      exact ⟨List.getLast?_concat .., rfl, rfl⟩

/-- Between two lines, or after the last one. -/
lemma Progress.between (haccount : Account s r w hs xs w₁) (hnoted : Noted xs trapped)
    (hlines : xs.map LineEnd.line ++ rest = s.lines) (last : List Value) :
    Progress s r w hs ⟨⟨some (.script (trapping r rest trapped last)), []⟩, w₁⟩ := by
  rw [← List.append_nil hs]
  cases rest with
  | nil => exact .closing haccount hnoted (by rw [← hlines, List.append_nil]) w₁
  | cons l rest =>
    have hstart : Beside r l rest trapped last _ _ := .start
    refine .line haccount hnoted hlines rfl hstart fun front hfront ending result => ?_
    rw [List.prefix_nil.mp hfront]
    exact hstart.not_ended ending result

/-- What has ended stays as it is. -/
lemma Scene.after_done (ending : Ending) (result : List Value) (w : Workspace) (x : Happening) :
    ∃ w', Scene.after ⟨⟨some (.done ending result), []⟩, w⟩ x =
      ⟨⟨some (.done ending result), []⟩, w'⟩ := by
  cases x with
  | step site => exact ⟨w, rfl⟩
  | post c => exact ⟨w, rfl⟩
  | elsewhere w' => exact ⟨w', rfl⟩

/-- The line that a script is in has ended. -/
lemma Alone.of_ended {t' : FrameStack} {ending : Ending} {result : List Value} (x : Happening)
    (hfirst : ∀ front, front <+: hs' → ∀ ending result,
      ¬((Scene.start ⟨[l], ""⟩ r false w₁).afterAll front).stack.Ended ending result)
    (hafter : (Scene.start ⟨[l], ""⟩ r false w₁).afterAll (hs' ++ [x]) = ⟨t', w'⟩)
    (hended : t'.Ended ending result) : Alone r ⟨l, ending, result⟩ w₁ (hs' ++ [x]) w' where
  ended := by rw [hafter]; exact hended
  workspace := by rw [hafter]
  first := by
    rintro front hfront ⟨ending', result', hended'⟩
    rcases List.prefix_concat_iff.mp hfront with heq | hfront
    · exact heq
    · exact absurd hended' (hfirst front hfront ending' result')

/-- A script that is in a line goes on with it, or with the next one, or ends with a signal. -/
lemma Progress.of_abreast {σ' : Scene} (haccount : Account s r w hs xs w₁)
    (hnoted : Noted xs trapped) (hlines : xs.map LineEnd.line ++ l :: rest = s.lines)
    (x : Happening)
    (hfirst : ∀ front, front <+: hs' → ∀ ending result,
      ¬((Scene.start ⟨[l], ""⟩ r false w₁).afterAll front).stack.Ended ending result)
    (hafter : (Scene.start ⟨[l], ""⟩ r false w₁).afterAll (hs' ++ [x]) = σ')
    (h : Abreast r l rest trapped last σ σ') : Progress s r w (hs ++ (hs' ++ [x])) σ := by
  have hnext (y : LineEnd) (hy : y.line = l) :
      (xs ++ [y]).map LineEnd.line ++ rest = s.lines := by
    rw [← hlines, List.map_append, List.append_assoc, List.map_singleton, hy]
    rfl
  cases h with
  | within hbeside w' =>
    refine .line haccount hnoted hlines hafter hbeside fun front hfront ending result hended => ?_
    rcases List.prefix_concat_iff.mp hfront with rfl | hfront
    · rw [hafter] at hended
      exact hbeside.not_ended ending result hended
    · exact hfirst front hfront ending result hended
  | succeeded result hended w' =>
    have hnoted' := hnoted.line (x := ⟨l, .ok, result⟩) (by simp [LineEnd.IsSignal])
    rw [show trapped ++ LineEnd.failures [⟨l, .ok, result⟩] = trapped by simp [LineEnd.failures]]
      at hnoted'
    exact .between (haccount.line (.of_ended x hfirst hafter hended)) hnoted' (hnext _ rfl) result
  | failed f hended w' =>
    have hnoted' := hnoted.line (x := ⟨l, .error, [.fault f]⟩) (by simp [LineEnd.IsSignal])
    exact .between (haccount.line (.of_ended x hfirst hafter hended)) hnoted' (hnext _ rfl) last
  | left ending result hending hended w' =>
    have haccount' := haccount.line (.of_ended x hfirst hafter hended)
    rw [← List.append_nil (hs ++ (hs' ++ [x]))]
    exact .finished haccount' (hnoted.comesTo_signal hending hlines) w'

/-- A script goes on by whatever happens to it. -/
theorem Progress.after (h : Progress s r w hs σ) (x : Happening) :
    Progress s r w (hs ++ [x]) (σ.after x) := by
  cases h with
  | @fresh _ w' hbefore hstart =>
    have hafter : (Scene.start s r true w).afterAll (hs ++ [x]) =
        Scene.after (.start s r true w') x := by rw [Scene.afterAll_concat, hstart]
    have hbefore' (hx : ∀ site, x ≠ .step site) : ∀ y ∈ hs ++ [x], ∀ site, y ≠ .step site := by
      intro y hy
      rcases List.mem_append.mp hy with hy | hy
      · exact hbefore y hy
      · rw [List.mem_singleton.mp hy]
        exact hx
    cases x with
    | step site =>
      have hnil : LineByLine r ((Scene.start s r true w).afterAll (hs ++ [.step site])).workspace
          [] [] _ := .nil
      have haccount : Account s r w (hs ++ [.step site]) [] _ :=
        ⟨_, [], (List.append_nil _).symm, ⟨hs, site, rfl, hbefore⟩, hnil⟩
      rw [hafter] at haccount
      exact .between haccount ⟨by simp, rfl⟩ rfl []
    | post c => exact .fresh (hbefore' (by simp)) hafter
    | elsewhere w'' => exact .fresh (hbefore' (by simp)) hafter
  | line haccount hnoted hlines halone hbeside hfirst =>
    rw [List.append_assoc]
    refine .of_abreast haccount hnoted hlines x hfirst ?_ (hbeside.after _ x)
    rw [Scene.afterAll_concat, halone]
  | @closing hs hs' _ _ trapped last haccount hnoted hlines w' =>
    rw [List.append_assoc]
    cases x with
    | step site =>
      obtain ⟨ending, result, hdone, hcomes⟩ := hnoted.comesTo (r := r) hlines last
      have hafter : Progress s r w (hs ++ (hs' ++ [.step site]))
          ⟨ofStep (trapping r [] trapped last).complete [], w'⟩ := by
        rw [hdone]
        exact .finished haccount hcomes w'
      exact hafter
    | post c => exact .closing haccount hnoted hlines w'
    | elsewhere w'' => exact .closing haccount hnoted hlines w''
  | finished haccount hcomes w' =>
    rw [List.append_assoc]
    obtain ⟨w'', hw⟩ := Scene.after_done _ _ w' x
    rw [hw]
    exact .finished haccount hcomes w''

/-- A script goes on by all that happens to it. -/
theorem Progress.afterAll (s : Script) (r : ScopeRef) (w : Workspace) (hs : List Happening) :
    Progress s r w hs ((Scene.start s r true w).afterAll hs) := by
  induction hs using List.reverseRecOn with
  | nil => exact .fresh (by simp) rfl
  | append_singleton hs x ih =>
    rw [Scene.afterAll_concat]
    exact ih.after x

/-- A run that is done has come, step by step, to where a step says so. -/
lemma Scene.stop_of_run {fuel : ℕ} {o : StackOutcome} {t : FrameStack}
    (h : σ.stack.run site fuel σ.workspace = some (o, t, w')) :
    ∃ n, let τ := σ.afterAll (List.replicate n (.step site))
      FrameStack.step site τ.stack τ.workspace = (.stop o t, w') := by
  induction fuel generalizing σ with
  | zero => contradiction
  | succ fuel ih =>
    rw [FrameStack.run] at h
    rcases hstep : FrameStack.step site σ.stack σ.workspace with ⟨t₁ | ⟨o₁, t₁⟩, w₂⟩
    · rw [hstep] at h
      obtain ⟨n, hn⟩ := ih (σ := ⟨t₁, w₂⟩) h
      refine ⟨n + 1, ?_⟩
      have hafter : σ.after (.step site) = ⟨t₁, w₂⟩ := by simp only [Scene.after, hstep]
      rw [List.replicate_succ, Scene.afterAll, List.foldl_cons, hafter]
      exact hn
    · rw [hstep] at h
      cases h
      exact ⟨0, hstep⟩

/-- A step that says that a stack is done finds its last frame ended. -/
lemma FrameStack.eq_of_step_done {q t : FrameStack} {ending : Ending} {result : List Value}
    (htop : q.top.isSome) (h : FrameStack.step site q w = (.stop (.done ending result) t, w')) :
    q = ⟨some (.done ending result), []⟩ := by
  obtain ⟨top, below⟩ := q
  cases top with
  | none => contradiction
  | some f =>
    cases f with
    | done ending' result' =>
      cases below with
      | nil =>
        cases h
        rfl
      | cons p below => simp [FrameStack.step] at h
    | loop run =>
      obtain ⟨scope, name, items, body, last⟩ := run
      cases items <;> cases h
    | _ => cases h

/-- Within a line a script that traps has frames left that have not ended. -/
lemma Beside.not_done {q q' : FrameStack} (h : Beside r l rest trapped last q q') :
    q.top.isSome ∧ ∀ ending result, q ≠ ⟨some (.done ending result), []⟩ := by
  cases h with
  | start => exact ⟨rfl, by simp⟩
  | words lr hl => exact ⟨rfl, by simp [lineStack]⟩
  | word f upper lr hl => exact ⟨rfl, by simp⟩
  | command f upper lr hl => exact ⟨rfl, by simp⟩

end Whole

namespace Scene

/-- A script that traps reports its failures.  Whatever happens to it, where running it comes to an
end there are the ends of its lines: each line ends as it does alone when the same happens to it,
from the workspace that the line before it has left and in which a failure of that line is noted.
Where no line ends in a signal all lines have been run, the script ends well exactly if none of
them has failed, and otherwise it ends with one fault of a script whose message joins those of the
failed lines in their order.  A line that ends in a signal is the last one that is run, and the
script ends with that signal. -/
theorem trapped_failures {s : Script} {r : ScopeRef} {w : Workspace} {hs : List Happening}
    {site : Site} {fuel : ℕ} {ending : Ending} {result : List Value} {t : FrameStack}
    {w' : Workspace}
    (h : FrameStack.run site fuel ((start s r true w).afterAll hs).stack
      ((start s r true w).afterAll hs).workspace = some (.done ending result, t, w')) :
    ∃ n account rest xs w₁, hs ++ List.replicate n (.step site) = account ++ rest ∧
      Account s r w account xs w₁ ∧ ComesTo s xs ending result := by
  obtain ⟨n, hstop⟩ := stop_of_run h
  have hprogress := Progress.afterAll s r w (hs ++ List.replicate n (.step site))
  rw [afterAll_append] at hprogress
  generalize ((start s r true w).afterAll hs).afterAll (List.replicate n (.step site)) = τ
    at hstop hprogress
  generalize hall : hs ++ List.replicate n (.step site) = all at hprogress
  cases hprogress with
  | fresh hbefore hstart =>
    exact absurd (FrameStack.eq_of_step_done rfl hstop)
      (by simp [start, ofFrame, Frame.ofScript])
  | line haccount hnoted hlines halone hbeside hfirst =>
    obtain ⟨htop, hnot⟩ := hbeside.not_done
    exact absurd (FrameStack.eq_of_step_done htop hstop) (hnot _ _)
  | closing haccount hnoted hlines w₂ =>
    exact absurd (FrameStack.eq_of_step_done rfl hstop) (by simp)
  | @finished account rest xs w₁ _ _ haccount hcomes w₂ =>
    cases FrameStack.eq_of_step_done rfl hstop
    exact ⟨n, account, rest, xs, w₁, hall, haccount, hcomes⟩

/-- A line that runs one command on words as they stand. -/
def commandLine (number : ℕ) (words : List String) : ScriptLine :=
  ⟨number, words.map .literal⟩

/-- Scopes with the built-in commands. -/
def furnished : Scopes := Scopes.defineAll ⟨[.empty]⟩ ⟨0, []⟩

/-- A script with two lines that fail, for different reasons, and one between them that does not. -/
def faltering : Script :=
  ⟨[commandLine 1 ["error", "a"], commandLine 2 ["set", "x", "1"], commandLine 3 ["nope"]],
    "error a\nset x 1\nnope"⟩

/-- The failures of `faltering` are reported together. -/
theorem trapped_failures_faltering :
    (∃ t w', FrameStack.run ⟨0, none⟩ 30
      (start faltering ⟨0, []⟩ true { scopes := furnished }).stack { scopes := furnished } =
        some (.done .error [.fault (.script "line 1: a\nline 3: unknown command 'nope'")], t, w')) ∧
    ∃ n account rest xs w₁, List.replicate n (.step ⟨0, none⟩) = account ++ rest ∧
      Account faltering ⟨0, []⟩ { scopes := furnished } account xs w₁ ∧
      ComesTo faltering xs .error
        [.fault (.script "line 1: a\nline 3: unknown command 'nope'")] := by
  refine ⟨⟨_, _, rfl⟩, ?_⟩
  let σ := (start faltering ⟨0, []⟩ true { scopes := furnished }).afterAll []
  have hrun : ∃ t w', FrameStack.run ⟨0, none⟩ 30 σ.stack σ.workspace =
      some (.done .error [.fault (.script "line 1: a\nline 3: unknown command 'nope'")], t, w') :=
    ⟨_, _, rfl⟩
  obtain ⟨t, w', h⟩ := hrun
  exact trapped_failures h

/-- A script whose first line fails and whose second one leaves it. -/
def leaving : Script :=
  ⟨[commandLine 1 ["error", "a"], commandLine 2 ["break"]], "error a\nbreak"⟩

/-- A signal passes over failures: `leaving` ends with the signal and without a fault, although the
failure of its first line has been noted.  So the failures are not reported, whichever of the lines
are counted as failed. -/
theorem signal_passes_failures :
    ∃ t w', FrameStack.run ⟨0, none⟩ 30 (start leaving ⟨0, []⟩ true { scopes := furnished }).stack
        { scopes := furnished } = some (.done .break [], t, w') ∧
      w'.scopes.get? ⟨0, []⟩ errorsVariable = some (.list [.text "line 1: a"]) ∧
      ∀ xs, ¬Reports xs .break [] := by
  refine ⟨_, _, rfl, rfl, fun xs hreports => ?_⟩
  have herror := (hreports.error (by decide)).1
  contradiction

end Scene

end Switchboard
