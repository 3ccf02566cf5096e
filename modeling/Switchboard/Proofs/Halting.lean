import Mathlib
import Switchboard.Proofs.ScriptShapes
import Switchboard.Proofs.Dialogues
import Switchboard.Proofs.Tables
import Switchboard.Proofs.Trapping
import Switchboard.Proofs.Writing

/-!
# Scripts that come to rest

A script can read text that it has made and run it, and so it can go on for ever.  A script is
*closed* when it cannot do so: each of its lines says as it is written which command it runs, and
what `eval`, `try` and `foreach` are to run stands there in braces, in a form that is closed again
(`Script.Closed`).  Closed scripts come to rest after finitely many steps, whatever their variables
hold and whatever the answers to their calls are (`Scene.closed_rests`).

No measure of stacks is needed.  A stack halts when it is accessible from what it can become
(`FrameStack.Halts`).  A frame sinks when it halts above everything that halts once the frame has
ended (`Frame.Sinks`).  Each command of a closed script comes to a frame that sinks if the scripts
it runs do so, which they do by induction on how they are nested, and so do the words of a line, the
lines of a script and the rounds of a loop, each by induction on those that are left.
-/

namespace Switchboard

/-! ## Closed scripts -/

/-- The value of a word that is the same in all scopes. -/
def ScriptWord.value? : ScriptWord → Option Value
  | .literal text => some (literalValue text)
  | .block text => some (.text text)
  | .variableRef _ | .substitution _ | .quoted _ => none

/-- The name of the command of a line, where it is the same in all scopes. -/
def ScriptLine.command? (l : ScriptLine) : Option String :=
  l.words.head?.bind fun word => word.value?.map Value.render

/-- The arguments that a command runs as scripts. -/
def Builtin.bodies {α : Type} (b : Builtin) (args : List α) : List α :=
  match b with
  | .eval | .try => args
  | .foreach => args[2]?.toList
  | _ => []

/-- Whether it is settled by the text of a script which scripts it can ever run.  Every line says as
it is written which command it runs, scripts in brackets are closed, and what a command runs as a
script stands in braces and is closed, unless it cannot be read at all. -/
inductive Script.Closed : Script → Prop
  | intro {s : Script}
      (commands : ∀ l ∈ s.lines, ∀ word ∈ l.words.head?, word.value?.isSome)
      (substitutions : ∀ l ∈ s.lines, ∀ word ∈ l.words, ∀ t, word.Mentions t → Closed t)
      (single : ∀ l ∈ s.lines, l.command? = some Builtin.eval.name → l.words.length ≤ 2)
      (blocks : ∀ l ∈ s.lines, ∀ b : Builtin, l.command? = some b.name →
        ∀ word ∈ b.bodies l.words.tail, ∃ text, word = .block text)
      (bodies : ∀ l ∈ s.lines, ∀ b : Builtin, l.command? = some b.name →
        ∀ text, .block text ∈ b.bodies l.words.tail →
          ∀ t, Script.ofText? text = .ok t → Closed t) : Closed s

/-- A script of one line is closed if the scripts in its words and those that it runs are. -/
lemma Script.closed_line {number : ℕ} {name : String} {words : List ScriptWord} {source : String}
    (hname : (literalValue name).render = name)
    (hmentions : ∀ word ∈ words, ∀ t, word.Mentions t → t.Closed)
    (hsingle : name = Builtin.eval.name → words.length ≤ 1)
    (hbodies : ∀ b : Builtin, b.name = name → ∀ word ∈ b.bodies words, ∃ text, word = .block text ∧
      ∀ t, Script.ofText? text = .ok t → t.Closed) :
    Script.Closed ⟨[⟨number, .literal name :: words⟩], source⟩ := by
  have hcommand : ScriptLine.command? ⟨number, .literal name :: words⟩ = some name := by
    simp [ScriptLine.command?, ScriptLine.words, ScriptWord.value?, hname]
  refine .intro ?_ ?_ ?_ ?_ ?_ <;> simp only [Script.lines, List.mem_singleton] <;> rintro l rfl
  · rintro word ⟨⟩
    rfl
  · intro word hword t ht
    rcases List.mem_cons.mp hword with rfl | hword
    · cases ht
    · exact hmentions word hword t ht
  · intro heval
    rw [hcommand, Option.some.injEq] at heval
    have hlength := hsingle heval
    simpa [ScriptLine.words] using hlength
  · intro b hb word hword
    rw [hcommand, Option.some.injEq] at hb
    obtain ⟨text, rfl, -⟩ := hbodies b hb.symm word hword
    exact ⟨text, rfl⟩
  · intro b hb text htext t ht
    rw [hcommand, Option.some.injEq] at hb
    obtain ⟨_, ⟨⟩, hclosed⟩ := hbodies b hb.symm _ htext
    exact hclosed t ht

/-! ## Scopes with the built-in commands -/

/-- Whether the commands of a scope are built-in ones under their own names. -/
def Scope.Standard (x : Scope) : Prop := ∀ name b, x.commands.find? name = some b → b.name = name

/-- Whether this is so in some scopes, which include all that are still to come. -/
structure Scopes.Standard (A : Set ℕ) (s : Scopes) : Prop where
  commands : ∀ i ∈ A, (s.scope i).Standard
  fresh : ∀ i, s.scopes.length ≤ i → i ∈ A

/-- Whether a scope and those around it are among some scopes. -/
def ScopeRef.Among (A : Set ℕ) (r : ScopeRef) : Prop := ∀ i ∈ r.chain, i ∈ A

section Standard

variable {A : Set ℕ} {s : Scopes} {r : ScopeRef}

/-- A name stands for the built-in command of that name or for none. -/
lemma Scopes.Standard.name_eq (hs : s.Standard A) (hr : r.Among A) {name : String} {b : Builtin}
    (h : s.command? r name = some b) : b.name = name := by
  obtain ⟨i, hi, hb⟩ := List.exists_of_findSome?_eq_some h
  exact hs.commands i (hr i hi) name b hb

/-- A scope inside of one of these scopes is one of them. -/
lemma Scopes.Standard.newChild (hs : s.Standard A) (hr : r.Among A) :
    (s.newChild r).1.Among A := by
  intro i hi
  rcases List.mem_cons.mp hi with rfl | hi
  · exact hs.fresh _ (le_refl _)
  · exact hr i hi

/-- Writing anywhere, which changes no commands. -/
def WriteRule.anywhere : WriteRule where
  inside _ := True
  admits _ := True
  keeps s t := (∀ i, (t.scope i).commands = (s.scope i).commands) ∧
    s.scopes.length ≤ t.scopes.length
  refl _ := ⟨fun _ => rfl, le_refl _⟩
  trans h h' := ⟨fun i => (h'.1 i).trans (h.1 i), h.2.trans h'.2⟩
  set {s r} _ name v := by
    refine ⟨fun i => ?_, by simp [Scopes.set, Scopes.update]⟩
    by_cases hi : r.own = i
    · subst hi
      simp only [Scopes.scope, Scopes.set, Scopes.update, List.getElem?_modify_eq]
      cases s.scopes[r.own]? <;> rfl
    · rw [Scopes.scope_set_of_ne hi]
  newChild {s} _ r := by
    refine ⟨⟨fun i => ?_, by simp [Scopes.newChild]⟩, trivial⟩
    rcases lt_trichotomy i s.scopes.length with hi | rfl | hi
    · simp [Scopes.scope, Scopes.newChild, List.getElem?_append_left hi]
    · simp [Scopes.scope, Scopes.newChild]
    · have hbefore : s.scopes[i]? = none := List.getElem?_eq_none hi.le
      have hafter : (s.scopes ++ [Scope.empty])[i]? = none :=
        List.getElem?_eq_none (by simpa using hi)
      simp [Scopes.scope, Scopes.newChild, hbefore, hafter]

/-- Scripts may write anywhere. -/
lemma Frame.within_anywhere (f : Frame) : f.Within .anywhere := by
  induction f with
  | done ending result => exact .done ending result
  | call target args => exact .call target args
  | waiting id => exact .waiting id
  | log level message => exact .log level message
  | andThen base next hbase hnext => exact .andThen hbase hnext
  | onFail body fallback hbody hfallback => exact .onFail hbody hfallback
  | script run => exact .script trivial
  | loop run => exact .loop trivial

/-- Stacks may write anywhere. -/
lemma FrameStack.within_anywhere (s : FrameStack) : s.Within .anywhere where
  top f _ := f.within_anywhere
  below p _ := by
    cases p with
    | andThen next => exact fun result => (next result).within_anywhere
    | onFail fallback => exact fun f => (fallback f).within_anywhere
    | _ => trivial

/-- Writing leaves the commands that there are. -/
lemma Scopes.Standard.keeps {t : Scopes} (hs : s.Standard A) (h : WriteRule.anywhere.keeps s t) :
    t.Standard A := by
  obtain ⟨hcommands, hlength⟩ := h
  refine ⟨fun i hi name b hb => ?_, fun i hi => hs.fresh i (hlength.trans hi)⟩
  rw [hcommands i] at hb
  exact hs.commands i hi name b hb

/-- Scripts define no commands. -/
lemma Scopes.Standard.step {site : Site} {t t' : FrameStack} {w w' : Workspace}
    (hw : w.scopes.Standard A) (h : FrameStack.step site t w = (.goOn t', w')) :
    w'.scopes.Standard A :=
  hw.keeps (t.within_anywhere.step trivial h).1

end Standard

/-! ## Stacks that halt -/

namespace FrameStack

/-- What a stack can become: it makes a step, with any variables, or its call is answered. -/
inductive Becomes (A : Set ℕ) : FrameStack → FrameStack → Prop
  | step {s t : FrameStack} {site : Site} {w w' : Workspace} (hw : w.scopes.Standard A)
      (h : step site s w = (.goOn t, w')) : Becomes A s t
  | answer (id : ℕ) (ending : Ending) (result : List Value) (below : List Pending) :
    Becomes A ⟨some (.waiting id), below⟩ ⟨some (.done ending result), below⟩

/-- Whether a stack comes to rest, whatever it becomes. -/
def Halts (A : Set ℕ) (s : FrameStack) : Prop := Acc (fun t s => Becomes A s t) s

/-- Whether frames come to rest, however the one above them has ended. -/
def HaltsBelow (A : Set ℕ) (below : List Pending) : Prop :=
  ∀ ending result, Halts A ⟨some (.done ending result), below⟩

end FrameStack

open FrameStack

/-- Whether a frame comes to rest on all frames that come to rest once it has ended. -/
def Frame.Sinks (A : Set ℕ) (f : Frame) : Prop :=
  ∀ below, HaltsBelow A below → Halts A ⟨some f, below⟩

/-- Whether a script comes to rest in all of the scopes. -/
def Script.Sinks (A : Set ℕ) (s : Script) : Prop :=
  ∀ run : ScriptRun, run.scope.Among A → run.current = none → run.rest = s.lines →
    (Frame.script run).Sinks A

section Halts

variable {A : Set ℕ} {s t : FrameStack} {below : List Pending}

/-- A stack that does not wait for an answer halts if its next stack does so. -/
lemma FrameStack.Halts.of_step (htop : ∀ id, s.top ≠ some (.waiting id))
    (h : ∀ site w t w', w.scopes.Standard A → step site s w = (.goOn t, w') → Halts A t) :
    Halts A s := by
  refine Acc.intro s fun t ht => ?_
  cases ht with
  | step hw hstep => exact h _ _ t _ hw hstep
  | answer id => exact absurd rfl (htop id)

/-- What a stack that halts becomes by a step halts. -/
lemma FrameStack.Halts.next {site : Site} {w w' : Workspace} (hs : Halts A s)
    (hw : w.scopes.Standard A) (h : step site s w = (.goOn t, w')) : Halts A t :=
  hs.inv (.step hw h)

/-- A stack that halts comes to rest when it is run. -/
lemma FrameStack.Halts.run (hs : Halts A s) (site : Site) {w : Workspace}
    (hw : w.scopes.Standard A) : ∃ fuel o t w', run site fuel s w = some (o, t, w') := by
  induction hs generalizing w with
  | intro s _ ih =>
    match hstep : step site s w with
    | (.stop o t, w') => exact ⟨1, o, t, w', by simp [FrameStack.run, hstep]⟩
    | (.goOn t, w') =>
      obtain ⟨fuel, o, u, w'', hrun⟩ := ih t (.step hw hstep) (hw.step hstep)
      exact ⟨fuel + 1, o, u, w'', by simp [FrameStack.run, hstep, hrun]⟩

/-! ## Frames that sink -/

/-- A frame that has ended sinks. -/
lemma sinks_done (ending : Ending) (result : List Value) : (Frame.done ending result).Sinks A :=
  fun _ hbelow => hbelow ending result

/-- A frame that waits sinks. -/
lemma sinks_waiting (id : ℕ) : (Frame.waiting id).Sinks A := by
  refine fun below hbelow => Acc.intro _ fun t ht => ?_
  cases ht with
  | step hw hstep => cases hstep
  | answer id ending result => exact hbelow ending result

/-- A call sinks. -/
lemma sinks_call (target : Endpoint) (args : List Value) : (Frame.call target args).Sinks A := by
  refine fun below hbelow => .of_step (by simp) fun site w t w' hw hstep => ?_
  cases hstep
  obtain ⟨time, replyTo⟩ := site
  cases replyTo with
  | none => exact hbelow _ _
  | some source => exact sinks_waiting _ below hbelow

/-- A log line sinks. -/
lemma sinks_log (level : LogLevel) (message : String) : (Frame.log level message).Sinks A := by
  refine fun below hbelow => .of_step (by simp) fun site w t w' hw hstep => ?_
  cases hstep
  exact hbelow _ _

/-- What ends in the same way as the frame above it comes to rest. -/
lemma haltsBelow_relay (hbelow : HaltsBelow A below) : HaltsBelow A (.relay :: below) := by
  refine fun ending result => .of_step (by simp) fun site w t w' hw hstep => ?_
  cases ending <;> cases hstep <;> exact hbelow _ _

/-- A frame with a fallback sinks if both do. -/
lemma sinks_onFail {body : Frame} {fallback : Fault → Frame} (hbody : body.Sinks A)
    (hfallback : ∀ f, (fallback f).Sinks A) : (Frame.onFail body fallback).Sinks A := by
  refine fun below hbelow => .of_step (by simp) fun site w t w' hw hstep => ?_
  cases hstep
  refine hbody _ fun ending result => .of_step (by simp) fun site w t w' hw hstep => ?_
  cases ending with
  | error =>
    cases hstep
    exact hfallback _ _ (haltsBelow_relay hbelow)
  | _ =>
    cases hstep
    exact hbelow _ _

/-- A script that sinks does so from its start. -/
lemma Script.Sinks.ofScript {s : Script} (hs : s.Sinks A) {r : ScopeRef} (hr : r.Among A)
    (trap : Bool) : (Frame.ofScript s r trap).Sinks A :=
  hs _ hr rfl rfl

/-- A loop sinks if its body does, by induction on the items that are left. -/
lemma sinks_loop {r : ScopeRef} (hr : r.Among A) (name : String) (items : List Value)
    {body : Script} (hbody : body.Sinks A) (last : List Value) :
    (Frame.loop ⟨r, name, items, body, last⟩).Sinks A := by
  intro below hbelow
  induction items generalizing last with
  | nil =>
    refine .of_step (by simp) fun site w t w' hw hstep => ?_
    cases hstep
    exact hbelow _ _
  | cons item items ih =>
    refine .of_step (by simp) fun site w t w' hw hstep => ?_
    cases hstep
    refine hbody.ofScript hr false _ fun ending result => ?_
    refine .of_step (by simp) fun site w t w' hw hstep => ?_
    cases ending with
    | ok | «continue» =>
      cases hstep
      exact ih _
    | error | «break» =>
      cases hstep
      exact hbelow _ _

/-! ## Lines -/

section Lines

variable {run : ScriptRun} {number : ℕ} {ready : List Value} {todo : List ScriptWord}

/-- Whether a script comes to rest once its current line is over. -/
structure Returns (A : Set ℕ) (run : ScriptRun) (below : List Pending) : Prop where
  ended : HaltsBelow A below
  goesOn : ∀ trapped last, Halts A
    ⟨some (.script { run with entry := [], current := none, trapped := trapped, last := last }),
      below⟩

/-- Whether the frame of a line with these values sinks, where there is one. -/
def CommandSinks (A : Set ℕ) (r : ScopeRef) (values : List Value) : Prop :=
  ∀ s child t, s.Standard A → commandFrame s r values = .ok (child, t) → child.Sinks A

/-- A line that fails lets its script come to rest. -/
lemma Returns.fail (h : Returns A run below) (l : LineRun) (scopes : Scopes) (f : Fault) :
    Halts A (ofStep ((run.onLine l).fail scopes f).1 below) := by
  unfold ScriptRun.fail
  split
  · exact h.ended _ _
  · exact h.goesOn _ _

/-- The command of a line lets its script come to rest. -/
lemma Returns.command (h : Returns A run below) (number : ℕ) {f : Frame} (hf : f.Sinks A) :
    Halts A (commandStack run below number f) := by
  refine hf _ fun ending result => .of_step (by simp) fun site w t w' hw hstep => ?_
  cases ending with
  | ok =>
    cases hstep
    exact h.goesOn _ _
  | error =>
    cases hstep
    exact h.fail _ _ _
  | «break» | «continue» =>
    cases hstep
    exact h.ended _ _

/-- A script in brackets lets the script around it come to rest if the line does so with any
result. -/
lemma Returns.word (h : Returns A run below) (l : LineRun)
    (htake : ∀ result, Halts A (lineStack run below (l.take result))) :
    HaltsBelow A (.word (run.onLine l) :: below) := by
  refine fun ending result => .of_step (by simp) fun site w t w' hw hstep => ?_
  cases ending with
  | ok =>
    cases hstep
    exact htake result
  | error =>
    cases hstep
    exact h.fail _ _ _
  | «break» | «continue» =>
    cases hstep
    exact h.ended _ _

/-- A line comes to rest if in all scopes it fails or comes to the same as one that does. -/
lemma Returns.line (h : Returns A run below) {l : LineRun}
    (heval : ∀ s, (∃ f, l.eval s run.scope = .failed f) ∨ ∃ l',
      Halts A (lineStack run below l') ∧ l.number = l'.number ∧
        l.eval s run.scope = l'.eval s run.scope) :
    Halts A (lineStack run below l) := by
  refine .of_step (by simp [lineStack]) fun site w t w' hw hstep => ?_
  rcases heval w.scopes with ⟨f, hf⟩ | ⟨l', hl', hnumber, hsame⟩
  · simp only [step_lineStack, hf] at hstep
    exact (h.command l.number (sinks_done _ _)).next hw hstep
  · rw [step_lineStack_congr hnumber hsame] at hstep
    exact hl'.next hw hstep

/-- A script in brackets runs before the rest of its line. -/
lemma Returns.substitution (h : Returns A run below) (hscope : run.scope.Among A) {l l' : LineRun}
    {script : Script} (heval : ∀ s, l.eval s run.scope = .substitution l' script)
    (hscript : script.Sinks A) (htake : ∀ result, Halts A (lineStack run below (l'.take result))) :
    Halts A (lineStack run below l) := by
  refine .of_step (by simp [lineStack]) fun site w t w' hw hstep => ?_
  simp only [step_lineStack, heval] at hstep
  cases hstep
  exact hscript.ofScript hscope false _ (h.word l' htake)

/-- A word that is put together from parts lets its line come to rest, by induction on the parts
that are left. -/
lemma Returns.parts (h : Returns A run below) (hscope : run.scope.Among A)
    {parts : List ScriptPart} (hparts : ∀ t, .substitution t ∈ parts → t.Sinks A)
    (hdone : ∀ text, Halts A (lineStack run below ⟨number, ready ++ [.text text], none, todo⟩))
    (text : String) :
    Halts A (lineStack run below ⟨number, ready, some (text, parts), todo⟩) := by
  induction parts generalizing text with
  | nil => exact h.line fun s => .inr ⟨_, hdone text, rfl, rfl⟩
  | cons part parts ih =>
    have hrest := ih fun t ht => hparts t (List.mem_cons_of_mem part ht)
    cases part with
    | text t => exact h.line fun s => .inr ⟨_, hrest (text ++ t), rfl, rfl⟩
    | variableRef name =>
      refine h.line fun s => ?_
      cases hvalue : s.get? run.scope name with
      | none => exact .inl ⟨Command.noVariable name, by simp [LineRun.eval, evalParts, hvalue]⟩
      | some v =>
        exact .inr ⟨_, hrest (text ++ v.render), rfl, by simp [LineRun.eval, evalParts, hvalue]⟩
    | substitution script =>
      exact h.substitution hscope (fun s => rfl) (hparts script List.mem_cons_self)
        fun result => hrest _

/-- Whether a value is that of a word, as far as the word alone says. -/
def ScriptWord.Gives (word : ScriptWord) (v : Value) : Prop := ∀ u, word.value? = some u → v = u

/-- The value that a word says for itself. -/
lemma ScriptWord.gives_value {word : ScriptWord} {v : Value} (h : word.value? = some v) :
    word.Gives v := by
  intro u hu
  rw [h] at hu
  exact Option.some.inj hu

/-- A word that says nothing for itself may have any value. -/
lemma ScriptWord.gives_of_none {word : ScriptWord} (h : word.value? = none) (v : Value) :
    word.Gives v := by
  intro u hu
  rw [h] at hu
  contradiction

/-- The words of a line let it come to rest if its command does so with any values that they can
have, by induction on the words that are left. -/
lemma Returns.words (h : Returns A run below) (hscope : run.scope.Among A) (number : ℕ)
    (hmentions : ∀ word ∈ todo, ∀ t, word.Mentions t → t.Sinks A)
    (hcommand : ∀ values, List.Forall₂ ScriptWord.Gives todo values →
      CommandSinks A run.scope (ready ++ values)) :
    Halts A (lineStack run below ⟨number, ready, none, todo⟩) := by
  induction todo generalizing ready with
  | nil =>
    have hready := hcommand [] .nil
    rw [List.append_nil] at hready
    refine .of_step (by simp [lineStack]) fun site w t w' hw hstep => ?_
    simp only [step_lineStack, LineRun.eval, evalWords] at hstep
    cases hframe : commandFrame w.scopes run.scope ready with
    | error f =>
      simp only [hframe] at hstep
      exact (h.command number (sinks_done _ _)).next hw hstep
    | ok x =>
      simp only [hframe] at hstep
      cases hstep
      exact h.command number (hready w.scopes x.1 x.2 hw hframe)
  | cons word todo ih =>
    have hnext (v : Value) (hv : word.Gives v) :
        Halts A (lineStack run below ⟨number, ready ++ [v], none, todo⟩) := by
      refine ih (fun u hu => hmentions u (List.mem_cons_of_mem word hu)) fun values hvalues => ?_
      rw [List.append_assoc]
      exact hcommand (v :: values) (.cons hv hvalues)
    cases word with
    | literal text =>
      have hv : (ScriptWord.literal text).Gives (literalValue text) := ScriptWord.gives_value rfl
      exact h.line fun s => .inr ⟨_, hnext _ hv, rfl, rfl⟩
    | block text =>
      have hv : (ScriptWord.block text).Gives (.text text) := ScriptWord.gives_value rfl
      exact h.line fun s => .inr ⟨_, hnext _ hv, rfl, rfl⟩
    | variableRef name =>
      refine h.line fun s => ?_
      cases hvalue : s.get? run.scope name with
      | none => exact .inl ⟨Command.noVariable name, by simp [LineRun.eval, evalWords, hvalue]⟩
      | some v =>
        refine .inr ⟨_, hnext v (ScriptWord.gives_of_none rfl v), rfl, ?_⟩
        simp [LineRun.eval, evalWords, hvalue]
    | substitution script =>
      exact h.substitution hscope (fun s => rfl) (hmentions _ List.mem_cons_self script .word)
        fun result => hnext (collapse result) (ScriptWord.gives_of_none rfl _)
    | quoted parts =>
      have hscripts (t : Script) (ht : .substitution t ∈ parts) : t.Sinks A :=
        hmentions _ List.mem_cons_self t (.part ht)
      have hparts := h.parts hscope hscripts
        (fun text => hnext (.text text) (ScriptWord.gives_of_none rfl _)) ""
      exact h.line fun s => .inr ⟨_, hparts, rfl, rfl⟩

end Lines

/-- Lines let a script come to rest, by induction on those that are left. -/
lemma sinks_lines {run : ScriptRun} (hscope : run.scope.Among A) (hcurrent : run.current = none)
    (hmentions : ∀ l ∈ run.rest, ∀ word ∈ l.words, ∀ t, word.Mentions t → t.Sinks A)
    (hcommand : ∀ l ∈ run.rest, ∀ values, List.Forall₂ ScriptWord.Gives l.words values →
      CommandSinks A run.scope values) : (Frame.script run).Sinks A := by
  intro below hbelow
  obtain ⟨r, trap, entry, current, rest, trapped, last⟩ := run
  subst hcurrent
  -- The variables that are set at first do not matter.
  suffices hplain : ∀ trapped last, Halts A
      ⟨some (.script ⟨r, trap, [], none, rest, trapped, last⟩), below⟩ by
    cases entry with
    | nil => exact hplain trapped last
    | cons e entry =>
      refine .of_step (by simp) fun site w t w' hw hstep => ?_
      cases hstep
      exact hplain trapped last
  induction rest with
  | nil =>
    refine fun trapped last => .of_step (by simp) fun site w t w' hw hstep => ?_
    cases trapped with
    | nil =>
      cases hstep
      exact hbelow _ _
    | cons message trapped =>
      cases hstep
      exact hbelow _ _
  | cons l rest ih =>
    have hrest := ih hscope (fun m hm => hmentions m (List.mem_cons_of_mem l hm))
      fun m hm => hcommand m (List.mem_cons_of_mem l hm)
    intro trapped last
    refine .of_step (by simp) fun site w t w' hw hstep => ?_
    cases hstep
    have hreturns : Returns A ⟨r, trap, [], none, rest, trapped, last⟩ below := ⟨hbelow, hrest⟩
    exact hreturns.words hscope l.number (hmentions l List.mem_cons_self)
      (hcommand l List.mem_cons_self)

/-! ## Commands -/

/-- Whether a value comes to rest where it is run as a script. -/
def Value.SinksAsBody (A : Set ℕ) (v : Value) : Prop :=
  ∀ t, Script.ofText? v.render = .ok t → t.Sinks A

section Commands

variable {r : ScopeRef} {scopes : Scopes} {child : Frame} {after : Scopes}

/-- The script that a value spells. -/
lemma sinks_of_body {v : Value} (hv : v.SinksAsBody A) {script : Script}
    (h : Command.body v = .ok script) : script.Sinks A := by
  unfold Command.body at h
  split at h
  · next hread =>
    cases h
    exact hv script hread
  · cases h

/-- `foreach` sinks if its body does. -/
lemma sinks_foreach (hr : r.Among A) {args : List Value}
    (hargs : ∀ v ∈ Builtin.foreach.bodies args, v.SinksAsBody A)
    (h : Command.foreach scopes r args = .ok (child, after)) : child.Sinks A := by
  unfold Command.foreach at h
  split at h
  · next name items code =>
    split at h
    · cases h
    · next script hbody =>
      cases h
      exact sinks_loop hr _ _ (sinks_of_body (hargs code (by simp [Builtin.bodies])) hbody) []
  · cases h

/-- `try` sinks if its bodies do. -/
lemma sinks_try (hr : r.Among A) {args : List Value}
    (hargs : ∀ v ∈ Builtin.try.bodies args, v.SinksAsBody A)
    (h : Command.try_ scopes r args = .ok (child, after)) : child.Sinks A := by
  unfold Command.try_ at h
  split at h
  · next code =>
    split at h
    · cases h
    · next script hbody =>
      cases h
      have hscript := sinks_of_body (hargs code (by simp [Builtin.bodies])) hbody
      exact sinks_onFail (hscript.ofScript hr false) fun f => sinks_done _ _
  · next code fallback =>
    split at h
    · cases h
    · cases h
    · next script handler hbody hfallback =>
      cases h
      have hscript := sinks_of_body (hargs code (by simp [Builtin.bodies])) hbody
      have hhandler := sinks_of_body (hargs fallback (by simp [Builtin.bodies])) hfallback
      exact sinks_onFail (hscript.ofScript hr false) fun f => hhandler _ hr rfl rfl
  · cases h

/-- `eval` sinks if its one argument does. -/
lemma sinks_eval (hscopes : scopes.Standard A) (hr : r.Among A) {args : List Value}
    (hsingle : args.length ≤ 1) (hargs : ∀ v ∈ Builtin.eval.bodies args, v.SinksAsBody A)
    (h : Command.eval scopes r args = .ok (child, after)) : child.Sinks A := by
  match args with
  | [] => cases h
  | [v] =>
    have hspaced : Command.spaced [v] = v.render := by simp [Command.spaced, Text.join]
    simp only [Command.eval, hspaced, List.isEmpty_cons, Bool.false_eq_true, ↓reduceIte] at h
    split at h
    · cases h
    · next script hbody =>
      cases h
      have hscript := sinks_of_body (hargs v (by simp [Builtin.bodies])) hbody
      exact hscript.ofScript (hscopes.newChild hr) false

/-- A built-in command sinks if the scripts that it runs do so. -/
lemma sinks_builtin (hscopes : scopes.Standard A) (hr : r.Among A) (b : Builtin)
    {args : List Value} (hsingle : b = .eval → args.length ≤ 1)
    (hargs : ∀ v ∈ b.bodies args, v.SinksAsBody A)
    (h : b.run scopes r args = .ok (child, after)) : child.Sinks A := by
  cases b with
  | foreach => exact sinks_foreach hr hargs h
  | «try» => exact sinks_try hr hargs h
  | eval => exact sinks_eval hscopes hr (hsingle rfl) hargs h
  | log =>
    cases h
    exact sinks_log _ _
  | list | «break» | «continue» =>
    cases h
    exact sinks_done _ _
  | error =>
    simp only [Builtin.run, Command.error] at h
    split at h <;> cases h <;> exact sinks_done _ _
  | set =>
    simp only [Builtin.run, Command.set] at h
    repeat' split at h
    all_goals cases h
    all_goals exact sinks_done _ _
  | incr =>
    simp only [Builtin.run, Command.incr, Command.add] at h
    repeat' split at h
    all_goals cases h
    all_goals exact sinks_done _ _

/-- A line sinks if the built-in command of its name does so. -/
lemma commandSinks_cons (hr : r.Among A) {v : Value} {args : List Value}
    (h : ∀ (b : Builtin) scopes child after, b.name = v.render → scopes.Standard A →
      b.run scopes r args = .ok (child, after) → child.Sinks A) :
    CommandSinks A r (v :: args) := by
  intro s child t hs hframe
  have hnamed {e : Except Fault Endpoint}
      (he : (e.map fun target => (Frame.call target args, s)) = .ok (child, t)) :
      child.Sinks A := by
    cases e with
    | error f => cases he
    | ok target =>
      cases he
      exact sinks_call target args
  unfold commandFrame at hframe
  split at hframe
  · next heq => cases heq
  · next heq =>
    cases heq
    cases hframe
    exact sinks_call _ args
  · next head rest _ heq =>
    cases heq
    cases hcommand : s.command? r v.render with
    | some b =>
      simp only [hcommand] at hframe
      exact h b s child t (hs.name_eq hr hcommand) hs hframe
    | none =>
      simp only [hcommand] at hframe
      split at hframe
      · exact hnamed hframe
      · split at hframe
        · exact hnamed hframe
        · cases hframe

end Commands

/-! ## Closed scripts come to rest -/

/-- The bodies of related lists of arguments are related. -/
lemma forall₂_bodies {α β : Type} {P : α → β → Prop} (b : Builtin) {as : List α} {bs : List β}
    (h : List.Forall₂ P as bs) : List.Forall₂ P (b.bodies as) (b.bodies bs) := by
  cases b with
  | eval | «try» => exact h
  | foreach =>
    obtain _ | ⟨-, _ | ⟨-, _ | ⟨hthird, -⟩⟩⟩ := h
    · exact .nil
    · exact .nil
    · exact .nil
    · exact .cons hthird .nil
  | _ => exact .nil

/-- Values that words give have what all values have that these words can give. -/
lemma forall_of_gives {P : Value → Prop} {words : List ScriptWord} {values : List Value}
    (h : List.Forall₂ ScriptWord.Gives words values)
    (hwords : ∀ word ∈ words, ∀ v, word.Gives v → P v) : ∀ v ∈ values, P v := by
  induction h with
  | nil => simp
  | @cons word v words values hv _ ih =>
    refine List.forall_mem_cons.mpr ⟨hwords word List.mem_cons_self v hv, ih ?_⟩
    exact fun u hu => hwords u (List.mem_cons_of_mem word hu)

/-- Closed scripts come to rest, by induction on how they are nested. -/
lemma Script.Closed.sinks {s : Script} (h : s.Closed) : s.Sinks A := by
  induction h with
  | @intro s commands _ single blocks _ hmentions hbodies =>
    intro run hscope hcurrent hrest
    refine sinks_lines hscope hcurrent (by rwa [hrest]) ?_
    rw [hrest]
    rintro ⟨number, words⟩ hl values hvalues
    cases hvalues with
    | nil =>
      intro scopes child after _ hframe
      cases hframe
      exact sinks_done _ _
    | @cons word v words values hv hvalues =>
      obtain ⟨u, hu⟩ := Option.isSome_iff_exists.mp (commands _ hl word rfl)
      obtain rfl := hv u hu
      refine commandSinks_cons hscope fun b scopes child after hname hscopes hrun => ?_
      have hcommand : ScriptLine.command? ⟨number, word :: words⟩ = some b.name := by
        simp [ScriptLine.command?, ScriptLine.words, hu, hname]
      refine sinks_builtin hscopes hscope b ?_ ?_ hrun
      · rintro rfl
        have hlength := single _ hl hcommand
        simp only [ScriptLine.words, List.length_cons] at hlength
        rw [← hvalues.length_eq]
        omega
      · refine forall_of_gives (forall₂_bodies b hvalues) fun body hbody u hu => ?_
        obtain ⟨text, rfl⟩ := blocks _ hl b hcommand body hbody
        obtain rfl := hu (.text text) rfl
        exact hbodies _ hl b hcommand text hbody

end Halts

/-- The scopes that a script in a scope can come to: this one, those around it, and those that are
still to come. -/
def ScopeRef.reach (r : ScopeRef) (s : Scopes) : Set ℕ := {i | i ∈ r.chain ∨ s.scopes.length ≤ i}

/-- Scopes that are still to come have no commands. -/
lemma Scopes.standard_reach {s : Scopes} {r : ScopeRef} (h : ∀ i ∈ r.chain, (s.scope i).Standard) :
    s.Standard (r.reach s) where
  commands i hi := by
    rcases hi with hi | hi
    · exact h i hi
    · intro name b hb
      simp [Scopes.scope, List.getElem?_eq_none hi, Scope.empty, Keyed.find?] at hb
  fresh i hi := .inr hi

namespace Scene

/-- Whether a scene comes to rest, whatever happens to it. -/
structure Halts (A : Set ℕ) (σ : Scene) : Prop where
  stack : FrameStack.Halts A σ.stack
  scopes : σ.workspace.scopes.Standard A

variable {A : Set ℕ} {σ : Scene}

/-- Whatever happens to a scene that comes to rest, it still does so. -/
lemma Halts.after (h : Halts A σ) (x : Happening)
    (hothers : ∀ v, x = .elsewhere v → v.scopes.Standard A) : Halts A (σ.after x) := by
  obtain ⟨stack, w⟩ := σ
  obtain ⟨hstack, hscopes⟩ := h
  cases x with
  | step site =>
    unfold Scene.after
    dsimp only
    split
    · next t w' hstep => exact ⟨hstack.next hscopes hstep, hscopes.step hstep⟩
    · exact ⟨hstack, hscopes⟩
  | post c =>
    refine ⟨?_, hscopes⟩
    change FrameStack.Halts A (stack.post c).2
    unfold FrameStack.post
    split
    · next hawaits =>
      obtain ⟨top, below⟩ := stack
      obtain rfl : top = some (.waiting c.matchId) := by
        unfold awaiting at hawaits
        split at hawaits <;> simp_all
      split
      · exact hstack.inv (.answer ..)
      · exact hstack.inv (.answer ..)
      · exact hstack
    · exact hstack
  | elsewhere v => exact ⟨hstack, hothers v rfl⟩

/-- The same over a whole history. -/
lemma Halts.afterAll (h : Halts A σ) (hs : List Happening)
    (hothers : ∀ v, .elsewhere v ∈ hs → v.scopes.Standard A) : Halts A (σ.afterAll hs) := by
  induction hs generalizing σ with
  | nil => exact h
  | cons x hs ih =>
    refine ih (h.after x fun v hv => hothers v (hv ▸ List.mem_cons_self)) fun v hv => ?_
    exact hothers v (List.mem_cons_of_mem x hv)

/-- Closed scripts always come to rest.  In scopes that have the built-in commands under their own
names and any variables, whatever has happened to the script so far (it has made steps, it was
handed calls, others have changed the workspace, but they have defined no other commands): when it
is run from there, it has ended or waits for an answer after finitely many steps. -/
theorem closed_rests {s : Script} (hs : s.Closed) {r : ScopeRef} {w : Workspace}
    (hcommands : ∀ i ∈ r.chain, (w.scopes.scope i).Standard) (trap : Bool) (past : List Happening)
    (hothers : ∀ v, .elsewhere v ∈ past → v.scopes.Standard (r.reach w.scopes)) (site : Site) :
    ∃ fuel o t w', FrameStack.run site fuel ((start s r trap w).afterAll past).stack
      ((start s r trap w).afterAll past).workspace = some (o, t, w') := by
  have hamong : r.Among (r.reach w.scopes) := fun i hi => .inl hi
  have hended : HaltsBelow (r.reach w.scopes) [] := by
    refine fun ending result => .of_step (by simp) fun site w t w' hw hstep => ?_
    cases hstep
  have hstart : Halts (r.reach w.scopes) (start s r trap w) :=
    ⟨hs.sinks.ofScript hamong trap [] hended, Scopes.standard_reach hcommands⟩
  have hnow := hstart.afterAll past hothers
  exact hnow.stack.run site hnow.scopes

/-- A script that rings. -/
def ring : Script := ⟨[⟨1, [.literal "/porch.bell", .variableRef "x"]⟩], "/porch.bell $x"⟩

/-- A script that tries to ring. -/
def tryRing : Script := ⟨[⟨1, [.literal "try", .block "/porch.bell $x"]⟩], "try {/porch.bell $x}"⟩

/-- A script whose result is a list. -/
def pair : Script := ⟨[⟨1, [.literal "list", .literal "a", .literal "b"]⟩], "list a b"⟩

/-- A script that tries to ring once for each item of a list. -/
def ringAll : Script :=
  ⟨[⟨1, [.literal "foreach", .literal "x", .substitution pair, .block "try {/porch.bell $x}"]⟩],
    "foreach x [list a b] {try {/porch.bell $x}}"⟩

/-- What happens to `ringAll` at first: it makes steps, others set a variable, and the first call is
answered. -/
def firstRound : List Happening :=
  List.replicate 15 (.step ⟨0, some Dialogue.bell⟩) ++
    [.elsewhere { scopes := furnished.set ⟨0, []⟩ "x" (.int 5) }, .post Dialogue.firstAnswer]

/-- `ringAll` is closed, and it comes to rest again after its first call has been answered. -/
theorem closed_rests_ringAll :
    Script.ofText? "foreach x [list a b] {try {/porch.bell $x}}" = .ok ringAll ∧ ringAll.Closed ∧
      ∃ fuel o t w', FrameStack.run ⟨0, some Dialogue.bell⟩ fuel
        ((start ringAll ⟨0, []⟩ false { scopes := furnished }).afterAll firstRound).stack
        ((start ringAll ⟨0, []⟩ false { scopes := furnished }).afterAll firstRound).workspace =
          some (o, t, w') := by
  have hring : ring.Closed := by
    refine Script.closed_line rfl ?_ (by decide) ?_
    · rintro word hword t ⟨⟩ <;> simp at hword
    · rintro b hb
      cases b <;> contradiction
  have htry : tryRing.Closed := by
    refine Script.closed_line rfl ?_ (by decide) ?_
    · rintro word hword t ⟨⟩ <;> simp at hword
    · rintro b hb word hword
      refine ⟨"/porch.bell $x", ?_, fun t ht => ?_⟩
      · cases b <;> first | contradiction | exact List.mem_singleton.mp hword
      · have hread : Script.ofText? "/porch.bell $x" = .ok ring := rfl
        cases hread.symm.trans ht
        exact hring
  have hpair : pair.Closed := by
    refine Script.closed_line rfl ?_ (by decide) ?_
    · rintro word hword t ⟨⟩ <;> simp at hword
    · rintro b hb
      cases b <;> first | contradiction | simp [Builtin.bodies]
  have hclosed : ringAll.Closed := by
    refine Script.closed_line rfl ?_ (by decide) ?_
    · rintro word hword t (⟨⟩ | ⟨hpart⟩)
      · obtain rfl : t = pair := by simpa using hword
        exact hpair
      · simp at hword
    · rintro b hb word hword
      refine ⟨"try {/porch.bell $x}", ?_, fun t ht => ?_⟩
      · cases b <;> first | contradiction | exact List.mem_singleton.mp hword
      · have hread : Script.ofText? "try {/porch.bell $x}" = .ok tryRing := rfl
        cases hread.symm.trans ht
        exact htry
  have hfurnished : ∀ i ∈ (⟨0, []⟩ : ScopeRef).chain, (furnished.scope i).Standard := by
    intro i hi name b hb
    obtain rfl := List.mem_singleton.mp hi
    have hnames : ∀ e ∈ (furnished.scope 0).commands, e.2.name = e.1 := by decide
    exact hnames _ (Keyed.mem_of_find? hb)
  have hothers : ∀ v, .elsewhere v ∈ firstRound →
      v.scopes.Standard (ScopeRef.reach ⟨0, []⟩ furnished) := by
    intro v hv
    obtain rfl : v = { scopes := furnished.set ⟨0, []⟩ "x" (.int 5) } := by
      simpa [firstRound] using hv
    exact (Scopes.standard_reach hfurnished).keeps (WriteRule.anywhere.set trivial "x" (.int 5))
  exact ⟨rfl, hclosed,
    closed_rests (w := { scopes := furnished }) hclosed hfurnished false firstRound hothers _⟩

end Scene

end Switchboard
