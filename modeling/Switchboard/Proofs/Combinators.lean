import Mathlib
import Switchboard.Proofs.Dialogues
import Switchboard.Proofs.Trapping

/-!
# The laws of the combinators

A frame is known by what is seen of it when it is driven: each run of its stack, wherever and in
whatever workspace it takes place, and the call that the stack is handed afterwards
(`FrameStack.Seen`).  Two frames are equivalent when the same can be seen of both.

The main theorem `Frame.combinator_laws` says that `andThen` and `onFail` are lawful: each has a
unit on either side and is associative, and what they do not continue passes them unchanged.

All laws come from one fact.  A run of a frame on others either suspends within the frame or comes
to its end, and does so whatever those others are (`FrameStack.run_onto`).  So two stacks that
differ only at the bottom are equivalent once they are equivalent when all above has ended
(`FrameStack.Equivalent.onto`).
-/

namespace Switchboard

namespace FrameStack

/-! ## Runs -/

/-- Whether a run leads to an outcome, a stack and a workspace. -/
def Comes (site : Site) (s : FrameStack) (w : Workspace)
    (x : StackOutcome × FrameStack × Workspace) : Prop :=
  ∃ fuel, run site fuel s w = some x

section Comes

variable {site : Site} {s t : FrameStack} {w w' : Workspace} {o : StackOutcome}
  {x y : StackOutcome × FrameStack × Workspace}

/-- A run leads to one thing only. -/
lemma Comes.unique (hx : Comes site s w x) (hy : Comes site s w y) : x = y := by
  obtain ⟨n, hn⟩ := hx
  obtain ⟨m, hm⟩ := hy
  have hn' := run_mono (le_max_left n m) hn
  have hm' := run_mono (le_max_right n m) hm
  rw [hn'] at hm'
  exact Option.some.inj hm'

/-- A run leads to where it leads after its first step. -/
lemma comes_of_goOn (h : step site s w = (.goOn t, w')) :
    Comes site s w x ↔ Comes site t w' x := by
  constructor
  · rintro ⟨fuel, hrun⟩
    cases fuel with
    | zero => contradiction
    | succ fuel =>
      rw [run, h] at hrun
      exact ⟨fuel, hrun⟩
  · rintro ⟨fuel, hrun⟩
    refine ⟨fuel + 1, ?_⟩
    rw [run, h]
    exact hrun

/-- A run leads to where its first step stops. -/
lemma comes_of_stop (h : step site s w = (.stop o t, w')) :
    Comes site s w x ↔ x = (o, t, w') := by
  have hstop : Comes site s w (o, t, w') := by
    refine ⟨1, ?_⟩
    rw [run, h]
  constructor
  · intro hx
    exact hx.unique hstop
  · rintro rfl
    exact hstop

end Comes

/-! ## What is seen of a stack -/

/-- A visit to a stack: where and in which workspace it is run, and what it is handed then. -/
structure Visit where
  site : Site
  work : Workspace
  call : Call

/-- What is seen on a visit: the outcome of the run, the workspace after it with the calls that were
sent and the log lines that were written, and whether the call was accepted. -/
structure Sighting where
  outcome : StackOutcome
  work : Workspace
  accepted : Bool

/-- Whether this is seen of a stack on these visits. -/
inductive Seen : FrameStack → List Visit → List Sighting → Prop
  | nil (s : FrameStack) : Seen s [] []
  | cons {s t : FrameStack} {v : Visit} {vs : List Visit} {xs : List Sighting} {o : StackOutcome}
      {w : Workspace} (hrun : Comes v.site s v.work (o, t, w))
      (hrest : Seen (t.post v.call).2 vs xs) :
      Seen s (v :: vs) (⟨o, w, (t.post v.call).1⟩ :: xs)

/-- Whether the same can be seen of two stacks. -/
def Equivalent (s t : FrameStack) : Prop := ∀ vs xs, Seen s vs xs ↔ Seen t vs xs

/-- Whether a stack, whatever happens, ends only in ways of some kind. -/
def Ends (P : Ending → List Value → Prop) (s : FrameStack) : Prop :=
  ∀ vs xs, Seen s vs xs → ∀ x ∈ xs, ∀ ending result, x.outcome = .done ending result →
    P ending result

variable {s t u : FrameStack} {vs : List Visit} {xs ys : List Sighting}
  {P : Ending → List Value → Prop}

/-- One thing only is seen on the same visits. -/
lemma Seen.unique (hx : Seen s vs xs) (hy : Seen s vs ys) : xs = ys := by
  induction hx generalizing ys with
  | nil s => cases hy; rfl
  | cons hrun hrest ih =>
    cases hy with
    | cons hrun' hrest' =>
      cases hrun.unique hrun'
      rw [ih hrest']

/-- The same is seen of stacks whose first runs lead to the same. -/
lemma seen_congr {site : Site} {w w' : Workspace} (c : Call)
    (h : ∀ x, Comes site s w x ↔ Comes site t w' x) :
    Seen s (⟨site, w, c⟩ :: vs) xs ↔ Seen t (⟨site, w', c⟩ :: vs) xs := by
  constructor
  · rintro (_ | ⟨hrun, hrest⟩)
    exact .cons ((h _).mp hrun) hrest
  · rintro (_ | ⟨hrun, hrest⟩)
    exact .cons ((h _).mpr hrun) hrest

/-- Each stack is equivalent to itself. -/
lemma Equivalent.refl (s : FrameStack) : s.Equivalent s := fun _ _ => Iff.rfl

/-- Equivalence goes both ways. -/
lemma Equivalent.symm (h : s.Equivalent t) : t.Equivalent s := fun vs xs => (h vs xs).symm

/-- Equivalence goes on. -/
lemma Equivalent.trans (h : s.Equivalent t) (h' : t.Equivalent u) : s.Equivalent u :=
  fun vs xs => (h vs xs).trans (h' vs xs)

instance : Trans Equivalent Equivalent Equivalent := ⟨Equivalent.trans⟩

/-- A stack is equivalent to the one to which a step takes it that changes nothing else. -/
lemma Equivalent.of_step (h : ∀ site w, step site s w = (.goOn t, w)) : s.Equivalent t := by
  intro vs xs
  cases vs with
  | nil =>
    constructor
    · rintro ⟨⟩
      exact .nil t
    · rintro ⟨⟩
      exact .nil s
  | cons v vs => exact seen_congr v.call fun _ => comes_of_goOn (h v.site v.work)

/-! ## Frames on others -/

/-- A run of a frame on others suspends within it or comes to its end, whatever the others are. -/
lemma run_onto {site : Site} {fuel : ℕ} {f : Frame} {upper tail : List Pending} {w : Workspace}
    {x : StackOutcome × FrameStack × Workspace}
    (h : run site fuel ⟨some f, upper ++ tail⟩ w = some x) :
    (∃ id above w', x = (.suspended id, ⟨some (.waiting id), above ++ tail⟩, w') ∧
      ∀ tail, Comes site ⟨some f, upper ++ tail⟩ w
        (.suspended id, ⟨some (.waiting id), above ++ tail⟩, w')) ∨
    ∃ ending result w', ∀ tail y, Comes site ⟨some f, upper ++ tail⟩ w y ↔
      Comes site ⟨some (.done ending result), tail⟩ w' y := by
  induction fuel generalizing f upper w with
  | zero => contradiction
  | succ fuel ih =>
    rcases step_onto site f upper w with ⟨rfl, ending, result, rfl⟩ | ⟨id, rfl⟩ | ⟨g, above, w', hg⟩
    · exact .inr ⟨ending, result, w, fun tail y => Iff.rfl⟩
    · refine .inl ⟨id, upper, w, ?_, fun tail => ⟨1, rfl⟩⟩
      exact (Option.some.inj h).symm
    · rw [run, hg] at h
      rcases ih h with ⟨id, above', v, hx, hcomes⟩ | ⟨ending, result, v, hcomes⟩
      · exact .inl ⟨id, above', v, hx, fun tail => (comes_of_goOn (hg tail)).mpr (hcomes tail)⟩
      · exact .inr ⟨ending, result, v, fun tail y =>
          (comes_of_goOn (hg tail)).trans (hcomes tail y)⟩

variable {f : Frame} {upper bottom bottom' : List Pending}

/-- What is seen of a frame on others is seen of it on different ones, if this is so once it has
ended in one of the ways in which it ends. -/
lemma Seen.onto (hbottom : ∀ ending result, P ending result → ∀ vs xs,
      Seen ⟨some (.done ending result), bottom⟩ vs xs →
        Seen ⟨some (.done ending result), bottom'⟩ vs xs)
    (hends : Ends P ⟨some f, upper⟩) (h : Seen ⟨some f, upper ++ bottom⟩ vs xs) :
    Seen ⟨some f, upper ++ bottom'⟩ vs xs := by
  induction vs generalizing f upper xs with
  | nil =>
    cases h
    exact .nil _
  | cons v vs ih =>
    obtain _ | ⟨⟨fuel, hrun⟩, hrest⟩ := h
    obtain ⟨site, w, c⟩ := v
    have halone {y : StackOutcome × FrameStack × Workspace}
        (hy : Comes site ⟨some f, upper ++ []⟩ w y) : Comes site ⟨some f, upper⟩ w y := by
      rwa [List.append_nil] at hy
    rcases run_onto hrun with ⟨id, above, w', hx, hcomes⟩ | ⟨ending, result, w', hcomes⟩
    · cases hx
      obtain ⟨flag, g, hpost⟩ := post_onto (.waiting id) c
      rw [hpost] at hrest ⊢
      have hwithin : Ends P ⟨some g, above⟩ := by
        intro vs' xs' hseen x hx
        have hfirst := halone (hcomes [])
        rw [List.append_nil] at hfirst
        refine hends (⟨site, w, c⟩ :: vs') _ (.cons hfirst ?_) x (List.mem_cons_of_mem _ hx)
        rw [hpost]
        exact hseen
      have hnext := Seen.cons (v := ⟨site, w, c⟩) (hcomes bottom')
        (by rw [hpost]; exact ih hwithin hrest)
      rwa [hpost] at hnext
    · have hP : P ending result := by
        have hlast := halone ((hcomes [] _).mpr ⟨1, rfl⟩)
        exact hends _ _ (.cons (v := ⟨site, w, c⟩) hlast (.nil _)) _ List.mem_cons_self _ _ rfl
      refine (seen_congr c (hcomes bottom')).mpr (hbottom ending result hP _ _ ?_)
      exact (seen_congr c (hcomes bottom)).mp (.cons ⟨fuel, hrun⟩ hrest)

/-- A frame on others is equivalent to it on different ones, if this is so once it has ended in one
of the ways in which it ends. -/
lemma Equivalent.onto (upper : List Pending) (hbottom : ∀ ending result, P ending result →
      Equivalent ⟨some (.done ending result), bottom⟩ ⟨some (.done ending result), bottom'⟩)
    (hends : Ends P ⟨some f, upper⟩) :
    Equivalent ⟨some f, upper ++ bottom⟩ ⟨some f, upper ++ bottom'⟩ := fun _ _ =>
  ⟨Seen.onto (fun ending result hP vs xs => (hbottom ending result hP vs xs).mp) hends,
    Seen.onto (fun ending result hP vs xs => (hbottom ending result hP vs xs).mpr) hends⟩

/-- A frame on others is equivalent to it on different ones, if this is so once it has ended. -/
lemma Equivalent.below (f : Frame) (upper : List Pending)
    (hbottom : ∀ ending result,
      Equivalent ⟨some (.done ending result), bottom⟩ ⟨some (.done ending result), bottom'⟩) :
    Equivalent ⟨some f, upper ++ bottom⟩ ⟨some f, upper ++ bottom'⟩ :=
  .onto (P := fun _ _ => True) upper (fun ending result _ => hbottom ending result)
    fun _ _ _ _ _ _ _ _ => trivial

/-- What ends in the same way as the frame above it makes no difference, wherever it waits. -/
lemma equivalent_relay (f : Frame) (upper below : List Pending) :
    Equivalent ⟨some f, upper ++ .relay :: below⟩ ⟨some f, upper ++ below⟩ :=
  .below f upper fun ending result => .of_step fun site w => by cases ending <;> rfl

/-- A stack in which another frame takes the place of one that has ended is equivalent to that
frame on what was below. -/
lemma Equivalent.continues {ending : Ending} {result : List Value} {p : Pending} {g : Frame}
    {below : List Pending} (h : ∀ site w, step site ⟨some (.done ending result), p :: below⟩ w =
      (.goOn ⟨some g, .relay :: below⟩, w)) :
    Equivalent ⟨some (.done ending result), p :: below⟩ ⟨some g, below⟩ :=
  (Equivalent.of_step h).trans (equivalent_relay g [] below)

/-- What is seen of a frame is seen of it on others that let the ways pass in which it ends. -/
lemma Seen.past (upper : List Pending)
    (hbottom : ∀ ending result, P ending result → ∀ site w,
      step site ⟨some (.done ending result), bottom⟩ w =
        (.goOn ⟨some (.done ending result), []⟩, w))
    (h : Seen ⟨some f, upper⟩ vs xs)
    (hends : ∀ x ∈ xs, ∀ ending result, x.outcome = .done ending result → P ending result) :
    Seen ⟨some f, upper ++ bottom⟩ vs xs := by
  induction vs generalizing f upper xs with
  | nil =>
    cases h
    exact .nil _
  | cons v vs ih =>
    obtain _ | ⟨⟨fuel, hrun⟩, hrest⟩ := h
    obtain ⟨site, w, c⟩ := v
    rw [← upper.append_nil] at hrun
    rcases run_onto hrun with ⟨id, above, w', hx, hcomes⟩ | ⟨ending, result, w', hcomes⟩
    · cases hx
      obtain ⟨flag, g, hpost⟩ := post_onto (.waiting id) c
      rw [List.append_nil, hpost] at hrest ⊢
      have hwithin := ih above hrest fun x hx => hends x (List.mem_cons_of_mem _ hx)
      have hnext := Seen.cons (v := ⟨site, w, c⟩) (hcomes bottom) (by rwa [hpost])
      rwa [hpost] at hnext
    · have hend := (comes_of_stop rfl).mp ((hcomes [] _).mp ⟨fuel, hrun⟩)
      cases hend
      have hP := hends _ List.mem_cons_self ending result rfl
      refine .cons ((hcomes bottom _).mpr ?_) hrest
      exact (comes_of_goOn (hbottom ending result hP site _)).mpr ⟨1, rfl⟩

/-! ## Scripts fail with a fault -/

/-- Whether a stack is that of a script, or of what is left of one that fails with a fault if it
fails. -/
inductive Scripted : FrameStack → Prop
  | script (run : ScriptRun) : Scripted ⟨some (.script run), []⟩
  | word (f : Frame) (upper : List Pending) (run : ScriptRun) :
    Scripted ⟨some f, upper ++ [.word run]⟩
  | command (f : Frame) (upper : List Pending) (run : ScriptRun) :
    Scripted ⟨some f, upper ++ [.command run]⟩
  | done {ending : Ending} {result : List Value}
    (h : ending = .error → ∃ fault, result = [.fault fault]) :
    Scripted ⟨some (.done ending result), []⟩
  | gone : Scripted ⟨none, []⟩

/-- A line that fails ends a script with its fault or lets it go on. -/
lemma scripted_fail (run : ScriptRun) (scopes : Scopes) (f : Fault) :
    Scripted (ofStep (run.fail scopes f).1 []) := by
  unfold ScriptRun.fail
  split
  · exact .done fun _ => ⟨f, rfl⟩
  · exact .script _

/-- A step of a script leads to one of its lines or to its end. -/
lemma scripted_step (run : ScriptRun) (scopes : Scopes) :
    Scripted (ofStep (run.step scopes).1 []) := by
  unfold ScriptRun.step
  split
  · exact .script _
  · split
    · split
      · unfold ScriptRun.complete
        split
        · exact .done nofun
        · exact .done fun _ => ⟨_, rfl⟩
      · exact .script _
    · split
      · exact scripted_fail _ _ _
      · exact .word _ [] _
      · split
        · exact scripted_fail _ _ _
        · exact .command _ [] _

section Scripted

variable {site : Site} {w w' : Workspace}

/-- A stack of a script stays one. -/
lemma Scripted.goOn (hs : s.Scripted) (h : step site s w = (.goOn t, w')) : t.Scripted := by
  cases hs with
  | script run =>
    cases h
    exact scripted_step run w.scopes
  | word f upper run =>
    rcases step_onto site f upper w with ⟨rfl, ending, result, rfl⟩ | ⟨id, rfl⟩ | ⟨g, above, v, hg⟩
    · cases ending <;> cases h
      · exact .script _
      · exact scripted_fail _ _ _
      · exact .done nofun
      · exact .done nofun
    · cases h
    · rw [hg] at h
      cases h
      exact .word g above run
  | command f upper run =>
    rcases step_onto site f upper w with ⟨rfl, ending, result, rfl⟩ | ⟨id, rfl⟩ | ⟨g, above, v, hg⟩
    · cases ending <;> cases h
      · exact .script _
      · exact scripted_fail _ _ _
      · exact .done nofun
      · exact .done nofun
    · cases h
    · rw [hg] at h
      cases h
      exact .command g above run
  | done hfault => cases h
  | gone => cases h

/-- Where the stack of a script stops, it is one still, and if it fails it does so with a fault. -/
lemma Scripted.stop {o : StackOutcome} (hs : s.Scripted) (h : step site s w = (.stop o t, w')) :
    t.Scripted ∧ ∀ result, o = .done .error result → ∃ fault, result = [.fault fault] := by
  have hwaits {id : ℕ} {below : List Pending} (hs : Scripted ⟨some (.waiting id), below⟩)
      (h : step site ⟨some (.waiting id), below⟩ w = (.stop o t, w')) :
      t.Scripted ∧ ∀ result, o = .done .error result → ∃ fault, result = [.fault fault] := by
    cases h
    exact ⟨hs, nofun⟩
  cases hs with
  | script run => cases h
  | word f upper run =>
    rcases step_onto site f upper w with ⟨rfl, ending, result, rfl⟩ | ⟨id, rfl⟩ | ⟨g, above, v, hg⟩
    · cases h
    · exact hwaits (.word _ upper run) h
    · rw [hg] at h
      cases h
  | command f upper run =>
    rcases step_onto site f upper w with ⟨rfl, ending, result, rfl⟩ | ⟨id, rfl⟩ | ⟨g, above, v, hg⟩
    · cases h
    · exact hwaits (.command _ upper run) h
    · rw [hg] at h
      cases h
  | done hfault =>
    cases h
    refine ⟨.gone, ?_⟩
    rintro result ⟨⟩
    exact hfault rfl
  | gone =>
    cases h
    exact ⟨.gone, nofun⟩

/-- A run of the stack of a script leaves one, and if it fails it does so with a fault. -/
lemma Scripted.comes {o : StackOutcome} (hs : s.Scripted) (h : Comes site s w (o, t, w')) :
    t.Scripted ∧ ∀ result, o = .done .error result → ∃ fault, result = [.fault fault] := by
  obtain ⟨fuel, hrun⟩ := h
  induction fuel generalizing s w with
  | zero => contradiction
  | succ fuel ih =>
    rw [run] at hrun
    rcases hstep : step site s w with ⟨next, v⟩
    rw [hstep] at hrun
    cases next with
    | goOn s' => exact ih (hs.goOn hstep) hrun
    | stop o' t' =>
      cases hrun
      exact hs.stop hstep

/-- A stack of a script that is handed a call stays one. -/
lemma Scripted.post (hs : s.Scripted) (c : Call) : (s.post c).2.Scripted := by
  cases hs with
  | script run => exact .script run
  | word f upper run =>
    obtain ⟨flag, g, hpost⟩ := post_onto f c
    rw [hpost]
    exact .word g upper run
  | command f upper run =>
    obtain ⟨flag, g, hpost⟩ := post_onto f c
    rw [hpost]
    exact .command g upper run
  | done hfault => exact .done hfault
  | gone => exact .gone

end Scripted

end FrameStack

namespace Frame

open FrameStack

/-- Whether the same can be seen of two frames. -/
def Equivalent (f g : Frame) : Prop := (ofFrame f).Equivalent (ofFrame g)

/-- Whether a frame that fails always does so with one fault as its result. -/
def FailsWithFault (f : Frame) : Prop :=
  (ofFrame f).Ends fun ending result => ending = .error → ∃ fault, result = [.fault fault]

/-- A script that fails does so with one fault. -/
lemma failsWithFault_script (run : ScriptRun) : (script run).FailsWithFault := by
  have hseen {s : FrameStack} {vs : List Visit} {xs : List Sighting} (hs : s.Scripted)
      (h : Seen s vs xs) : ∀ x ∈ xs, ∀ ending result, x.outcome = .done ending result →
        ending = .error → ∃ fault, result = [.fault fault] := by
    induction h with
    | nil s => simp
    | cons hrun hrest ih =>
      obtain ⟨ht, hfault⟩ := hs.comes hrun
      intro x hx
      rcases List.mem_cons.mp hx with rfl | hx
      · rintro ending result rfl rfl
        exact hfault result rfl
      · exact ih (ht.post _) x hx
  exact fun vs xs h => hseen (.script run) h

/-! ## The laws -/

section Laws

variable (f : Frame) (k h : List Value → Frame) (fallback handler : Fault → Frame)

/-- A frame with something to follow is that frame on what waits to follow. -/
lemma andThen_start : (ofFrame (andThen f k)).Equivalent ⟨some f, [.andThen k]⟩ :=
  .of_step fun _ _ => rfl

/-- A frame with a fallback is that frame on the fallback that waits. -/
lemma onFail_start : (ofFrame (onFail f fallback)).Equivalent ⟨some f, [.onFail fallback]⟩ :=
  .of_step fun _ _ => rfl

/-- What follows on a result is what is made of that result. -/
lemma ok_andThen (result : List Value) : (andThen (ok result) k).Equivalent (k result) :=
  (andThen_start (ok result) k).trans (.continues fun _ _ => rfl)

/-- A frame followed by its result is that frame. -/
lemma andThen_ok : (andThen f ok).Equivalent f := by
  refine (andThen_start f ok).trans (.below f [] fun ending result => ?_)
  cases ending with
  | ok => exact .continues fun _ _ => rfl
  | _ => exact .of_step fun _ _ => rfl

/-- What follows may be put together first. -/
lemma andThen_assoc :
    (andThen (andThen f k) h).Equivalent (andThen f fun result => andThen (k result) h) := by
  have hleft : (ofFrame (andThen (andThen f k) h)).Equivalent ⟨some f, [.andThen k, .andThen h]⟩ :=
    (andThen_start (andThen f k) h).trans (.of_step fun _ _ => rfl)
  have hright := andThen_start f fun result => andThen (k result) h
  refine (hleft.trans (.below f [] fun ending result => ?_)).trans hright.symm
  cases ending with
  | ok =>
    have hnext : FrameStack.Equivalent
        ⟨some (ok result), [.andThen fun result => andThen (k result) h]⟩
        ⟨some (k result), [.andThen h]⟩ :=
      (Equivalent.continues fun _ _ => rfl).trans (andThen_start (k result) h)
    exact (Equivalent.continues fun _ _ => rfl).trans hnext.symm
  | _ =>
    exact (Equivalent.of_step fun _ _ => rfl).trans <|
      (Equivalent.of_step fun _ _ => rfl).trans (Equivalent.of_step fun _ _ => rfl).symm

/-- The fallback of a fault is what is made of that fault. -/
lemma error_onFail (e : Fault) : (onFail (error e) fallback).Equivalent (fallback e) :=
  (onFail_start (error e) fallback).trans (.continues fun _ _ => rfl)

/-- A frame that falls back on its fault is that frame. -/
lemma onFail_error (hf : f.FailsWithFault) : (onFail f error).Equivalent f := by
  refine (onFail_start f error).trans (.onto [] (fun ending result hresult => ?_) hf)
  cases ending with
  | error =>
    obtain ⟨e, rfl⟩ := hresult rfl
    exact .continues fun _ _ => rfl
  | _ => exact .of_step fun _ _ => rfl

/-- Fallbacks may be put together first. -/
lemma onFail_assoc :
    (onFail (onFail f fallback) handler).Equivalent
      (onFail f fun e => onFail (fallback e) handler) := by
  have hleft : (ofFrame (onFail (onFail f fallback) handler)).Equivalent
      ⟨some f, [.onFail fallback, .onFail handler]⟩ :=
    (onFail_start (onFail f fallback) handler).trans (.of_step fun _ _ => rfl)
  have hright := onFail_start f fun e => onFail (fallback e) handler
  refine (hleft.trans (.below f [] fun ending result => ?_)).trans hright.symm
  cases ending with
  | error =>
    have hnext : FrameStack.Equivalent
        ⟨some (.done .error result), [.onFail fun e => onFail (fallback e) handler]⟩
        ⟨some (fallback (.ofArgs result)), [.onFail handler]⟩ :=
      (Equivalent.continues fun _ _ => rfl).trans (onFail_start _ handler)
    exact (Equivalent.continues fun _ _ => rfl).trans hnext.symm
  | _ =>
    exact (Equivalent.of_step fun _ _ => rfl).trans <|
      (Equivalent.of_step fun _ _ => rfl).trans (Equivalent.of_step fun _ _ => rfl).symm

variable {f} {vs : List Visit} {xs : List Sighting}

/-- As long as a frame has not ended well, nothing else is seen of it with something to follow. -/
lemma andThen_passes (hseen : Seen (ofFrame f) vs xs)
    (hbad : ∀ x ∈ xs, ∀ result, x.outcome ≠ .done .ok result) :
    Seen (ofFrame (andThen f k)) vs xs := by
  refine (andThen_start f k vs xs).mpr ?_
  refine Seen.past (P := fun ending _ => ending ≠ .ok) [] ?_ hseen ?_
  · intro ending result hending site w
    cases ending with
    | ok => contradiction
    | _ => rfl
  · rintro x hx ending result hx' rfl
    exact hbad x hx result hx'

/-- As long as a frame has not failed, nothing else is seen of it with a fallback. -/
lemma onFail_passes (hseen : Seen (ofFrame f) vs xs)
    (hgood : ∀ x ∈ xs, ∀ result, x.outcome ≠ .done .error result) :
    Seen (ofFrame (onFail f fallback)) vs xs := by
  refine (onFail_start f fallback vs xs).mpr ?_
  refine Seen.past (P := fun ending _ => ending ≠ .error) [] ?_ hseen ?_
  · intro ending result hending site w
    cases ending with
    | error => contradiction
    | _ => rfl
  · rintro x hx ending result hx' rfl
    exact hgood x hx result hx'

end Laws

/-- The combinators are lawful, whatever the frames, the workspaces in which they are run and the
answers to their calls.  For `andThen` a result is a unit on both sides, and `andThen` is
associative; for `onFail` a failure is one, on the right for frames that fail with one fault only,
and `onFail` is associative.  What is seen of a frame that does not end well is all that is seen of
it with something to follow, whatever that is, and what is seen of a frame that does not fail is all
that is seen of it with a fallback. -/
theorem combinator_laws :
    (∀ result k, (andThen (ok result) k).Equivalent (k result)) ∧
    (∀ f, (andThen f ok).Equivalent f) ∧
    (∀ f k h, (andThen (andThen f k) h).Equivalent (andThen f fun v => andThen (k v) h)) ∧
    (∀ e h, (onFail (error e) h).Equivalent (h e)) ∧
    (∀ f : Frame, f.FailsWithFault → (onFail f error).Equivalent f) ∧
    (∀ f k h, (onFail (onFail f k) h).Equivalent (onFail f fun e => onFail (k e) h)) ∧
    ∀ f vs xs, Seen (ofFrame f) vs xs →
      ((∀ x ∈ xs, ∀ result, x.outcome ≠ .done .ok result) →
        ∀ k ys, Seen (ofFrame (andThen f k)) vs ys ↔ ys = xs) ∧
      ((∀ x ∈ xs, ∀ result, x.outcome ≠ .done .error result) →
        ∀ h ys, Seen (ofFrame (onFail f h)) vs ys ↔ ys = xs) := by
  refine ⟨fun result k => ok_andThen k result, andThen_ok, andThen_assoc,
    fun e h => error_onFail h e, onFail_error, onFail_assoc, fun f vs xs hseen => ⟨?_, ?_⟩⟩
  · intro hbad k ys
    have hsame := andThen_passes k hseen hbad
    exact ⟨fun hys => hys.unique hsame, fun hys => hys ▸ hsame⟩
  · intro hgood h ys
    have hsame := onFail_passes h hseen hgood
    exact ⟨fun hys => hys.unique hsame, fun hys => hys ▸ hsame⟩

/-- A frame that rings and leaves the loop around it when it is answered. -/
def ringAndLeave : Frame := .andThen (.call Dialogue.bell []) fun _ => .done .break []

/-- Two visits to `ringAndLeave`, each with the answer to its call. -/
def twoVisits : List Visit :=
  [⟨⟨0, some Dialogue.bell⟩, {}, Dialogue.firstAnswer⟩,
    ⟨⟨0, some Dialogue.bell⟩, {}, Dialogue.firstAnswer⟩]

/-- What is seen of `ringAndLeave`: a call that is answered, and then the signal. -/
def ringSeen : List Sighting :=
  [⟨.suspended 1, { ledger := { nextId := 2, made := [Dialogue.firstRing] }
                    sent := [Dialogue.firstRing] }, true⟩,
    ⟨.done .break [], {}, false⟩]

/-- A script that fails. -/
def complaint : Frame := .ofScript ⟨[⟨1, [.literal "error", .literal "late"]⟩], ""⟩ ⟨0, []⟩ false

/-- A script may fall back on its own fault, and a frame that leaves a loop after a call does so
whatever was to follow. -/
theorem combinator_laws_ringAndLeave :
    complaint.FailsWithFault ∧ (onFail complaint error).Equivalent complaint ∧
      Seen (ofFrame ringAndLeave) twoVisits ringSeen ∧
      ∀ k ys, Seen (ofFrame (andThen ringAndLeave k)) twoVisits ys ↔ ys = ringSeen := by
  obtain ⟨-, -, -, -, hfallback, -, hpasses⟩ := combinator_laws
  have hscript : complaint.FailsWithFault := failsWithFault_script _
  have hseen : Seen (ofFrame ringAndLeave) twoVisits ringSeen :=
    .cons (t := ⟨some (.waiting 1), [.andThen fun _ => .done .break []]⟩) ⟨3, rfl⟩
      (.cons (t := ⟨none, []⟩) ⟨4, rfl⟩ (.nil _))
  refine ⟨hscript, hfallback _ hscript, hseen, (hpasses _ _ _ hseen).1 ?_⟩
  simp [ringSeen]

end Frame

end Switchboard
