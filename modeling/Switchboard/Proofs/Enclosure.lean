import Mathlib
import Switchboard.Proofs.Dialogues
import Switchboard.Proofs.Trapping
import Switchboard.Proofs.Writing

/-!
# Scripts in scopes of their own

`eval` runs a script in a new scope.  Everything that the script does is done in that scope or in
scopes that are newer still, whatever commands and substitutions it is made of, and so the scopes
that were there before are left as they are: at every moment they are what others have made of them
(`Scene.eval_keeps_enclosing`).

Scopes are numbered in the order in which they are opened, and all frames of the script write in
scopes from some number on.  This is a rule of writing (`WriteRule.beyond`), and so it is kept by
whatever the script does.
-/

namespace Switchboard

/-! ## What is kept of the older scopes -/

/-- How scopes have changed when the first `n` of them have been left as they were. -/
structure Scopes.Keeps (n : ℕ) (s t : Scopes) : Prop where
  scope : ∀ i < n, t.scope i = s.scope i
  length : s.scopes.length ≤ t.scopes.length

namespace Scopes

variable {n : ℕ} {s t u : Scopes}

/-- Nothing has changed. -/
lemma Keeps.refl (s : Scopes) : s.Keeps n s where
  scope _ _ := rfl
  length := le_refl _

/-- One change after another. -/
lemma Keeps.trans (h : s.Keeps n t) (h' : t.Keeps n u) : s.Keeps n u where
  scope i hi := (h'.scope i hi).trans (h.scope i hi)
  length := h.length.trans h'.length

end Scopes

/-- Writing in scopes from number `n` on, which leaves the older ones as they are. -/
def WriteRule.beyond (n : ℕ) : WriteRule where
  inside r := n ≤ r.own
  admits s := n ≤ s.scopes.length
  keeps := Scopes.Keeps n
  refl := .refl
  trans h h' := h.trans h'
  set hr name v :=
    { scope := fun i hi => Scopes.scope_set_of_ne (by omega) name v
      length := by simp [Scopes.set, Scopes.update] }
  newChild {s} hn r :=
    ⟨{ scope := fun i hi => by
        simp [Scopes.scope, Scopes.newChild, List.getElem?_append_left (hi.trans_le hn)]
       length := by simp [Scopes.newChild] }, hn⟩

/-! ## Runs of `eval` -/

/-- A workspace as others have left it last, when nothing is done to it but by them. -/
def Workspace.byOthers (w : Workspace) (hs : List Happening) : Workspace :=
  hs.foldl (fun v x => match x with | .elsewhere u => u | .step _ | .post _ => v) w

namespace Scene

open FrameStack

/-- Whether the frames above others have ended, and these are to go on. -/
def BackAt (below : List Pending) (σ : Scene) : Prop :=
  ∃ ending result, σ.stack = ⟨some (.done ending result), below⟩

variable {n : ℕ} {below : List Pending} {σ : Scene}

/-- Whether frames above others write in scopes from number `n` on, in a workspace in which the
older ones are those of another. -/
structure WritesAbove (n : ℕ) (below : List Pending) (others : Workspace) (σ : Scene) : Prop where
  stack : ∃ f upper, σ.stack = ⟨some f, upper ++ below⟩ ∧
    FrameStack.Within (.beyond n) ⟨some f, upper⟩
  older : ∀ i < n, σ.workspace.scopes.scope i = others.scopes.scope i
  length : n ≤ σ.workspace.scopes.scopes.length

/-- Whatever happens while the frames above others have not ended, the older scopes are those that
others have left. -/
lemma WritesAbove.after {others : Workspace} (h : WritesAbove n below others σ)
    (hrunning : ¬BackAt below σ) (x : Happening)
    (hothers : ∀ v, x = .elsewhere v → n ≤ v.scopes.scopes.length) :
    WritesAbove n below (others.byOthers [x]) (σ.after x) := by
  obtain ⟨stack, w⟩ := σ
  obtain ⟨⟨f, upper, rfl, hf⟩, holder, hlength⟩ := h
  cases x with
  | step site =>
    rcases step_onto site f upper w with ⟨rfl, ending, result, rfl⟩ | ⟨id, rfl⟩ | ⟨g, above, v, hg⟩
    · exact absurd ⟨ending, result, rfl⟩ hrunning
    · exact ⟨⟨_, upper, rfl, hf⟩, holder, hlength⟩
    · have halone := hg []
      rw [List.append_nil, List.append_nil] at halone
      obtain ⟨hkeeps, hg'⟩ := hf.step hlength halone
      simp only [Scene.after, hg below]
      exact ⟨⟨g, above, rfl, hg'⟩, fun i hi => (hkeeps.scope i hi).trans (holder i hi),
        hlength.trans hkeeps.length⟩
  | post c =>
    obtain ⟨flag, g, hg⟩ := post_onto f c
    have hpost := hf.post c
    rw [hg] at hpost
    simp only [Scene.after, hg]
    exact ⟨⟨g, upper, rfl, hpost⟩, holder, hlength⟩
  | elsewhere v => exact ⟨⟨f, upper, rfl, hf⟩, fun i hi => rfl, hothers v rfl⟩

/-- The same over a whole run. -/
lemma WritesAbove.afterAll {others : Workspace} (h : WritesAbove n below others σ)
    (hs : List Happening) (hrunning : ∀ front, front <+: hs → front ≠ hs →
      ¬BackAt below (σ.afterAll front))
    (hothers : ∀ v, .elsewhere v ∈ hs → n ≤ v.scopes.scopes.length) :
    WritesAbove n below (others.byOthers hs) (σ.afterAll hs) := by
  induction hs generalizing σ others with
  | nil => exact h
  | cons x hs ih =>
    have hnow : ¬BackAt below σ := hrunning [] (List.nil_prefix) (List.cons_ne_nil x hs).symm
    have hnext := h.after hnow x fun v hv => hothers v (hv ▸ List.mem_cons_self)
    refine ih hnext (fun front hfront hne => ?_) fun v hv => hothers v (List.mem_cons_of_mem x hv)
    refine hrunning (x :: front) ((List.prefix_cons_inj x).mpr hfront) ?_
    rw [ne_eq, List.cons.injEq]
    exact fun heq => hne heq.2

/-- `eval` never touches the scopes around it.  Whatever script it runs, above whatever frames, and
whatever happens until that script has ended (it makes steps, it is handed calls, others change the
workspace, but they take no scope away): at that moment, all scopes that there were when `eval` was
called hold the variables and commands that others have left in them last. -/
theorem eval_keeps_enclosing {w : Workspace} {r : ScopeRef} {args : List Value} {f : Frame}
    {s : Scopes} (heval : Builtin.eval.run w.scopes r args = .ok (f, s)) (below : List Pending)
    (hs : List Happening)
    (hothers : ∀ v, .elsewhere v ∈ hs → w.scopes.scopes.length ≤ v.scopes.scopes.length)
    (hrunning : ∀ front, front <+: hs → front ≠ hs →
      ¬BackAt below (Scene.afterAll ⟨⟨some f, below⟩, { w with scopes := s }⟩ front))
    (i : ℕ) (hi : i < w.scopes.scopes.length) :
    (Scene.afterAll ⟨⟨some f, below⟩, { w with scopes := s }⟩ hs).workspace.scopes.scope i =
      (w.byOthers hs).scopes.scope i := by
  have hfirst := Command.eval_within (K := .beyond w.scopes.scopes.length) args (le_refl _) r
  obtain ⟨hkeeps, hf⟩ := hfirst f s heval
  have hstart : WritesAbove w.scopes.scopes.length below w
      ⟨⟨some f, below⟩, { w with scopes := s }⟩ :=
    ⟨⟨f, [], rfl, .mk' hf (by simp)⟩, hkeeps.scope, hkeeps.length⟩
  exact (hstart.afterAll hs hrunning hothers).older i hi

/-- A workspace with one scope, in which `x` is set. -/
def hall : Workspace := { scopes := furnished.set ⟨0, []⟩ "x" (.int 1) }

/-- A script that sets variables and rings, and that notes why nobody answers. -/
def ringing : List Value := [.text "incr x; try {/porch.bell} {set y $_ERROR}"]

/-- What `eval` makes of `ringing` in `hall`. -/
def ringingScene : Scene :=
  match Builtin.eval.run hall.scopes ⟨0, []⟩ ringing with
  | .ok (f, s) => ⟨⟨some f, []⟩, { hall with scopes := s }⟩
  | .error f => ⟨.ofFrame (.error f), hall⟩

/-- Nine steps, after which `ringing` waits. -/
def untilRing : List Happening := List.replicate 9 (.step ⟨0, some Dialogue.bell⟩)

/-- The workspace while `ringing` waits, when others have set `x` in the scope around it. -/
def hallMeanwhile : Workspace :=
  let w := (ringingScene.afterAll untilRing).workspace
  { w with scopes := w.scopes.set ⟨0, []⟩ "x" (.int 5) }

/-- What happens to `ringing`: it rings, others set `x`, the answer is a failure, and it runs to its
end. -/
def visit : List Happening :=
  untilRing ++ .elsewhere hallMeanwhile :: .post { Dialogue.firstAnswer with kind := .error } ::
    List.replicate 10 (.step ⟨0, some Dialogue.bell⟩)

/-- At the end of `ringing` its variables are in the scope of its own, and the scope around it is as
the others have left it. -/
theorem eval_keeps_enclosing_ringing :
    (∀ i < hall.scopes.scopes.length,
      (ringingScene.afterAll visit).workspace.scopes.scope i = hallMeanwhile.scopes.scope i) ∧
    (ringingScene.afterAll visit).workspace.scopes.get? ⟨1, [0]⟩ "x" = some (.int 2) ∧
    (ringingScene.afterAll visit).workspace.scopes.get? ⟨1, [0]⟩ "y" =
      some (.fault (.other "1")) := by
  have hframe : ∃ f s, Builtin.eval.run hall.scopes ⟨0, []⟩ ringing = .ok (f, s) := ⟨_, _, rfl⟩
  obtain ⟨f, s, heval⟩ := hframe
  have hscene : ringingScene = ⟨⟨some f, []⟩, ⟨s, hall.ledger, hall.sent, hall.log⟩⟩ := by
    simp only [ringingScene, heval]
  have hrunning : ∀ k < visit.length,
      ((ringingScene.afterAll (visit.take k)).stack.below.isEmpty &&
        (ringingScene.afterAll (visit.take k)).stack.top.any
          fun f => match f with | .done .. => true | _ => false) = false := by
    decide +kernel
  have hothers : ∀ v, .elsewhere v ∈ visit → v = hallMeanwhile := by
    simp [visit, untilRing]
  have hleft : hall.byOthers visit = hallMeanwhile := by
    simp [Workspace.byOthers, visit, untilRing]
  refine ⟨fun i hi => ?_, by decide +kernel, by decide +kernel⟩
  rw [← hleft, hscene]
  refine eval_keeps_enclosing heval [] visit ?_ ?_ i hi
  · intro v hv
    rw [hothers v hv]
    decide +kernel
  · rintro front hfront hne ⟨ending, result, hdone⟩
    have hlength : front.length < visit.length :=
      lt_of_le_of_ne hfront.length_le fun heq => hne (hfront.eq_of_length heq)
    have hnot := hrunning front.length hlength
    rw [← List.prefix_iff_eq_take.mp hfront, hscene, hdone] at hnot
    simp at hnot

end Scene

end Switchboard
