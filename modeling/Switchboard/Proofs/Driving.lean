import Mathlib
import Switchboard.Proofs.DirectEvaluation

/-!
# Driving a stack of frames

A stack is driven by running it until it waits, handing it the next of some given answers, and
running it again, until its last frame has ended.  `FrameStack.drive` does so with a bound on
the steps of each run, and `Drives` says how a stack ends when the bound is large enough.

The laws below move along a driven stack backwards: what it comes to after a step, or after a call
and its answer, it comes to from before (`Drives.of_step`, `Drives.of_call`), and two stacks that
make the same step come to the same (`Drives.of_step_eq`).
-/

namespace Switchboard

/-! ## Answers -/

namespace Answer

/-- The kind of call that an answer is. -/
def kind : Answer → CallKind
  | .reply _ => .reply
  | .error _ => .error

/-- The arguments of an answer. -/
def args : Answer → List Value
  | .reply args => args
  | .error args => args

/-- The answer as the call that goes back to where a request came from. -/
def respond (a : Answer) (c : Call) : Option Call :=
  c.source.map fun back => ⟨c.matchId, some c.target, back, c.time, a.kind, a.args⟩

end Answer

/-- The effects of a run: it ends as soon as a call is sent, so its log lines come before that. -/
def Workspace.effects (w : Workspace) : List Effect :=
  w.log.map (fun l => .log l.1 l.2) ++ w.sent.map fun c => .call c.target c.args

/-! ## Driven stacks -/

/-- How a driven stack has ended, with the scopes, the effects and the answers left over. -/
structure Finish where
  ending : Ending
  result : List Value
  scopes : Scopes
  effects : List Effect
  answers : List Answer

/-- A driven stack between two steps: the run under way, the effects of the runs before it, and the
answers still to come. -/
structure Session where
  work : Workspace
  past : List Effect := []
  answers : List Answer

namespace FrameStack

/-- Runs a stack, hands it the next answer to the call that it waits for, and so on until it is
done.  Each run takes at most `limit` steps. -/
def drive (site : Site) (limit : ℕ) (s : FrameStack) (w : Workspace) (past : List Effect)
    (answers : List Answer) : Option Finish :=
  match run site limit s w with
  | none => none
  | some (.done ending result, _, w) =>
    some ⟨ending, result, w.scopes, past ++ w.effects, answers⟩
  | some (.suspended _, s, w) =>
    match answers with
    | [] => none
    | a :: rest =>
      match (w.sent.getLast?.bind a.respond).map s.post with
      | some (true, s) =>
        drive site limit s { scopes := w.scopes, ledger := w.ledger } (past ++ w.effects) rest
      | _ => none

/-- More steps than a run needs change nothing. -/
lemma run_mono {site : Site} {n m : ℕ} (hnm : n ≤ m) {s : FrameStack} {w : Workspace}
    {x : StackOutcome × FrameStack × Workspace} (h : run site n s w = some x) :
    run site m s w = some x := by
  induction n generalizing m s w with
  | zero => simp [run] at h
  | succ n ih =>
    obtain ⟨m, rfl⟩ : ∃ k, m = k + 1 := ⟨m - 1, by omega⟩
    rw [run] at h ⊢
    match hs : step site s w with
    | (.goOn t, w') =>
      rw [hs] at h
      exact ih (Nat.le_of_succ_le_succ hnm) h
    | (.stop o t, w') =>
      rw [hs] at h
      exact h

/-- What is made of a run: the stack has ended, or it is driven further with its answer. -/
lemma drive_eq_of_run_eq {site : Site} {n : ℕ} {s t : FrameStack} {w v : Workspace}
    (h : run site n s w = run site n t v) (past : List Effect) (answers : List Answer) :
    drive site n s w past answers = drive site n t v past answers := by
  cases answers with
  | nil => rw [drive, drive, h]
  | cons a rest => rw [drive, drive, h]

/-- More steps for each run change nothing in how a driven stack ends. -/
lemma drive_mono {site : Site} {n m : ℕ} (hnm : n ≤ m) {s : FrameStack} {w : Workspace}
    {past : List Effect} {answers : List Answer} {o : Finish}
    (h : drive site n s w past answers = some o) : drive site m s w past answers = some o := by
  induction answers generalizing s w past with
  | nil =>
    rw [drive] at h ⊢
    cases hr : run site n s w with
    | none => rw [hr] at h; contradiction
    | some x => rw [hr] at h; rw [run_mono hnm hr]; exact h
  | cons a rest ih =>
    rw [drive] at h ⊢
    cases hr : run site n s w with
    | none => rw [hr] at h; contradiction
    | some x =>
      rw [hr] at h
      rw [run_mono hnm hr]
      obtain ⟨outcome, t, w'⟩ := x
      cases outcome with
      | done ending result => exact h
      | suspended id =>
        simp only at h ⊢
        split at h
        · exact ih h
        · contradiction

/-- How a stack in a session ends when it is driven with enough steps for each run. -/
def Drives (site : Site) (s : FrameStack) (σ : Session) (o : Finish) : Prop :=
  ∃ limit, drive site limit s σ.work σ.past σ.answers = some o

namespace Drives

variable {site : Site} {s t : FrameStack} {σ : Session} {o : Finish}

/-- A stack whose last frame has ended is done. -/
lemma of_done (ending : Ending) (result : List Value) :
    Drives site ⟨some (.done ending result), []⟩ σ
      ⟨ending, result, σ.work.scopes, σ.past ++ σ.work.effects, σ.answers⟩ := by
  refine ⟨1, ?_⟩
  cases σ.answers <;> rfl

/-- A bound that works is positive, since a run takes at least one step. -/
lemma exists_succ (h : Drives site s σ o) :
    ∃ limit, drive site (limit + 1) s σ.work σ.past σ.answers = some o := by
  obtain ⟨limit, h⟩ := h
  exact ⟨limit, drive_mono (Nat.le_succ limit) h⟩

/-- Two stacks that make the same step come to the same. -/
lemma of_step_eq (hs : step site s σ.work = step site t σ.work) (h : Drives site t σ o) :
    Drives site s σ o := by
  obtain ⟨limit, h⟩ := exists_succ h
  refine ⟨limit + 1, ?_⟩
  have hr : run site (limit + 1) s σ.work = run site (limit + 1) t σ.work := by
    rw [run, run, hs]
  rw [drive_eq_of_run_eq hr]
  exact h

/-- What a stack comes to after a step, it comes to from before that step. -/
lemma of_step {w : Workspace} (hs : step site s σ.work = (.goOn t, w))
    (h : Drives site t { σ with work := w } o) : Drives site s σ o := by
  obtain ⟨limit, h⟩ := h
  refine ⟨limit + 1, ?_⟩
  have hr : run site (limit + 1) s σ.work = run site limit t w := by
    rw [run, hs]
  cases hx : run site limit t w with
  | none =>
    cases ha : σ.answers <;> simp [ha, drive, hx] at h
  | some x =>
    have hx' : run site (limit + 1) s σ.work = run site (limit + 1) t w := by
      rw [hr, hx, run_mono (Nat.le_succ limit) hx]
    rw [drive_eq_of_run_eq hx']
    exact drive_mono (Nat.le_succ limit) h

/-- The frame that an answer becomes in the place of the call. -/
def answered : Answer → Frame
  | .reply args => .ok args
  | .error args => .error (.ofArgs args)

/-- A call ends the run; what a stack comes to with the answer in a new run, it comes to from the
call. -/
lemma of_call {source : Endpoint} (hsite : site.replyTo = some source) {target : Endpoint}
    {args : List Value} {below : List Pending} {a : Answer} {rest : List Answer}
    (hsent : σ.work.sent = []) (ha : σ.answers = a :: rest)
    (h : Drives site ⟨some (answered a), below⟩
      { work := { scopes := σ.work.scopes
                  ledger := (σ.work.ledger.request target source site.time args).2 }
        past := σ.past ++ σ.work.effects ++ [.call target args]
        answers := rest } o) :
    Drives site ⟨some (.call target args), below⟩ σ o := by
  obtain ⟨limit, h⟩ := h
  obtain ⟨⟨scopes, ledger, sent, log⟩, past, answers⟩ := σ
  simp only at hsent ha h
  subst hsent ha
  refine ⟨limit + 2, ?_⟩
  have hrun : run site (limit + 2) ⟨some (.call target args), below⟩ ⟨scopes, ledger, [], log⟩ =
      some (.suspended ledger.nextId, ⟨some (.waiting ledger.nextId), below⟩,
        ⟨scopes, (ledger.request target source site.time args).2,
          [(ledger.request target source site.time args).1], log⟩) := by
    simp [run, step, sendCall, hsite, Ledger.request]
  rw [drive, hrun]
  have hm := drive_mono (Nat.le_add_right limit 2) h
  cases a <;>
    simpa [Answer.respond, Ledger.request, post, awaiting, Answer.kind, Answer.args, answered,
      Workspace.effects] using hm

end Drives

end FrameStack

end Switchboard
