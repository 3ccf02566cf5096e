import Mathlib
import Switchboard.Proofs.Awaiting

/-!
# One outstanding call

A `Dialogue` is a stack together with the calls that it has sent and the answers that it has
accepted.  It begins with a frame that waits for nothing.  From then on the stack is run and handed
calls in any order, and between that others may change the scopes in which it runs and make requests
of their own.

The invariant is a single equation (`Dialogue.Paired`): the numbers of the calls that were sent are
those of the accepted answers, in the same order, followed by the number that the stack waits for,
if it waits.  So a stack sends a call only when all that it has sent are answered, and it accepts an
answer to nothing but the last one.
-/

namespace Switchboard

open Relation

/-- A stack, the workspace in which it runs, and the answers that it has accepted, in order. -/
structure Dialogue where
  stack : FrameStack
  workspace : Workspace
  accepted : List Call := []

namespace Dialogue

/-- A frame that has not been run, where nothing has been sent. -/
def start (f : Frame) (scopes : Scopes) (ledger : Ledger) : Dialogue where
  stack := .ofFrame f
  workspace := { scopes := scopes, ledger := ledger }

/-- Whether a call is the answer for which a stack waits. -/
def Awaits (d : Dialogue) (c : Call) : Prop :=
  c.isResponse = true ∧ d.stack.awaiting = some c.matchId

instance (d : Dialogue) (c : Call) : Decidable (d.Awaits c) := inferInstanceAs (Decidable (_ ∧ _))

/-- A stack that has been handed a call. -/
def post (d : Dialogue) (c : Call) : Dialogue where
  stack := (d.stack.post c).2
  workspace := d.workspace
  accepted := if d.Awaits c then d.accepted ++ [c] else d.accepted

/-- Whether running a stack leads to an outcome and leaves it as told. -/
def Runs (d : Dialogue) (o : StackOutcome) (e : Dialogue) : Prop :=
  e.accepted = d.accepted ∧
    ∃ site fuel, d.stack.run site fuel d.workspace = some (o, e.stack, e.workspace)

/-- What can happen to a stack. -/
inductive Step : Dialogue → Dialogue → Prop
  | run {d e : Dialogue} {o : StackOutcome} (h : d.Runs o e) : Step d e
  | post (d : Dialogue) (c : Call) : Step d (d.post c)
  /-- Others set variables and make requests. -/
  | elsewhere (d : Dialogue) (scopes : Scopes) (ledger : Ledger) :
      Step d { d with workspace := { d.workspace with scopes := scopes, ledger := ledger } }

/-- What can happen to a stack, one after the other. -/
abbrev Steps : Dialogue → Dialogue → Prop := ReflTransGen Step

/-! ## Calls and their answers -/

/-- Whether the calls that were sent are those that were answered and the one that the stack waits
for. -/
structure Paired (d : Dialogue) : Prop where
  sound : d.stack.Sound
  numbers : d.workspace.sent.map Call.matchId =
    d.accepted.map Call.matchId ++ d.stack.awaiting.toList

variable {d e : Dialogue} {o : StackOutcome} {c : Call}

/-- At the start nothing was sent and nothing is waited for. -/
lemma Paired.start {f : Frame} (hf : f.Plain) (scopes : Scopes) (ledger : Ledger) :
    (start f scopes ledger).Paired where
  sound := .plain hf (by simp)
  numbers := by
    have hnone : (FrameStack.ofFrame f).awaiting = none := FrameStack.awaiting_of_plain hf
    rw [Dialogue.start, hnone]
    rfl

/-- A run sends at most one call, and only if the stack has not been waiting. -/
lemma Paired.run (hd : d.Paired) (h : d.Runs o e) : e.Paired := by
  obtain ⟨haccepted, site, fuel, hrun⟩ := h
  obtain ⟨hsound, -, -, new, hsends, hnew⟩ := FrameStack.run_rests hd.sound hrun
  refine ⟨hsound, ?_⟩
  calc e.workspace.sent.map Call.matchId
      = d.workspace.sent.map Call.matchId ++ new.map Call.matchId := by
        rw [hsends.sent, List.map_append]
    _ = d.accepted.map Call.matchId ++ (d.stack.awaiting.toList ++ new.map Call.matchId) := by
        rw [hd.numbers, List.append_assoc]
    _ = e.accepted.map Call.matchId ++ e.stack.awaiting.toList := by rw [hnew, haccepted]

/-- A call that is not the awaited answer makes no difference. -/
lemma post_of_not_awaits (hc : ¬d.Awaits c) : d.post c = d := by
  have hstack : (d.stack.post c).2 = d.stack := by
    unfold FrameStack.post
    split
    · next hawaiting =>
      have hresponse : c.isResponse ≠ true := fun hresponse => hc ⟨hresponse, hawaiting⟩
      cases hkind : c.kind with
      | request => rfl
      | quiet => rfl
      | reply => simp [Call.isResponse, hkind] at hresponse
      | error => simp [Call.isResponse, hkind] at hresponse
    · rfl
  rw [post, hstack, if_neg hc]

/-- The awaited answer is the one that the stack reports to have been waiting for. -/
lemma awaits_iff : d.Awaits c ↔ c.isResponse = true ∧ (d.stack.post c).1 = true := by
  refine and_congr_right fun _ => ?_
  unfold FrameStack.post
  split
  · next hawaiting =>
    refine iff_of_true hawaiting ?_
    cases c.kind <;> rfl
  · next hawaiting => exact iff_of_false hawaiting (by simp)

/-- A stack that accepts the awaited answer does not wait any more. -/
lemma Paired.free_of_awaits (hd : d.Paired) (hc : d.Awaits c) : (d.stack.post c).2.Free := by
  obtain ⟨hresponse, hflag⟩ := awaits_iff.mp hc
  exact (FrameStack.free_post hd.sound hresponse (Prod.ext hflag rfl)).2

/-- A call that is handed over either makes no difference or answers the last call. -/
lemma Paired.post (hd : d.Paired) (c : Call) : (d.post c).Paired := by
  by_cases hc : d.Awaits c
  · obtain ⟨hsound, hnone⟩ := hd.free_of_awaits hc
    have haccepted : (d.post c).accepted = d.accepted ++ [c] := if_pos hc
    refine ⟨hsound, ?_⟩
    have hstack : (d.post c).stack.awaiting = none := hnone
    rw [hstack, haccepted, List.map_append]
    calc d.workspace.sent.map Call.matchId
        = d.accepted.map Call.matchId ++ d.stack.awaiting.toList := hd.numbers
      _ = d.accepted.map Call.matchId ++ [c.matchId] := by
          rw [hc.2]
          rfl
      _ = _ := (List.append_nil _).symm
  · rw [post_of_not_awaits hc]
    exact hd

/-- Whatever happens to a stack keeps the account of its calls. -/
lemma Paired.step (hd : d.Paired) (h : Step d e) : e.Paired := by
  cases h with
  | run h => exact hd.run h
  | post c => exact hd.post c
  | elsewhere scopes ledger => exact ⟨hd.sound, hd.numbers⟩

/-- All that happens to a stack keeps the account of its calls. -/
lemma Paired.steps (hd : d.Paired) (h : Steps d e) : e.Paired := by
  induction h with
  | refl => exact hd
  | tail _ hstep ih => exact ih.step hstep

/-! ## Outstanding calls -/

/-- The number of calls without an accepted answer is that of the answers that the stack waits
for. -/
lemma Paired.length (hd : d.Paired) :
    d.workspace.sent.length = d.accepted.length + d.stack.awaiting.toList.length := by
  have hlength := congrArg List.length hd.numbers
  simpa using hlength

/-- What a stack waits for is the answer to the last call that it has sent. -/
lemma Paired.last (hd : d.Paired) {id : ℕ} (hid : d.stack.awaiting = some id) :
    ∃ q, d.workspace.sent.getLast? = some q ∧ q.matchId = id := by
  have hlast : (d.workspace.sent.map Call.matchId).getLast? = some id := by
    rw [hd.numbers, hid]
    simp
  rw [List.getLast?_map] at hlast
  exact Option.map_eq_some_iff.mp hlast

/-- A run ends suspended exactly if the stack then waits, and leaves the stack at rest. -/
lemma Paired.rests (hd : d.Paired) (h : d.Runs o e) :
    e.stack.AtRest ∧ ∀ id, o = .suspended id ↔ e.stack.awaiting = some id := by
  obtain ⟨-, site, fuel, hrun⟩ := h
  obtain ⟨-, hrest, hwaits, -⟩ := FrameStack.run_rests hd.sound hrun
  exact ⟨hrest, hwaits⟩

/-- After a run there is an outstanding call exactly if the run ended suspended. -/
lemma Paired.outstanding (hd : d.Paired) (h : d.Runs o e) :
    e.workspace.sent.length = e.accepted.length + 1 ↔ ∃ id, o = .suspended id := by
  obtain ⟨-, hwaits⟩ := hd.rests h
  have hlength := (hd.run h).length
  cases hawaiting : e.stack.awaiting with
  | none =>
    rw [hawaiting, Option.toList_none, List.length_nil] at hlength
    constructor
    · intro hmore
      omega
    · rintro ⟨id, hid⟩
      rw [(hwaits id).mp hid] at hawaiting
      contradiction
  | some id =>
    rw [hawaiting, Option.toList_some, List.length_singleton] at hlength
    exact ⟨fun _ => ⟨id, (hwaits id).mpr hawaiting⟩, fun _ => hlength⟩

/-- What runs again after a run changes nothing, wherever it runs. -/
lemma Paired.again (hd : d.Paired) (h : d.Runs o e) (site : Site) (fuel : ℕ) (w : Workspace) :
    ∃ o', e.stack.run site (fuel + 1) w = some (o', e.stack, w) ∧
      ∀ id, o' = .suspended id ↔ o = .suspended id := by
  obtain ⟨hrest, hwaits⟩ := hd.rests h
  obtain ⟨o', hagain⟩ := hrest.run site fuel w
  obtain ⟨-, -, hwaits', -⟩ := FrameStack.run_rests (hd.run h).sound hagain
  exact ⟨o', hagain, fun id => (hwaits' id).trans (hwaits id).symm⟩

/-- A stack has at most one outstanding call.  From any frame that waits for nothing, however often
the stack is run and whatever it is handed, the calls that it has sent are those whose answers it
has accepted, in order, and at most one more.  After a run there is one more exactly if the run
ended suspended, and the stack waits for the answer to just this call.  A call that is not that
answer makes no difference, and after a run, running again makes none either. -/
theorem one_outstanding {f : Frame} (hf : f.Plain) {scopes : Scopes} {ledger : Ledger}
    (h : Steps (start f scopes ledger) d) :
    (d.accepted.map Call.matchId <+: d.workspace.sent.map Call.matchId ∧
      d.workspace.sent.length ≤ d.accepted.length + 1) ∧
    (∀ c, ¬d.Awaits c → d.post c = d) ∧
    ∀ o e, d.Runs o e →
      (e.workspace.sent.length = e.accepted.length + 1 ↔ ∃ id, o = .suspended id) ∧
      (∀ id, o = .suspended id → e.stack.awaiting = some id ∧
        ∃ q, e.workspace.sent.getLast? = some q ∧ q.matchId = id) ∧
      ∀ c, ¬e.Awaits c → ∀ site fuel w, ∃ o',
        (e.post c).stack.run site (fuel + 1) w = some (o', e.stack, w) ∧
          ∀ id, o' = .suspended id ↔ o = .suspended id := by
  have hd : d.Paired := (Paired.start hf scopes ledger).steps h
  refine ⟨⟨⟨_, hd.numbers.symm⟩, ?_⟩, fun c hc => post_of_not_awaits hc, ?_⟩
  · have hlength := hd.length
    have hone := Option.length_toList_le (o := d.stack.awaiting)
    omega
  · intro o e hrun
    refine ⟨hd.outstanding hrun, ?_, ?_⟩
    · intro id hid
      have hawaiting : e.stack.awaiting = some id := ((hd.rests hrun).2 id).mp hid
      exact ⟨hawaiting, (hd.run hrun).last hawaiting⟩
    · intro c hc site fuel w
      rw [post_of_not_awaits hc]
      exact hd.again hrun site fuel w

/-- An endpoint to ring at. -/
def bell : Endpoint := ⟨⟨⟨"porch", by decide⟩, []⟩, ⟨"bell", by decide⟩⟩

/-- A call, and then another one with the result of the first. -/
def ringTwice : Frame := .andThen (.call bell []) fun result => .call bell result

/-- The first call of `ringTwice`. -/
def firstRing : Call := ⟨1, some bell, bell, 0, .request, []⟩

/-- The answer to the first call of `ringTwice`. -/
def firstAnswer : Call := ⟨1, some bell, bell, 0, .reply, [.int 1]⟩

/-- The second call of `ringTwice`. -/
def secondRing : Call := ⟨2, some bell, bell, 0, .request, [.int 1]⟩

/-- A stack that has sent a second call after the first was answered, and is handed the answer to
the first once more. -/
theorem one_outstanding_ringTwice :
    ∃ d, Steps (start ringTwice {} {}) d ∧ d.workspace.sent = [firstRing, secondRing] ∧
      d.accepted = [firstAnswer] ∧ ¬d.Awaits firstAnswer ∧ d.post firstAnswer = d := by
  have hfirst : (start ringTwice {} {}).Runs (.suspended 1)
      { stack := ⟨some (.waiting 1), [.andThen fun result => .call bell result]⟩
        workspace := { ledger := { nextId := 2, made := [firstRing] }, sent := [firstRing] } } :=
    ⟨rfl, ⟨0, some bell⟩, 3, rfl⟩
  have hsecond : Dialogue.Runs
      { stack := ⟨some (.ok [.int 1]), [.andThen fun result => .call bell result]⟩
        workspace := { ledger := { nextId := 2, made := [firstRing] }, sent := [firstRing] }
        accepted := [firstAnswer] } (.suspended 2)
      { stack := ⟨some (.waiting 2), [.relay]⟩
        workspace :=
          { ledger := { nextId := 3, made := [secondRing, firstRing] }
            sent := [firstRing, secondRing] }
        accepted := [firstAnswer] } :=
    ⟨rfl, ⟨0, some bell⟩, 3, rfl⟩
  have hwaiting := (ReflTransGen.single (Step.run hfirst)).tail (.post _ firstRing)
  have hsteps := (hwaiting.tail (.post _ firstAnswer)).tail (.run hsecond)
  have hplain : ringTwice.Plain := .andThen (.call bell []) fun result => .call bell result
  obtain ⟨-, hother, -⟩ := one_outstanding hplain hsteps
  exact ⟨_, hsteps, rfl, rfl, by decide, hother firstAnswer (by decide)⟩

end Dialogue

end Switchboard
