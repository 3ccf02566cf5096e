import Mathlib
import Switchboard.Proofs.Executions
import Switchboard.Proofs.Likeness

/-!
# Callers that are served alike

Two executors are alike for a caller (`ScriptExecutor.Alike`) when what they keep for it differs in
the numbers of scopes and of calls only, whatever else they keep.  When both are asked to do the
same for this caller they stay alike for it and have done the same (`ScriptExecutor.execute_alike`).
The proof follows the loop that runs what can run of a caller, as does the one for the books.

What an executor is asked to do for one caller concerns no other one: the contexts of others are
left as they are, and all that is entered in the history and all answers that are sent have to do
with this caller (`ScriptExecutor.execute_concerns`).
-/

namespace Switchboard

open ScriptHistory
open ScriptExecutor (callerKey)

/-! ## What is alike -/

/-- Settings that do not differ in what executors look at. -/
structure Setting.Alike (s s' : Setting) : Prop where
  address : s'.address = s.address
  time : s'.time = s.time
  threshold : s'.threshold = s.threshold

/-- Scripts that wait for their turn and differ in the numbers of their calls only. -/
inductive Job.Alike (R : Renaming) (job : Job) : Job → Prop
  | intro {c : Call} (h : job.call.Alike R c) : job.Alike R { job with call := c }

/-- Scripts that have been started and differ in the numbers of scopes and of calls only. -/
inductive RunningJob.Alike (L : Likeness) (R : Renaming) (job : RunningJob) : RunningJob → Prop
  | intro {c : Call} {stack : FrameStack} (hcall : job.call.Alike R c)
      (hstack : job.stack.Alike L R stack) : job.Alike L R { job with call := c, stack := stack }

/-- Contexts of callers that differ in such numbers only. -/
structure CallerContext.Alike (L : Likeness) (R : Renaming) (c c' : CallerContext) : Prop where
  scope : c.scope.Alike L c'.scope
  queue : List.Forall₂ (Job.Alike R) c.queue c'.queue
  running : Option.Rel (RunningJob.Alike L R) c.running c'.running

/-- Executors that keep the same for a caller, up to such numbers. -/
structure ScriptExecutor.Alike (key : String) (L : Likeness) (R : Renaming)
    (x x' : ScriptExecutor) : Prop where
  fits : L.Fits x.scopes x'.scopes
  globals : List.Forall₂ L.reads x.globals.chain x'.globals.chain
  context : Option.Rel (CallerContext.Alike L R) (x.contexts.find? key) (x'.contexts.find? key)

/-- How two turns have gone on alike: the same calls have been sent, up to their numbers, and the
same log lines have been written. -/
structure Turn.InStep (R S : Renaming) (t t' u u' : Turn) : Prop where
  calls : ∃ cs cs', u.outbox.calls = t.outbox.calls ++ cs ∧
    u'.outbox.calls = t'.outbox.calls ++ cs' ∧
    R.Grows S t.ledger t'.ledger u.ledger u'.ledger cs cs'
  log : ∃ lines, u.outbox.log = t.outbox.log ++ lines ∧ u'.outbox.log = t'.outbox.log ++ lines

/-- How a turn has gone on that has to do with one caller only. -/
structure Turn.Concerns (key : String) (t u : Turn) : Prop where
  scripts : ∃ K, u.scripts = t.scripts ++ K ∧ ∀ e ∈ K, callerKey e.call = key
  answers : ∃ cs, u.outbox.calls = t.outbox.calls ++ cs ∧
    ∀ a ∈ cs, a.isResponse = true → a.target.path.text = key

/-- Calls that are still to be answered, under different numbers. -/
structure Ledger.Owes (l : Ledger) (cs : List Call) : Prop where
  unanswered : ∀ c ∈ cs, c.expectsReply = true → c.matchId ∉ l.answered
  distinct : (cs.map Call.matchId).Nodup

section Monotone

variable {L M : Likeness} {R S : Renaming}

/-- Waiting scripts stay alike when the renaming grows. -/
lemma Job.Alike.mono {job job' : Job} (h : job.Alike R job') (hR : R ≤ S) : job.Alike S job' := by
  obtain ⟨hcall⟩ := h
  exact ⟨hcall.mono hR⟩

/-- Scripts that were started stay alike when there is more that stands for each other. -/
lemma RunningJob.Alike.mono {job job' : RunningJob} (h : job.Alike L R job') (hL : L ≤ M)
    (hR : R ≤ S) : job.Alike M S job' := by
  obtain ⟨hcall, hstack⟩ := h
  exact ⟨hcall.mono hR, hstack.mono hL hR⟩

/-- Contexts stay alike when there is more that stands for each other. -/
lemma CallerContext.Alike.mono {c c' : CallerContext} (h : c.Alike L R c') (hL : L ≤ M)
    (hR : R ≤ S) : c.Alike M S c' where
  scope := h.scope.mono hL
  queue := h.queue.imp fun _ _ hjob => hjob.mono hR
  running := optionRel_imp h.running fun _ _ hjob => hjob.mono hL hR

/-- The calls of contexts that are alike. -/
lemma CallerContext.Alike.calls {c c' : CallerContext} (h : c.Alike L R c') :
    List.Forall₂ (Call.Alike R) c.calls c'.calls := by
  have hqueue : List.Forall₂ (Call.Alike R) (c.queue.map Job.call) (c'.queue.map Job.call) := by
    rw [List.forall₂_map_left_iff, List.forall₂_map_right_iff]
    refine h.queue.imp ?_
    rintro _ _ ⟨hcall⟩
    exact hcall
  have hrunning := h.running
  unfold CallerContext.calls
  generalize c.running = a at hrunning ⊢
  generalize c'.running = b at hrunning ⊢
  cases hrunning with
  | none => exact hqueue
  | some hjob =>
    obtain ⟨hcall, -⟩ := hjob
    exact .cons hcall hqueue

end Monotone

namespace Turn

variable {R S T : Renaming} {t t' u u' v v' : Turn} {key : String}

namespace InStep

/-- Neither turn has gone on. -/
lemma refl (R : Renaming) (t t' : Turn) : InStep R R t t' t t' where
  calls := ⟨[], [], (List.append_nil _).symm, (List.append_nil _).symm, .nothing rfl rfl⟩
  log := ⟨[], (List.append_nil _).symm, (List.append_nil _).symm⟩

/-- Turns go on in several stages. -/
lemma trans (h : InStep R S t t' u u') (h' : InStep S T u u' v v') : InStep R T t t' v v' where
  calls := by
    obtain ⟨cs, cs', hcs, hcs', hgrows⟩ := h.calls
    obtain ⟨ds, ds', hds, hds', hgrows'⟩ := h'.calls
    refine ⟨cs ++ ds, cs' ++ ds', ?_, ?_, hgrows.trans hgrows'⟩
    · rw [hds, hcs, List.append_assoc]
    · rw [hds', hcs', List.append_assoc]
  log := by
    obtain ⟨lines, hlines, hlines'⟩ := h.log
    obtain ⟨more, hmore, hmore'⟩ := h'.log
    refine ⟨lines ++ more, ?_, ?_⟩
    · rw [hmore, hlines, List.append_assoc]
    · rw [hmore', hlines', List.append_assoc]

/-- What is entered in the histories does not matter. -/
lemma scripts (h : InStep R S t t' u u') (H H' : List ScriptEvent) :
    InStep R S t t' { u with scripts := H } { u' with scripts := H' } :=
  ⟨h.calls, h.log⟩

/-- That something is entered about a script does not matter. -/
lemma script (h : InStep R S t t' u u') (c c' : Call) (fate fate' : ScriptFate) :
    InStep R S t t' (u.script c fate) (u'.script c' fate') :=
  h.scripts ..

/-- The renaming has grown. -/
lemma renaming_le (h : InStep R S t t' u u') : R ≤ S := by
  obtain ⟨cs, cs', -, -, hgrows⟩ := h.calls
  exact hgrows.le

end InStep

namespace Concerns

/-- The turn has not gone on. -/
lemma refl (key : String) (t : Turn) : Concerns key t t where
  scripts := ⟨[], (List.append_nil _).symm, by simp⟩
  answers := ⟨[], (List.append_nil _).symm, by simp⟩

/-- The turn goes on in several stages. -/
lemma trans (h : Concerns key t u) (h' : Concerns key u v) : Concerns key t v where
  scripts := by
    obtain ⟨K, hK, hkey⟩ := h.scripts
    obtain ⟨K', hK', hkey'⟩ := h'.scripts
    refine ⟨K ++ K', by rw [hK', hK, List.append_assoc], fun e he => ?_⟩
    exact (List.mem_append.mp he).elim (hkey e) (hkey' e)
  answers := by
    obtain ⟨cs, hcs, hkey⟩ := h.answers
    obtain ⟨ds, hds, hkey'⟩ := h'.answers
    refine ⟨cs ++ ds, by rw [hds, hcs, List.append_assoc], fun a ha => ?_⟩
    exact (List.mem_append.mp ha).elim (hkey a) (hkey' a)

/-- Something is entered about a script of the caller. -/
lemma script (h : Concerns key t u) {c : Call} (hc : callerKey c = key) (fate : ScriptFate) :
    Concerns key t (u.script c fate) where
  scripts := by
    obtain ⟨K, hK, hkey⟩ := h.scripts
    refine ⟨K ++ [⟨c, fate⟩], ?_, fun e he => ?_⟩
    · unfold Turn.script
      rw [hK, List.append_assoc]
    · rcases List.mem_append.mp he with he | he
      · exact hkey e he
      · rw [List.mem_singleton.mp he]
        exact hc
  answers := h.answers

end Concerns

end Turn

/-! ## Answers -/

namespace Turn

variable {R : Renaming} {t t' : Turn} {c c' : Call}

/-- An answer concerns the caller that it goes to. -/
lemma settle_concerns (t : Turn) (c : Call) (kind : CallKind) (args : List Value) :
    Concerns (callerKey c) t (t.settle c kind args) := by
  rcases t.settle_cases c kind args with heq | ⟨a, m, hanswer, heq⟩
  · rw [heq]
    exact .refl _ t
  · obtain ⟨-, -, ⟨back, hback, rfl⟩, -⟩ := Ledger.answer_eq_ok hanswer
    rw [heq]
    refine ⟨⟨[], (List.append_nil _).symm, by simp⟩, [_], rfl, ?_⟩
    intro a ha _
    rw [List.mem_singleton.mp ha]
    simp [callerKey, hback]

/-- No call but the answered one counts as answered then. -/
lemma settle_answered (t : Turn) (c : Call) (kind : CallKind) (args : List Value) :
    ∀ id ∈ (t.settle c kind args).ledger.answered, id = c.matchId ∨ id ∈ t.ledger.answered := by
  intro id hid
  rcases t.settle_cases c kind args with heq | ⟨a, m, hanswer, heq⟩
  · rw [heq] at hid
    exact .inr hid
  · obtain ⟨-, -, -, rfl⟩ := Ledger.answer_eq_ok hanswer
    rw [heq] at hid
    exact List.mem_cons.mp hid

/-- Calls that are alike and have not been answered are answered alike. -/
lemma settle_inStep (hc : c.Alike R c') (h : c.matchId ∉ t.ledger.answered)
    (h' : c'.matchId ∉ t'.ledger.answered) (hreply : c.expectsReply = true) (kind : CallKind)
    (args : List Value) :
    InStep R R t t' (t.settle c kind args) (t'.settle c' kind args) := by
  have hrequest : c.kind = .request := by simpa [Call.expectsReply] using hreply
  obtain ⟨hnumber⟩ := hc
  obtain ⟨number, source, target, time, k, words⟩ := c
  subst hrequest
  cases source with
  | none =>
    have hnothing (u : Turn) (number : ℕ) :
        u.settle ⟨number, none, target, time, .request, words⟩ kind args = u := by
      simp [settle, answer, Ledger.answer, Ledger.answerTarget, Except.map]
    rw [hnothing, hnothing]
    exact .refl R t t'
  | some back =>
    have hanswer {u : Turn} {number : ℕ} (hnew : number ∉ u.ledger.answered) :
        u.settle ⟨number, some back, target, time, .request, words⟩ kind args =
          { u with ledger := { u.ledger with
              answered := number :: u.ledger.answered
              answers := (⟨number, some back, target, time, .request, words⟩,
                ⟨number, some target, back, time, kind, args⟩) :: u.ledger.answers } }.send
            ⟨number, some target, back, time, kind, args⟩ := by
      simp [settle, answer, Ledger.answer, Ledger.answerTarget, Except.map, hnew]
    rw [hanswer h, hanswer h']
    refine ⟨⟨_, _, rfl, rfl, ?_⟩, [], (List.append_nil _).symm, (List.append_nil _).symm⟩
    exact ⟨le_refl R, .cons ⟨hnumber⟩ .nil, .inl, le_refl _, Nat.add_comm ..⟩

end Turn

namespace Ledger.Owes

variable {l m : Ledger} {c : Call} {cs : List Call}

/-- The first of the calls need not be answered yet. -/
lemma head (h : l.Owes (c :: cs)) (hreply : c.expectsReply = true) : c.matchId ∉ l.answered :=
  h.unanswered c List.mem_cons_self hreply

/-- When the first of the calls has been answered the others are still to be. -/
lemma tail (h : l.Owes (c :: cs))
    (hanswered : ∀ id ∈ m.answered, id = c.matchId ∨ id ∈ l.answered) : m.Owes cs := by
  obtain ⟨hfirst, hrest⟩ := List.nodup_cons.mp h.distinct
  refine ⟨fun d hd hreply hmem => ?_, hrest⟩
  rcases hanswered d.matchId hmem with heq | hold
  · exact hfirst (heq ▸ List.mem_map_of_mem hd)
  · exact h.unanswered d (List.mem_cons_of_mem c hd) hreply hold

end Ledger.Owes

/-- The pending calls of a caller are still to be answered. -/
lemma ScriptHistory.Books.owes {pending : String → List Call} {l : Ledger} {H : List ScriptEvent}
    (h : Books pending l H) (key : String) : l.Owes (pending key) where
  unanswered := h.unanswered key
  distinct := by
    have hpending : (pending key).Nodup := (List.nodup_append'.mp (h.nodup_callsOf key)).2.1
    refine List.Nodup.map_on ?_ hpending
    intro c hc d hd hnumber
    by_contra hne
    exact h.number_ne (h.mem_pending hd).1 (h.mem_pending hc).1 hne hnumber

namespace ScriptExecutor

variable {L : Likeness} {R : Renaming} {s s' : Setting} {p p' : Progress} {t t' : Turn}
  {c c' : Call} {job job' : RunningJob} {context context' : CallerContext} {key : String}
  {x x' : ScriptExecutor}

/-! ## One script -/

/-- The calls of scripts come from the same endpoint. -/
lemma site_eq (hs : s.Alike s') : site s' = site s := by
  unfold site Setting.endpoint
  rw [hs.address, hs.time]

/-- The ends of scripts are alike. -/
lemma conclude_inStep (hs : s.Alike s') (hc : c.Alike R c')
    (h : c.expectsReply = true → c.matchId ∉ t.ledger.answered)
    (h' : c'.expectsReply = true → c'.matchId ∉ t'.ledger.answered) (ending : Ending)
    (result : List Value) :
    Turn.InStep R R t t' (conclude s c ending result t) (conclude s' c' ending result t') := by
  have hreplies : c'.expectsReply = c.expectsReply := by
    obtain ⟨hnumber⟩ := hc
    rfl
  rw [conclude_eq, conclude_eq, hreplies]
  split
  · next hreply =>
    exact Turn.settle_inStep hc (h hreply) (h' (hreplies.trans hreply)) hreply _ _
  · split
    · -- The line passes the threshold on both sides or on neither.
      unfold Turn.log Turn.logAlways
      rw [hs.threshold, hs.time]
      split
      · refine ⟨?_, [_], rfl, rfl⟩
        exact ⟨[], [], (List.append_nil _).symm, (List.append_nil _).symm, .nothing rfl rfl⟩
      · exact .refl R t t'
    · exact .refl R t t'

/-- What scripts that have run alike have sent and written. -/
lemma ran_inStep (hs : s.Alike s') {M : Likeness} {S : Renaming} {scopes scopes' : Scopes}
    {w w' : Workspace}
    (h : Workspace.InStep L M R S ⟨scopes, t.ledger, [], []⟩ ⟨scopes', t'.ledger, [], []⟩ w w')
    (c c' : Call) (threshold : LogLevel) :
    Turn.InStep R S t t'
      (writeLog s threshold w.log
        (({ t with ledger := w.ledger }.sendAll w.sent).script c (.ran w.sent)))
      (writeLog s' threshold w'.log
        (({ t' with ledger := w'.ledger }.sendAll w'.sent).script c' (.ran w'.sent))) := by
  obtain ⟨cs, cs', hcs, hcs', hgrows⟩ := h.calls
  obtain ⟨lines, hlines, hlines'⟩ := h.log
  rw [writeLog_eq, writeLog_eq, hs.time, hlines, hlines', hcs, hcs']
  exact ⟨⟨cs, cs', rfl, rfl, hgrows⟩, _, rfl, rfl⟩

/-- A script runs alike until it waits or has ended. -/
lemma advance_alike (hs : s.Alike s') (hjob : job.Alike L R job')
    (hfits : L.Fits p.scopes p'.scopes)
    (h : job.call.expectsReply = true → job.call.matchId ∉ p.turn.ledger.answered)
    (h' : job'.call.expectsReply = true → job'.call.matchId ∉ p'.turn.ledger.answered) :
    ∃ M S, L.Grows M p.scopes p'.scopes (advance s job p).2.scopes (advance s' job' p').2.scopes ∧
      Turn.InStep R S p.turn p'.turn (advance s job p).2.turn (advance s' job' p').2.turn ∧
      Option.Rel (RunningJob.Alike M S) (advance s job p).1 (advance s' job' p').1 := by
  obtain @⟨c', stack', hcall, hstack⟩ := hjob
  have hrun : FrameStack.RunAlike L R ⟨p.scopes, p.turn.ledger, [], []⟩
      ⟨p'.scopes, p'.turn.ledger, [], []⟩
      (job.stack.run (site s) FrameStack.stepLimit ⟨p.scopes, p.turn.ledger, [], []⟩)
      (stack'.run (site s) FrameStack.stepLimit ⟨p'.scopes, p'.turn.ledger, [], []⟩) :=
    FrameStack.run_alike (site s) FrameStack.stepLimit hstack hfits
  unfold advance
  rw [site_eq hs]
  simp only
  generalize job.stack.run (site s) FrameStack.stepLimit _ = a at hrun ⊢
  generalize stack'.run (site s) FrameStack.stepLimit _ = b at hrun ⊢
  cases hrun with
  | stuck =>
    exact ⟨L, R, .refl hfits, (Turn.InStep.refl R p.turn p'.turn).script .., .some ⟨hcall, hstack⟩⟩
  | @rests M S o o' stack stack' w w' hstep ho hstacks =>
    have hran := ran_inStep hs hstep job.call c' job.options.threshold
    cases ho with
    | suspended hij =>
      exact ⟨M, S, hstep.scopes, hran, .some ⟨hcall.mono hstep.renaming_le, hstacks⟩⟩
    | done ending result =>
      refine ⟨M, S, hstep.scopes, (hran.trans (conclude_inStep hs (hcall.mono hstep.renaming_le)
        ?_ ?_ ending result)).script .., .none⟩
      · rw [(writeLog_frame ..).1]
        intro hreply hmem
        exact h hreply (hstep.answered.1 ▸ hmem)
      · rw [(writeLog_frame ..).1]
        intro hreply hmem
        exact h' hreply (hstep.answered.2 ▸ hmem)

/-- The end of a script concerns its caller, and answers no call but its own. -/
lemma conclude_concerns (s : Setting) (c : Call) (ending : Ending) (result : List Value)
    (t : Turn) :
    Turn.Concerns (callerKey c) t (conclude s c ending result t) ∧
      ∀ id ∈ (conclude s c ending result t).ledger.answered,
        id = c.matchId ∨ id ∈ t.ledger.answered := by
  rw [conclude_eq]
  split
  · exact ⟨t.settle_concerns c _ _, t.settle_answered c _ _⟩
  · split
    · unfold Turn.log
      split
      · exact ⟨⟨⟨[], (List.append_nil _).symm, by simp⟩, [], (List.append_nil _).symm, by simp⟩,
          fun _ hid => .inr hid⟩
      · exact ⟨.refl _ t, fun _ hid => .inr hid⟩
    · exact ⟨.refl _ t, fun _ hid => .inr hid⟩

/-- What a script does concerns its caller, and answers no call but its own. -/
lemma advance_concerns (s : Setting) (hsound : job.stack.Sound) (p : Progress) :
    Turn.Concerns (callerKey job.call) p.turn (advance s job p).2.turn ∧
      ∀ id ∈ (advance s job p).2.turn.ledger.answered,
        id = job.call.matchId ∨ id ∈ p.turn.ledger.answered := by
  unfold advance
  match hrun : job.stack.run (site s) FrameStack.stepLimit ⟨p.scopes, p.turn.ledger, [], []⟩ with
  | none => exact ⟨(Turn.Concerns.refl _ p.turn).script rfl .stuck, fun _ hid => .inr hid⟩
  | some (o, stack, w) =>
    obtain ⟨-, -, -, new, hsends, -⟩ := FrameStack.run_rests hsound hrun
    have hsent : w.sent = new := hsends.sent
    have hanswered : w.ledger.answered = p.turn.ledger.answered := by rw [hsends.ledger]
    set ran := writeLog s job.options.threshold w.log
      (({ p.turn with ledger := w.ledger }.sendAll w.sent).script job.call (.ran w.sent)) with hdef
    have hledger : ran.ledger = w.ledger := (writeLog_frame ..).1
    have hran : Turn.Concerns (callerKey job.call) p.turn ran := by
      rw [hdef, writeLog_eq]
      refine ⟨⟨[⟨job.call, .ran w.sent⟩], rfl, by simp⟩, w.sent, rfl, ?_⟩
      intro a ha hresponse
      rw [hsent] at ha
      simp [Call.isResponse, hsends.requests a ha] at hresponse
    cases o with
    | suspended id =>
      refine ⟨hran, fun id hid => .inr ?_⟩
      rwa [← hanswered, ← hledger]
    | done ending result =>
      obtain ⟨hconcerns, hconcluded⟩ := conclude_concerns s job.call ending result ran
      refine ⟨(hran.trans hconcerns).script rfl .ended, fun id hid => ?_⟩
      rw [← hanswered, ← hledger]
      exact hconcluded id hid

/-! ## The scripts of one caller -/

/-- A script that is started is alike on both sides. -/
lemma start_alike {scope scope' : ScopeRef} (hscope : scope.Alike L scope') {first first' : Job}
    (h : first.Alike R first') :
    (start scope first).Alike L R (start scope' first') := by
  obtain ⟨hcall⟩ := h
  exact ⟨hcall, .some (.ofScript hscope ..), .nil⟩

/-- The scripts of a queue run alike. -/
lemma drain_alike (hs : s.Alike s') {scope scope' : ScopeRef} (hscope : scope.Alike L scope')
    {queue queue' : List Job} (hqueue : List.Forall₂ (Job.Alike R) queue queue')
    (hfits : L.Fits p.scopes p'.scopes) (h : p.turn.ledger.Owes (queue.map Job.call))
    (h' : p'.turn.ledger.Owes (queue'.map Job.call)) :
    ∃ M S, L.Grows M p.scopes p'.scopes (drain s scope queue p).2.scopes
        (drain s' scope' queue' p').2.scopes ∧
      Turn.InStep R S p.turn p'.turn (drain s scope queue p).2.turn
        (drain s' scope' queue' p').2.turn ∧
      (drain s scope queue p).1.Alike M S (drain s' scope' queue' p').1 := by
  induction queue generalizing queue' L R p p' with
  | nil =>
    cases hqueue
    exact ⟨L, R, .refl hfits, .refl R p.turn p'.turn, hscope, .nil, .none⟩
  | cons first queue ih =>
    obtain _ | @⟨_, first', _, queue', hfirst, hqueue⟩ := hqueue
    have hjob := start_alike hscope hfirst
    obtain ⟨M, S, hgrows, hturn, hrunning⟩ := advance_alike hs hjob hfits h.head h'.head
    have hlater := h.tail (advance_concerns s (start_ready [] scope first).sound p).2
    have hlater' := h'.tail (advance_concerns s' (start_ready [] scope' first').sound p').2
    unfold drain
    generalize advance s (start scope first) p = a at hgrows hturn hrunning hlater ⊢
    generalize advance s' (start scope' first') p' = b at hgrows hturn hrunning hlater' ⊢
    obtain ⟨running, q⟩ := a
    obtain ⟨running', q'⟩ := b
    have hqueue' := hqueue.imp fun _ _ hjob => Job.Alike.mono hjob hturn.renaming_le
    cases hrunning with
    | some hstarted =>
      exact ⟨M, S, hgrows, hturn, hscope.mono hgrows.le, hqueue', .some hstarted⟩
    | none =>
      obtain ⟨N, T, hgrows', hturn', hcontext⟩ :=
        ih (hscope.mono hgrows.le) hqueue' hgrows.fits hlater hlater'
      exact ⟨N, T, hgrows.trans hgrows', hturn.trans hturn', hcontext⟩

/-- The scripts of a queue concern their caller. -/
lemma drain_concerns (s : Setting) (scope : ScopeRef) {queue : List Job}
    (hkey : ∀ job ∈ queue, callerKey job.call = key) (p : Progress) :
    Turn.Concerns key p.turn (drain s scope queue p).2.turn := by
  induction queue generalizing p with
  | nil => exact .refl key p.turn
  | cons first queue ih =>
    have hfirst := (advance_concerns s (start_ready [] scope first).sound p).1
    have hsame : callerKey (start scope first).call = key := hkey first List.mem_cons_self
    rw [hsame] at hfirst
    unfold drain
    generalize advance s (start scope first) p = a at hfirst ⊢
    obtain ⟨running, q⟩ := a
    cases running with
    | some job => exact hfirst
    | none => exact hfirst.trans (ih (fun job hjob => hkey job (List.mem_cons_of_mem first hjob)) q)

/-- What can run of a caller runs alike. -/
lemma pumpContext_alike (hs : s.Alike s') (hcontext : context.Alike L R context')
    (p p' : Progress) (hfits : L.Fits p.scopes p'.scopes) (h : p.turn.ledger.Owes context.calls)
    (h' : p'.turn.ledger.Owes context'.calls)
    (hsound : ∀ job, context.running = some job → job.stack.Sound)
    (hsound' : ∀ job, context'.running = some job → job.stack.Sound) :
    ∃ M S, L.Grows M p.scopes p'.scopes (pumpContext s context p).2.scopes
        (pumpContext s' context' p').2.scopes ∧
      Turn.InStep R S p.turn p'.turn (pumpContext s context p).2.turn
        (pumpContext s' context' p').2.turn ∧
      (pumpContext s context p).1.Alike M S (pumpContext s' context' p').1 := by
  obtain ⟨scope, queue, running⟩ := context
  obtain ⟨scope', queue', running'⟩ := context'
  obtain ⟨hscope, hqueue, hrunning⟩ := hcontext
  cases hrunning with
  | none => exact drain_alike hs hscope hqueue hfits h h'
  | @some job job' hjob =>
    obtain ⟨M, S, hgrows, hturn, hrunning⟩ := advance_alike hs hjob hfits h.head h'.head
    have hlater := h.tail (advance_concerns s (hsound job rfl) p).2
    have hlater' := h'.tail (advance_concerns s' (hsound' job' rfl) p').2
    unfold pumpContext
    simp only
    generalize advance s job p = a at hgrows hturn hrunning hlater ⊢
    generalize advance s' job' p' = b at hgrows hturn hrunning hlater' ⊢
    obtain ⟨running, q⟩ := a
    obtain ⟨running', q'⟩ := b
    have hqueue' := List.Forall₂.imp (fun _ _ hjob => Job.Alike.mono hjob hturn.renaming_le) hqueue
    cases hrunning with
    | some hstarted =>
      exact ⟨M, S, hgrows, hturn, hscope.mono hgrows.le, hqueue', .some hstarted⟩
    | none =>
      obtain ⟨N, T, hgrows', hturn', hcontext⟩ :=
        drain_alike hs (hscope.mono hgrows.le) hqueue' hgrows.fits hlater hlater'
      exact ⟨N, T, hgrows.trans hgrows', hturn.trans hturn', hcontext⟩

/-- What can run of a caller concerns this caller. -/
lemma pumpContext_concerns (s : Setting) (hkey : ∀ c ∈ context.calls, callerKey c = key)
    (hsound : ∀ job, context.running = some job → job.stack.Sound) (p : Progress) :
    Turn.Concerns key p.turn (pumpContext s context p).2.turn := by
  obtain ⟨scope, queue, running⟩ := context
  have hqueue : ∀ job ∈ queue, callerKey job.call = key := by
    intro job hjob
    exact hkey job.call (List.mem_append_right _ (List.mem_map_of_mem hjob))
  cases running with
  | none => exact drain_concerns s scope hqueue p
  | some job =>
    have hfirst := (advance_concerns s (hsound job rfl) p).1
    rw [hkey job.call List.mem_cons_self] at hfirst
    unfold pumpContext
    simp only
    generalize advance s job p = a at hfirst ⊢
    obtain ⟨running, q⟩ := a
    cases running with
    | some job => exact hfirst
    | none => exact hfirst.trans (drain_concerns s scope hqueue q)

/-- What two executors have come to that have done alike for a caller. -/
def ServesAlike (key : String) (L : Likeness) (R : Renaming) (x x' : ScriptExecutor)
    (t t' : Turn) (out out' : ScriptExecutor × Turn) : Prop :=
  ∃ M S, L.Grows M x.scopes x'.scopes out.1.scopes out'.1.scopes ∧
    Turn.InStep R S t t' out.2 out'.2 ∧ out.1.Alike key M S out'.1

/-- How an executor has been changed that has done something for one caller. -/
structure Spares (key : String) (x y : ScriptExecutor) : Prop where
  others : ∀ other, other ≠ key → y.contexts.find? other = x.contexts.find? other
  globals : y.globals = x.globals

/-- Whether the scripts of a caller that have been started are such that scripts lead to. -/
def SoundFor (key : String) (x : ScriptExecutor) : Prop :=
  ∀ context job, x.contexts.find? key = some context → context.running = some job →
    job.stack.Sound

/-- What can run of a caller runs alike. -/
lemma pump_alike (hs : s.Alike s') (h : x.Alike key L R x') (t t' : Turn)
    (howes : t.ledger.Owes (x.pendingOf key)) (howes' : t'.ledger.Owes (x'.pendingOf key))
    (hsound : x.SoundFor key) (hsound' : x'.SoundFor key) :
    ServesAlike key L R x x' t t' (pump s key x t) (pump s' key x' t') := by
  unfold pump
  obtain ⟨hfind, hfind'⟩ | ⟨context, context', hfind, hfind', hcontext⟩ := optionRel_cases h.context
  · rw [hfind, hfind']
    exact ⟨L, R, .refl h.fits, .refl R t t', h⟩
  · rw [pendingOf_of_find? hfind] at howes
    rw [pendingOf_of_find? hfind'] at howes'
    rw [hfind, hfind']
    obtain ⟨M, S, hgrows, hturn, hout⟩ :=
      pumpContext_alike hs hcontext ⟨x.scopes, t⟩ ⟨x'.scopes, t'⟩ h.fits howes howes'
        (fun job hjob => hsound context job hfind hjob)
        (fun job hjob => hsound' context' job hfind' hjob)
    refine ⟨M, S, hgrows, hturn, hgrows.fits, ?_, ?_⟩
    · exact h.globals.imp fun _ _ => Likeness.reads_of_le hgrows.le
    · simp only [Keyed.find?_insert_self]
      exact .some hout

/-- What can run of a caller concerns this caller. -/
lemma pump_concerns (s : Setting) (hkey : ∀ c ∈ x.pendingOf key, callerKey c = key)
    (hsound : x.SoundFor key) (t : Turn) :
    Turn.Concerns key t (pump s key x t).2 ∧ x.Spares key (pump s key x t).1 := by
  unfold pump
  match hfind : x.contexts.find? key with
  | none => exact ⟨.refl key t, fun _ _ => rfl, rfl⟩
  | some context =>
    rw [pendingOf_of_find? hfind] at hkey
    refine ⟨pumpContext_concerns s hkey (fun job hjob => hsound context job hfind hjob) ⟨_, t⟩,
      fun other hother => Keyed.find?_insert_of_ne hother .., rfl⟩

/-! ## Calls that bring scripts -/

/-- Calls that are alike come from the same caller. -/
lemma callerKey_eq (hc : c.Alike R c') : callerKey c' = callerKey c := by
  obtain ⟨hnumber⟩ := hc
  rfl

/-- The scope of a caller that calls for the first time. -/
def newScope (s : Setting) (c : Call) (x : ScriptExecutor) : ScopeRef × Scopes :=
  let (scope, scopes) := x.scopes.newChild x.globals
  match (c.source.map Endpoint.path).orElse fun _ => s.address with
  | some p => (scope, scopes.set scope contextVariable (.ofPath p))
  | none => (scope, scopes)

/-- The context of a caller is the one that it has, or is made in a scope of its own. -/
lemma enter_eq (s : Setting) (c : Call) (x : ScriptExecutor) :
    enter s c x = match x.contexts.find? (callerKey c) with
      | some context => (context, x)
      | none => (⟨(newScope s c x).1, [], none⟩, { x with scopes := (newScope s c x).2 }) := by
  unfold enter newScope
  cases x.contexts.find? (callerKey c) with
  | some context => rfl
  | none => cases (c.source.map Endpoint.path).orElse fun _ => s.address <;> rfl

/-- New callers get scopes that stand for each other. -/
lemma newScope_alike (hs : s.Alike s') (h : x.Alike key L R x') (hc : c.Alike R c') :
    ∃ M, L.Grows M x.scopes x'.scopes (newScope s c x).2 (newScope s' c' x').2 ∧
      (newScope s c x).1.Alike M (newScope s' c' x').1 := by
  obtain ⟨hnumber⟩ := hc
  obtain ⟨M, hgrows, hscope⟩ := h.fits.newChild h.globals
  unfold newScope
  rw [hs.address]
  simp only
  split
  · exact ⟨M, hgrows.trans (hgrows.fits.set hscope ..), hscope⟩
  · exact ⟨M, hgrows, hscope⟩

/-- The context of a caller is alike, whether it has one or it is made. -/
lemma enter_alike (hs : s.Alike s') (h : x.Alike (callerKey c) L R x') (hc : c.Alike R c') :
    ∃ M, L.Grows M x.scopes x'.scopes (enter s c x).2.scopes (enter s' c' x').2.scopes ∧
      (enter s c x).1.Alike M R (enter s' c' x').1 := by
  have hcontext := h.context
  rw [enter_eq, enter_eq, callerKey_eq hc]
  generalize x.contexts.find? (callerKey c) = a at hcontext ⊢
  generalize x'.contexts.find? (callerKey c) = b at hcontext ⊢
  cases hcontext with
  | none =>
    obtain ⟨M, hgrows, hscope⟩ := newScope_alike hs h hc
    exact ⟨M, hgrows, hscope, .nil, .none⟩
  | some hcontext => exact ⟨L, .refl h.fits, hcontext⟩

/-- What calls bring that are alike. -/
lemma read_eq (hc : c.Alike R c') : read c' = read c := by
  obtain ⟨hnumber⟩ := hc
  rfl

/-- A caller that calls does not get other globals. -/
lemma enter_globals (s : Setting) (c : Call) (x : ScriptExecutor) :
    (enter s c x).2.globals = x.globals := by
  rw [enter_eq]
  split <;> rfl

/-- The executor when a caller has got one more script. -/
def taken (s : Setting) (c : Call) (script : Script) (options : EvalOptions)
    (x : ScriptExecutor) : ScriptExecutor :=
  let (context, x) := x.enter s c
  let context := { context with queue := context.queue ++ [⟨c, script, options⟩] }
  { x with contexts := x.contexts.insert (callerKey c) context }

/-- What a call comes to: a fault, or one more script for its caller. -/
lemma eval_eq (s : Setting) (c : Call) (x : ScriptExecutor) (t : Turn) :
    eval s c x t = match read c with
      | .error f => (.error f, x, t)
      | .ok (script, options) =>
        (.ok (), pump s (callerKey c) (x.taken s c script options) (t.script c .accepted)) := by
  unfold eval taken
  cases read c <;> rfl

/-- Callers get one more script alike. -/
lemma taken_alike (hs : s.Alike s') (h : x.Alike (callerKey c) L R x') (hc : c.Alike R c')
    (script : Script) (options : EvalOptions) :
    ∃ M, L.Grows M x.scopes x'.scopes (x.taken s c script options).scopes
        (x'.taken s' c' script options).scopes ∧
      (x.taken s c script options).Alike (callerKey c) M R (x'.taken s' c' script options) := by
  obtain ⟨M, hgrows, hentered⟩ := enter_alike hs h hc
  refine ⟨M, hgrows, hgrows.fits, ?_, ?_⟩
  · change List.Forall₂ M.reads (enter s c x).2.globals.chain (enter s' c' x').2.globals.chain
    rw [enter_globals, enter_globals]
    exact h.globals.imp fun _ _ => Likeness.reads_of_le hgrows.le
  · unfold taken
    simp only [callerKey_eq hc, Keyed.find?_insert_self, Option.rel_some_some]
    exact ⟨hentered.scope, List.rel_append hentered.queue (.cons ⟨hc⟩ .nil), hentered.running⟩

/-- The pending calls of a caller that has got one more script. -/
lemma pendingOf_taken (s : Setting) (c : Call) (script : Script) (options : EvalOptions)
    (x : ScriptExecutor) :
    (x.taken s c script options).pendingOf (callerKey c) = x.pendingOf (callerKey c) ++ [c] := by
  have hcalls := (enter_cases s c x).2.1
  unfold taken
  simp only [pendingOf, Keyed.find?_insert_self, Option.map_some, Option.getD_some] at hcalls ⊢
  rw [← hcalls]
  simp [CallerContext.calls]

/-- A caller that gets one more script has the same script running. -/
lemma soundFor_taken (s : Setting) (c : Call) (script : Script) (options : EvalOptions)
    (h : x.SoundFor (callerKey c)) :
    (x.taken s c script options).SoundFor (callerKey c) := by
  intro context job hfind hjob
  unfold taken at hfind
  simp only [Keyed.find?_insert_self, Option.some.injEq] at hfind
  subst hfind
  rcases (enter_cases s c x).2.2 with hfound | hnone
  · exact h _ job hfound hjob
  · rw [hnone] at hjob
    contradiction

/-- What is done alike after something else was done alike. -/
lemma ServesAlike.after {M : Likeness} {y y' : ScriptExecutor} {u u' : Turn}
    {out out' : ScriptExecutor × Turn} (h : ServesAlike key M R y y' u u' out out')
    (hgrows : L.Grows M x.scopes x'.scopes y.scopes y'.scopes) (hturn : Turn.InStep R R t t' u u') :
    ServesAlike key L R x x' t t' out out' := by
  obtain ⟨N, S, hmore, hturn', halike⟩ := h
  exact ⟨N, S, hgrows.trans hmore, hturn.trans hturn', halike⟩

/-- Calls that bring scripts are served alike. -/
lemma eval_alike (hs : s.Alike s') (h : x.Alike (callerKey c) L R x') (hc : c.Alike R c')
    (howes : t.ledger.Owes (x.pendingOf (callerKey c) ++ [c]))
    (howes' : t'.ledger.Owes (x'.pendingOf (callerKey c') ++ [c']))
    (hsound : x.SoundFor (callerKey c)) (hsound' : x'.SoundFor (callerKey c')) :
    (eval s' c' x' t').1 = (eval s c x t).1 ∧
      ServesAlike (callerKey c) L R x x' t t' (eval s c x t).2 (eval s' c' x' t').2 := by
  rw [eval_eq, eval_eq, read_eq hc]
  match read c with
  | .error f => exact ⟨rfl, L, R, .refl h.fits, .refl R t t', h⟩
  | .ok (script, options) =>
    obtain ⟨M, hgrows, halike⟩ := taken_alike hs h hc script options
    rw [← pendingOf_taken s c script options] at howes
    rw [← pendingOf_taken s' c' script options] at howes'
    have hsound := soundFor_taken s c script options hsound
    have hsound' := soundFor_taken s' c' script options hsound'
    simp only [callerKey_eq hc] at howes' hsound' ⊢
    have hpump := pump_alike hs halike (t.script c .accepted) (t'.script c' .accepted) howes howes'
      hsound hsound'
    exact ⟨trivial, hpump.after hgrows ((Turn.InStep.refl R t t').script ..)⟩

/-- A call that brings a script concerns its caller. -/
lemma eval_concerns (s : Setting) (c : Call)
    (hkey : ∀ d ∈ x.pendingOf (callerKey c), callerKey d = callerKey c)
    (hsound : x.SoundFor (callerKey c)) (t : Turn) :
    Turn.Concerns (callerKey c) t (eval s c x t).2.2 ∧
      x.Spares (callerKey c) (eval s c x t).2.1 := by
  rw [eval_eq]
  match read c with
  | .error f => exact ⟨.refl _ t, fun _ _ => rfl, rfl⟩
  | .ok (script, options) =>
    have hkey' : ∀ d ∈ (x.taken s c script options).pendingOf (callerKey c),
        callerKey d = callerKey c := by
      intro d hd
      rw [pendingOf_taken] at hd
      rcases List.mem_append.mp hd with hd | hd
      · exact hkey d hd
      · rw [List.mem_singleton.mp hd]
    obtain ⟨hconcerns, hspares⟩ := pump_concerns s hkey'
      (soundFor_taken s c script options hsound) (t.script c .accepted)
    refine ⟨((Turn.Concerns.refl _ t).script rfl .accepted).trans hconcerns, ?_, ?_⟩
    · intro other hother
      rw [hspares.others other hother]
      unfold taken
      simp only
      rw [Keyed.find?_insert_of_ne hother, (enter_cases s c x).1]
    · rw [hspares.globals]
      exact enter_globals s c x

/-! ## Answers to scripts -/

/-- The context of a caller whose running script takes an answer. -/
def handOver (a : Call) (context : CallerContext) : Option CallerContext :=
  context.running.bind fun job =>
    match job.stack.post a with
    | (true, stack) => some { context with running := some { job with stack := stack } }
    | (false, _) => none

/-- Whether no script of another caller waits for an answer. -/
def AwaitsFor (key : String) (a : Call) (x : ScriptExecutor) : Prop :=
  ∀ other context job, other ≠ key → x.contexts.find? other = some context →
    context.running = some job → job.stack.awaiting ≠ some a.matchId

/-- A script takes no answer that it does not wait for. -/
lemma handOver_eq_none {a : Call}
    (h : ∀ job, context.running = some job → job.stack.awaiting ≠ some a.matchId) :
    handOver a context = none := by
  unfold handOver
  rw [Option.bind_eq_none_iff]
  intro job hjob
  simp [FrameStack.post, h job hjob]

/-- An answer that no other caller waits for goes to a caller or to nobody. -/
lemma recipient?_eq {a : Call} (hsorted : Keyed.Sorted x.contexts) (h : x.AwaitsFor key a) :
    recipient? a x.contexts =
      ((x.contexts.find? key).bind (handOver a)).map fun context => (key, context) := by
  have hother : ∀ e ∈ x.contexts, e.1 ≠ key → handOver a e.2 = none := by
    intro e he hne
    exact handOver_eq_none fun job hjob => h e.1 e.2 job hne (hsorted.find?_of_mem he) hjob
  have hrecipient : recipient? a x.contexts = x.contexts.findSome? fun e =>
      (handOver a e.2).map fun context => (e.1, context) := by
    unfold recipient? handOver
    congr 1
    funext ⟨k, scope, queue, running⟩
    cases running with
    | none => rfl
    | some job =>
      simp only [Option.bind_some]
      rcases job.stack.post a with ⟨_ | _, stack⟩ <;> rfl
  rw [hrecipient]
  generalize x.contexts = contexts at hsorted hother
  induction contexts with
  | nil => rfl
  | cons e contexts ih =>
    obtain ⟨k, context⟩ := e
    have hlater := ih hsorted.2 fun e he => hother e (List.mem_cons_of_mem _ he)
    rw [List.findSome?_cons, hlater]
    by_cases hk : k = key
    · subst hk
      -- No other entry has this key.
      have hnone : Keyed.find? k contexts = none := by
        rw [Option.eq_none_iff_forall_ne_some]
        intro other hfound
        exact (hsorted.1 _ (Keyed.mem_of_find? hfound)).false
      have hfind : Keyed.find? k ((k, context) :: contexts) = some context := if_pos rfl
      rw [hnone, hfind]
      simp only [Option.bind_none, Option.map_none, Option.bind_some]
      cases handOver a context <;> rfl
    · have hfind : Keyed.find? key ((k, context) :: contexts) = Keyed.find? key contexts :=
        if_neg hk
      rw [hfind, hother (k, context) List.mem_cons_self hk]
      rfl

/-- What an answer comes to that no other caller waits for. -/
lemma receive_eq {a : Call} (s : Setting) (hsorted : Keyed.Sorted x.contexts)
    (h : x.AwaitsFor key a) (t : Turn) :
    receive s a x t = match (x.contexts.find? key).bind (handOver a) with
      | none => (false, x, t)
      | some context => (true, pump s key { x with contexts := x.contexts.insert key context }
          (noteResumed context a t)) := by
  unfold receive
  rw [recipient?_eq hsorted h]
  cases (x.contexts.find? key).bind (handOver a) <;> rfl

/-- That a script has been handed an answer is entered in the history. -/
lemma noteResumed_eq (context : CallerContext) (a : Call) (t : Turn) :
    ∃ H, noteResumed context a t = { t with scripts := H } := by
  unfold noteResumed
  split
  · exact ⟨_, rfl⟩
  · exact ⟨t.scripts, rfl⟩

/-- A context whose script has taken an answer has the same calls pending. -/
lemma handOver_eq_some {a : Call} (hresponse : a.isResponse = true)
    (h : handOver a context = some context')
    (hsound : ∀ job, context.running = some job → job.stack.Sound) :
    context'.calls = context.calls ∧
      ∀ job, context'.running = some job → job.stack.Sound := by
  obtain ⟨job, hjob, hpost⟩ := Option.bind_eq_some_iff.mp h
  match hposted : job.stack.post a with
  | (false, stack) =>
    rw [hposted] at hpost
    contradiction
  | (true, stack) =>
    rw [hposted] at hpost
    cases hpost
    refine ⟨by simp [CallerContext.calls, hjob], ?_⟩
    intro job' hjob'
    cases hjob'
    exact (FrameStack.free_post (hsound job hjob) hresponse hposted).2.1

/-- Answers are taken alike, where no number stands for two. -/
lemma handOver_alike (hR : Relator.BiUnique R) (h : context.Alike L R context') {a a' : Call}
    (ha : a.Alike R a') :
    Option.Rel (CallerContext.Alike L R) (handOver a context) (handOver a' context') := by
  obtain ⟨scope, queue, running⟩ := context
  obtain ⟨scope', queue', running'⟩ := context'
  obtain ⟨hscope, hqueue, hrunning⟩ := h
  cases hrunning with
  | none => exact .none
  | some hjob =>
    obtain @⟨_, stack', hcall, hstack⟩ := hjob
    obtain ⟨htaken, hposted⟩ := FrameStack.post_alike hR hstack ha
    unfold handOver
    simp only [Option.bind_some]
    generalize FrameStack.post _ a = posted at htaken hposted ⊢
    generalize stack'.post a' = posted' at htaken hposted ⊢
    obtain ⟨taken, stack⟩ := posted
    obtain ⟨taken', stack'⟩ := posted'
    cases htaken
    cases taken with
    | false => exact .none
    | true => exact .some ⟨hscope, hqueue, .some ⟨hcall, hposted⟩⟩

/-- An executor after a script of a caller has taken an answer. -/
lemma handed_facts {a : Call} (hresponse : a.isResponse = true)
    (hfind : (x.contexts.find? key).bind (handOver a) = some context)
    (hsound : x.SoundFor key) :
    ScriptExecutor.pendingOf { x with contexts := x.contexts.insert key context } key =
        x.pendingOf key ∧
      ScriptExecutor.SoundFor key { x with contexts := x.contexts.insert key context } := by
  obtain ⟨former, hformer, hhanded⟩ := Option.bind_eq_some_iff.mp hfind
  obtain ⟨hcalls, hsound'⟩ :=
    handOver_eq_some hresponse hhanded fun job hjob => hsound former job hformer hjob
  constructor
  · rw [pendingOf_insert, Function.update_self, hcalls, pendingOf_of_find? hformer]
  · intro context' job hfound hjob
    have hsame : context = context' := by
      simpa [Keyed.find?_insert_self] using hfound
    exact hsound' job (hsame ▸ hjob)

/-- Answers are received alike. -/
lemma receive_alike (hs : s.Alike s') (hR : Relator.BiUnique R) (h : x.Alike key L R x')
    {a a' : Call} (ha : a.Alike R a') (hresponse : a.isResponse = true)
    (hsorted : Keyed.Sorted x.contexts) (hsorted' : Keyed.Sorted x'.contexts)
    (hfor : x.AwaitsFor key a) (hfor' : x'.AwaitsFor key a')
    (howes : t.ledger.Owes (x.pendingOf key)) (howes' : t'.ledger.Owes (x'.pendingOf key))
    (hsound : x.SoundFor key) (hsound' : x'.SoundFor key) :
    ServesAlike key L R x x' t t' (receive s a x t).2 (receive s' a' x' t').2 := by
  have hresponse' : a'.isResponse = true := by
    obtain ⟨hnumber⟩ := ha
    exact hresponse
  have hhanded : Option.Rel (CallerContext.Alike L R) ((x.contexts.find? key).bind (handOver a))
      ((x'.contexts.find? key).bind (handOver a')) := by
    have hcontext := h.context
    generalize x.contexts.find? key = b at hcontext ⊢
    generalize x'.contexts.find? key = b' at hcontext ⊢
    cases hcontext with
    | none => exact .none
    | some hcontext => exact handOver_alike hR hcontext ha
  rw [receive_eq s hsorted hfor, receive_eq s' hsorted' hfor']
  obtain ⟨hfind, hfind'⟩ | ⟨context, context', hfind, hfind', hcontext⟩ := optionRel_cases hhanded
  · rw [hfind, hfind']
    exact ⟨L, R, .refl h.fits, .refl R t t', h⟩
  · rw [hfind, hfind']
    obtain ⟨hpending, hready⟩ := handed_facts hresponse hfind hsound
    obtain ⟨hpending', hready'⟩ := handed_facts hresponse' hfind' hsound'
    obtain ⟨H, hH⟩ := noteResumed_eq context a t
    obtain ⟨H', hH'⟩ := noteResumed_eq context' a' t'
    have halike : ScriptExecutor.Alike key L R
        { x with contexts := x.contexts.insert key context }
        { x' with contexts := x'.contexts.insert key context' } := by
      refine ⟨h.fits, h.globals, ?_⟩
      simp only [Keyed.find?_insert_self, Option.rel_some_some]
      exact hcontext
    simp only [hH, hH']
    have hpump := pump_alike hs halike { t with scripts := H } { t' with scripts := H' }
      (hpending ▸ howes) (hpending' ▸ howes') hready hready'
    exact hpump.after (.refl h.fits) ((Turn.InStep.refl R t t').scripts H H')

/-- An answer concerns the caller whose script may wait for it. -/
lemma receive_concerns (s : Setting) {a : Call} (hresponse : a.isResponse = true)
    (hsorted : Keyed.Sorted x.contexts) (hfor : x.AwaitsFor key a)
    (hkey : ∀ c ∈ x.pendingOf key, callerKey c = key) (hsound : x.SoundFor key) (t : Turn) :
    Turn.Concerns key t (receive s a x t).2.2 ∧ x.Spares key (receive s a x t).2.1 := by
  rw [receive_eq s hsorted hfor]
  match hfind : (x.contexts.find? key).bind (handOver a) with
  | none => exact ⟨.refl key t, fun _ _ => rfl, rfl⟩
  | some context =>
    obtain ⟨hpending, hready⟩ := handed_facts hresponse hfind hsound
    have hnoted : Turn.Concerns key t (noteResumed context a t) := by
      unfold noteResumed
      match hjob : context.running with
      | none => exact .refl key t
      | some job =>
        refine (Turn.Concerns.refl key t).script (hkey job.call ?_) _
        rw [← hpending, pendingOf_of_find? (Keyed.find?_insert_self ..)]
        simp [CallerContext.calls, hjob]
    obtain ⟨hconcerns, hspares⟩ :=
      pump_concerns s (hpending ▸ hkey) hready (noteResumed context a t)
    refine ⟨hnoted.trans hconcerns, fun other hother => ?_, hspares.globals⟩
    rw [hspares.others other hother]
    exact Keyed.find?_insert_of_ne hother ..

/-! ## Scripts that are given up -/

/-- A call whose script is given up is answered where it waits for an answer. -/
lemma cancel_eq (t : Turn) (c : Call) :
    cancel t c = (if c.expectsReply = true then
      t.settle c .error [.fault (.cancelled "script cleared")] else t).script c .cancelled := by
  unfold cancel
  split <;> rfl

/-- A script that is given up concerns its caller, and no call but its own is answered. -/
lemma cancel_concerns (t : Turn) (c : Call) :
    Turn.Concerns (callerKey c) t (cancel t c) ∧
      ∀ id ∈ (cancel t c).ledger.answered, id = c.matchId ∨ id ∈ t.ledger.answered := by
  rw [cancel_eq]
  split
  · exact ⟨(t.settle_concerns ..).script rfl _, t.settle_answered c _ _⟩
  · exact ⟨(Turn.Concerns.refl _ t).script rfl _, fun _ hid => .inr hid⟩

/-- Scripts are given up alike. -/
lemma cancel_inStep {cs cs' : List Call} (hcs : List.Forall₂ (Call.Alike R) cs cs')
    (howes : t.ledger.Owes cs) (howes' : t'.ledger.Owes cs') :
    Turn.InStep R R t t' (cs.foldl cancel t) (cs'.foldl cancel t') := by
  induction hcs generalizing t t' with
  | nil => exact .refl R t t'
  | @cons c c' cs cs' hc hcs ih =>
    have hfirst : Turn.InStep R R t t' (cancel t c) (cancel t' c') := by
      have hreplies : c'.expectsReply = c.expectsReply := by
        obtain ⟨hnumber⟩ := hc
        rfl
      rw [cancel_eq, cancel_eq, hreplies]
      split
      · next hreply =>
        exact (Turn.settle_inStep hc (howes.head hreply) (howes'.head (hreplies.trans hreply))
          hreply ..).script ..
      · exact (Turn.InStep.refl R t t').script ..
    have hlater := howes.tail (cancel_concerns t c).2
    have hlater' := howes'.tail (cancel_concerns t' c').2
    exact hfirst.trans (ih hlater hlater')

/-- Scripts that are given up concern their caller. -/
lemma foldl_cancel_concerns {cs : List Call} (hkey : ∀ c ∈ cs, callerKey c = key) (t : Turn) :
    Turn.Concerns key t (cs.foldl cancel t) := by
  induction cs generalizing t with
  | nil => exact .refl key t
  | cons c cs ih =>
    have hfirst := (cancel_concerns t c).1
    rw [hkey c List.mem_cons_self] at hfirst
    exact hfirst.trans (ih (fun d hd => hkey d (List.mem_cons_of_mem c hd)) _)

/-- As many scripts are pending for contexts that are alike. -/
lemma pending_eq (h : context.Alike L R context') : context'.pending = context.pending := by
  have hrunning := h.running
  unfold CallerContext.pending
  rw [h.queue.length_eq]
  generalize context.running = a at hrunning ⊢
  generalize context'.running = b at hrunning ⊢
  cases hrunning <;> rfl

/-- The scripts of a caller are given up alike. -/
lemma clear_alike (h : x.Alike (callerKey c) L R x') (hc : c.Alike R c')
    (howes : t.ledger.Owes (x.pendingOf (callerKey c)))
    (howes' : t'.ledger.Owes (x'.pendingOf (callerKey c'))) :
    (clear c' x' t').1 = (clear c x t).1 ∧
      ServesAlike (callerKey c) L R x x' t t' (clear c x t).2 (clear c' x' t').2 := by
  rw [callerKey_eq hc] at howes'
  unfold clear
  rw [callerKey_eq hc]
  obtain ⟨hfind, hfind'⟩ | ⟨context, context', hfind, hfind', hcontext⟩ := optionRel_cases h.context
  · rw [hfind, hfind']
    exact ⟨rfl, L, R, .refl h.fits, .refl R t t', h⟩
  · rw [pendingOf_of_find? hfind] at howes
    rw [pendingOf_of_find? hfind'] at howes'
    rw [hfind, hfind']
    refine ⟨pending_eq hcontext, L, R, .refl h.fits,
      cancel_inStep hcontext.calls howes howes', h.fits, h.globals, ?_⟩
    simp only [Keyed.find?_insert_self, Option.rel_some_some]
    exact ⟨hcontext.scope, .nil, .none⟩

/-- Giving up scripts concerns their caller. -/
lemma clear_concerns (c : Call) (hkey : ∀ d ∈ x.pendingOf (callerKey c), callerKey d = callerKey c)
    (t : Turn) :
    Turn.Concerns (callerKey c) t (clear c x t).2.2 ∧
      x.Spares (callerKey c) (clear c x t).2.1 := by
  unfold clear
  match hfind : x.contexts.find? (callerKey c) with
  | none => exact ⟨.refl _ t, fun _ _ => rfl, rfl⟩
  | some context =>
    rw [pendingOf_of_find? hfind] at hkey
    exact ⟨foldl_cancel_concerns hkey t,
      fun other hother => Keyed.find?_insert_of_ne hother .., rfl⟩

/-! ## Tasks -/

/-- Whether an executor may be asked to do something. Any answer may arrive, whether a script waits
for it or not, and any call that was made may have scripts given up. A call that brings a script has
not been answered and has not brought one yet. -/
def Admits (l : Ledger) (H : List ScriptEvent) : ExecutorTask → Prop
  | .eval c => c ∈ l.made ∧ c.matchId ∉ l.answered ∧ c ∉ accepted H
  | .receive a => a.isResponse = true
  | .clear c => c ∈ l.made
  | .clearAll => False

/-- Whether what an executor is asked to do is for one caller. -/
def IsFor (key : String) (x : ScriptExecutor) : ExecutorTask → Prop
  | .eval c | .clear c => callerKey c = key
  | .receive a => x.AwaitsFor key a
  | .clearAll => False

/-- Tasks that differ in the number of a call only. -/
inductive TaskAlike (R : Renaming) : ExecutorTask → ExecutorTask → Prop
  | eval {c c' : Call} (h : c.Alike R c') : TaskAlike R (.eval c) (.eval c')
  | receive {a a' : Call} (h : a.Alike R a') : TaskAlike R (.receive a) (.receive a')
  | clear {c c' : Call} (h : c.Alike R c') : TaskAlike R (.clear c) (.clear c')

section Tasks

variable {l : Ledger} {H : List ScriptEvent} {task task' : ExecutorTask}

/-- The scripts that have been started are such that scripts lead to. -/
lemma Kept.soundFor (h : Kept x l H) (key : String) : x.SoundFor key :=
  fun context job hfind hjob => ((h.resting key context hfind).suspended job hjob).sound

/-- The pending calls of a caller come from it. -/
lemma Kept.callerKey_eq (h : Kept x l H) : ∀ c ∈ x.pendingOf key, callerKey c = key :=
  fun _ hc => (h.books.mem_pending hc).2

/-- With a call that brings a script the pending calls of its caller are still to be answered. -/
lemma Kept.owes_eval (h : Kept x l H) (hadmits : Admits l H (.eval c)) :
    l.Owes (x.pendingOf (callerKey c) ++ [c]) := by
  obtain ⟨hmade, hunanswered, hnew⟩ := hadmits
  have hbooks := h.books.accept hmade hnew hunanswered
  have howes := hbooks.owes (callerKey c)
  rwa [Function.update_self] at howes

/-- What executors are asked to do alike for a caller they do alike. -/
theorem execute_alike (t t' : Turn) (hs : s.Alike s') (hR : Relator.BiUnique R)
    (h : x.Alike key L R x')
    (hkept : x.Kept t.ledger t.scripts) (hkept' : x'.Kept t'.ledger t'.scripts)
    (htask : TaskAlike R task task') (hadmits : Admits t.ledger t.scripts task)
    (hadmits' : Admits t'.ledger t'.scripts task') (hfor : x.IsFor key task)
    (hfor' : x'.IsFor key task') :
    (Program.executeOn s' x' task' t').1 = (Program.executeOn s x task t).1 ∧
      ServesAlike key L R x x' t t' (Program.executeOn s x task t).2
        (Program.executeOn s' x' task' t').2 := by
  cases htask with
  | @eval c c' hc =>
    obtain rfl : callerKey c = key := hfor
    obtain ⟨hresult, halike⟩ := eval_alike hs h hc (hkept.owes_eval hadmits)
      (hkept'.owes_eval hadmits') (hkept.soundFor _) (hkept'.soundFor _)
    refine ⟨?_, halike⟩
    change (eval s' c' x' t').1.map _ = (eval s c x t).1.map _
    rw [hresult]
  | receive ha =>
    exact ⟨rfl, receive_alike hs hR h ha hadmits hkept.sorted hkept'.sorted hfor hfor'
      (hkept.books.owes key) (hkept'.books.owes key) (hkept.soundFor key) (hkept'.soundFor key)⟩
  | @clear c c' hc =>
    obtain rfl : callerKey c = key := hfor
    obtain ⟨hcount, halike⟩ :=
      clear_alike h hc (hkept.books.owes (callerKey c)) (hkept'.books.owes (callerKey c'))
    refine ⟨?_, halike⟩
    change Except.ok (clear c' x' t').1 = Except.ok (clear c x t).1
    rw [hcount]

/-- What an executor is asked to do for a caller concerns no other one. -/
theorem execute_concerns (s : Setting) (hkept : x.Kept t.ledger t.scripts)
    (hadmits : Admits t.ledger t.scripts task) (hfor : x.IsFor key task) :
    Turn.Concerns key t (Program.executeOn s x task t).2.2 ∧
      x.Spares key (Program.executeOn s x task t).2.1 := by
  cases task with
  | eval c =>
    obtain rfl : callerKey c = key := hfor
    exact eval_concerns s c hkept.callerKey_eq (hkept.soundFor _) t
  | receive a =>
    exact receive_concerns s hadmits hkept.sorted hfor hkept.callerKey_eq (hkept.soundFor key) t
  | clear c =>
    obtain rfl : callerKey c = key := hfor
    exact clear_concerns c hkept.callerKey_eq t
  | clearAll => exact hfor.elim

/-- What an executor is asked to do keeps the invariant, where every script comes to rest. -/
theorem Kept.execute (h : x.Kept t.ledger t.scripts) (hadmits : Admits t.ledger t.scripts task)
    (hrests : ∀ d, ⟨d, .stuck⟩ ∉ (Program.executeOn s x task t).2.2.scripts) :
    (Program.executeOn s x task t).2.1.Kept (Program.executeOn s x task t).2.2.ledger
      (Program.executeOn s x task t).2.2.scripts := by
  cases task with
  | eval c =>
    obtain ⟨hmade, hunanswered, hnew⟩ := hadmits
    exact h.eval hmade hnew hunanswered hrests
  | receive a => exact h.receive hadmits hrests
  | clear c => exact (h.clear c).1
  | clearAll => exact hadmits.elim

end Tasks

end ScriptExecutor

end Switchboard
