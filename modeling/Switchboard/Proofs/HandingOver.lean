import Mathlib
import Switchboard.HandOff

/-!
# Tasks on the thread of a root

Tasks are handed to the thread of a root from any number of other threads, and nothing is said about
when: between any two steps of the thread somebody may send it a task, stop waiting for a result, or
tell it to shut down.  The main theorem `RootThread.hand_offs` says that all the same the thread
does what it would do if the tasks were run one after the other, each followed by a pass, in the
order in which they were sent, up to the message to shut down.

What a task makes of a root is `Errand.perform`, and what the pass after it makes of it is
`Root.Passes`, a chain of items that ends with empty queues or with the budget.  The invariant
`RootThread.Follows` compares the root of the thread with the one after all tasks that have been
begun; in the middle of a task it says that what is left of the task makes of the root as it is what
the whole task makes of the root as it was before.
-/

namespace Switchboard

/-! ## Passes -/

namespace Root

/-- A number of items that a root processes, one after the other. -/
inductive Processes : ℕ → Root → Root → Prop where
  | nothing (r : Root) : Processes 0 r r
  | item {k : ℕ} {r s t : Root} (hfirst : r.step? = some s) (hrest : Processes k s t) :
    Processes (k + 1) r t

/-- What a pass makes of a root.  Items are processed until nothing is queued any more, or as many
of them as the budget allows, and never more. -/
def Passes (r s : Root) : Prop :=
  ∃ k, Processes k r s ∧ k ≤ r.config.callBudget ∧
    (s.portQueue = [] ∧ s.queue = [] ∨ k = r.config.callBudget)

/-- Nothing is queued in a root that has nothing to process. -/
lemma nothing_queued {r : Root} (h : r.step? = none) : r.portQueue = [] ∧ r.queue = [] := by
  unfold step? at h
  split at h
  · contradiction
  · next hports =>
    split at h
    · contradiction
    · next hqueue => exact ⟨hports, hqueue⟩

/-- Processing within a budget goes on until nothing is queued, or the budget is spent. -/
lemma exists_processes_runFor (budget done : ℕ) (r : Root) :
    ∃ k, Processes k r (runFor budget done r).2 ∧ k ≤ budget ∧
      ((runFor budget done r).2.portQueue = [] ∧ (runFor budget done r).2.queue = [] ∨
        k = budget) := by
  induction budget generalizing done r with
  | zero => exact ⟨0, .nothing r, le_rfl, .inr rfl⟩
  | succ budget ih =>
    unfold runFor
    cases hstep : r.step? with
    | none => exact ⟨0, .nothing r, Nat.zero_le _, .inl (nothing_queued hstep)⟩
    | some s =>
      obtain ⟨k, hprocesses, hle, hend⟩ := ih (done + 1) s
      exact ⟨k + 1, .item hstep hprocesses, Nat.succ_le_succ hle,
        hend.imp_right (congrArg (· + 1))⟩

/-- The pass of a root is one. -/
lemma passes_runUntilIdle (r : Root) : r.Passes r.runUntilIdle.2 :=
  exists_processes_runFor r.config.callBudget 0 r

end Root

/-! ## What tasks do -/

/-- What a task leaves and what it makes of a root.  Tasks that it sends are accepted or not, and a
task that it wants to wait for is refused. -/
def Errand.perform {ρ : Type} (accepting : Bool) : Errand ρ → Root → TaskResult ρ × Root
  | .done a, r => (a, r)
  | .use change next, r => (next r).perform accepting (change r)
  | .post _ next, r => (next (if accepting then .ok () else .error .closed)).perform accepting r
  | .handOff _ next, r => (next (.error .reentrant)).perform accepting r

/-- The number of a task that is sent. -/
def Message.ticket? {ρ : Type} : Message ρ → Option ℕ
  | .task ticket _ => some ticket
  | .shutDown => none

namespace Run

variable {ρ : Type}

/-- What a task that was begun leaves and what it makes of a root. -/
def perform (x : Run ρ) (r : Root) : TaskResult ρ × Root := x.errand.perform x.accepting r

/-- The root after a task and the pass that follows it. -/
def serve (r : Root) (x : Run ρ) : Root := (x.perform r).2.runUntilIdle.2

/-- The root after tasks one after the other. -/
def served (r : Root) (xs : List (Run ρ)) : Root := xs.foldl serve r

/-- One more task. -/
lemma served_concat (r : Root) (xs : List (Run ρ)) (x : Run ρ) :
    served r (xs ++ [x]) = serve (served r xs) x :=
  List.foldl_concat ..

end Run

/-- What happens to a thread: what others do, on any threads, and its own steps. -/
inductive ThreadEvent (ρ : Type) where
  /-- A task is sent and nobody waits for its result. -/
  | post (e : Errand ρ)
  /-- A task is sent and its result is waited for. -/
  | submit (e : Errand ρ)
  /-- The result of a task is not waited for any longer. -/
  | giveUp (ticket : ℕ)
  /-- A task is handed over on the thread itself. -/
  | here (e : Errand ρ)
  /-- The owner wants the thread to end. -/
  | close
  /-- The thread makes a step. -/
  | step

/-- Whether somebody stops waiting. -/
def ThreadEvent.isGiveUp {ρ : Type} : ThreadEvent ρ → Bool
  | .giveUp _ => true
  | _ => false

namespace RootThread

variable {ρ : Type} {r₀ : Root} {t u : RootThread ρ}

/-- A thread that has been given a root and has not done anything yet. -/
def start (r : Root) : RootThread ρ := { root := r }

/-- The thread after an event. -/
def after (t : RootThread ρ) : ThreadEvent ρ → RootThread ρ
  | .post e => (t.post e).2
  | .submit e => (t.submit e).2
  | .giveUp ticket => t.giveUp ticket
  | .here e => (t.handOffHere e).2
  | .close => t.close
  | .step => t.step

/-- The thread after events one after the other. -/
def afterAll (t : RootThread ρ) (es : List (ThreadEvent ρ)) : RootThread ρ := es.foldl after t

/-- One more event. -/
lemma afterAll_concat (t : RootThread ρ) (es : List (ThreadEvent ρ)) (x : ThreadEvent ρ) :
    t.afterAll (es ++ [x]) = (t.afterAll es).after x :=
  List.foldl_concat ..

/-- First some events and then others. -/
lemma afterAll_append (t : RootThread ρ) (es es' : List (ThreadEvent ρ)) :
    t.afterAll (es ++ es') = (t.afterAll es).afterAll es' :=
  List.foldl_append

/-- The messages with the tasks that were begun and had come through the inbox. -/
def taken (t : RootThread ρ) : List (Message ρ) :=
  (t.begun.filter Run.queued).map fun x => .task x.ticket x.errand

/-! ## One event -/

/-- Whether what holds the root has not changed, or is a task with the same things left to do. -/
inductive SameHold (accepting : Bool) : Hold ρ → Hold ρ → Prop where
  | refl (h : Hold ρ) : SameHold accepting h h
  | task (ticket : ℕ) {e e' : Errand ρ} (h : e'.perform accepting = e.perform accepting) :
    SameHold accepting (.task ticket e) (.task ticket e')

/-- What one event does to a thread.  Others send it messages, wait for results and stop waiting;
the thread itself begins a task, goes on with it, makes the pass after it, and ends. -/
inductive Deed (t : RootThread ρ) : RootThread ρ → Prop where
  | still (waiting : List ℕ) {hold : Hold ρ} (hhold : SameHold t.running t.hold hold) :
    Deed t { t with waiting := waiting, hold := hold }
  | post (e : Errand ρ) (waiting : List ℕ) {hold : Hold ρ} (hrunning : t.running = true)
    (hhold : SameHold t.running t.hold hold) :
    Deed t { t.enqueue (.task t.nextTicket e) with
      nextTicket := t.nextTicket + 1, waiting := waiting, hold := hold }
  | close (hrunning : t.running = true) : Deed t (t.enqueue .shutDown)
  | here (e : Errand ρ) (hfree : t.hold = .free) :
    Deed t { t.begin ⟨t.nextTicket, e, false, t.running⟩ with
      nextTicket := t.nextTicket + 1, waiting := t.nextTicket :: t.waiting }
  | take {ticket : ℕ} {e : Errand ρ} {rest : List (Message ρ)} (hfree : t.hold = .free)
    (hinbox : t.inbox = .task ticket e :: rest) :
    Deed t ({ t with inbox := rest }.begin ⟨ticket, e, true, t.running⟩)
  | shut {rest : List (Message ρ)} (hfree : t.hold = .free)
    (hinbox : t.inbox = .shutDown :: rest) : Deed t { t with running := false, inbox := [] }
  | use {ticket : ℕ} {change : Root → Root} {next : Root → Errand ρ}
    (hhold : t.hold = .task ticket (.use change next)) :
    Deed t { t with root := change t.root, hold := .task ticket (next t.root) }
  | done {ticket : ℕ} {a : TaskResult ρ} (hhold : t.hold = .task ticket (.done a)) :
    Deed t { t.leave ticket a with hold := .pass }
  | pass (hhold : t.hold = .pass) :
    Deed t { t with root := t.root.runUntilIdle.2, hold := .free }

/-- Nothing happens. -/
lemma Deed.refl (t : RootThread ρ) : Deed t t := .still t.waiting (.refl t.hold)

/-- A task is sent, in the middle of another one or not. -/
lemma deed_post (t : RootThread ρ) (e : Errand ρ) : Deed t (t.post e).2 := by
  unfold post
  split
  · next hrunning => exact .post e t.waiting hrunning (.refl t.hold)
  · exact .refl t

/-- A task goes on. -/
lemma deed_advance {ticket : ℕ} {e : Errand ρ} (hhold : t.hold = .task ticket e) :
    Deed t (t.advance ticket e) := by
  cases e with
  | done a => exact .done hhold
  | use change next => exact .use hhold
  | post other next =>
    cases hrunning : t.running with
    | true =>
      have hsame : SameHold t.running t.hold (.task ticket (next (.ok ()))) := by
        rw [hhold, hrunning]
        exact .task ticket rfl
      rw [advance, post_of_running hrunning]
      exact .post other t.waiting hrunning hsame
    | false =>
      have hsame : SameHold t.running t.hold (.task ticket (next (.error .closed))) := by
        rw [hhold, hrunning]
        exact .task ticket rfl
      rw [advance, post_of_not_running hrunning]
      exact .still t.waiting hsame
  | handOff other next =>
    have hsame : SameHold t.running t.hold (.task ticket (next (.error .reentrant))) := by
      rw [hhold]
      exact .task ticket rfl
    have hrefused : t.handOffHere other = (.error .reentrant, t) :=
      handOffHere_of_held (by simp [hhold]) other
    rw [advance, hrefused]
    exact .still t.waiting hsame

/-- What an event does. -/
lemma deed_after (t : RootThread ρ) (x : ThreadEvent ρ) : Deed t (t.after x) := by
  cases x with
  | post e => exact deed_post t e
  | submit e =>
    show Deed t (t.submit e).2
    unfold submit
    cases hrunning : t.running with
    | true =>
      rw [post_of_running hrunning]
      exact .post e (t.nextTicket :: t.waiting) hrunning (.refl t.hold)
    | false =>
      rw [post_of_not_running hrunning]
      exact .refl t
  | giveUp ticket => exact .still _ (.refl t.hold)
  | here e =>
    show Deed t (t.handOffHere e).2
    unfold handOffHere
    split
    · next hfree => exact .here e hfree
    · exact .refl t
  | close =>
    show Deed t t.close
    unfold RootThread.close
    split
    · next hrunning => exact .close hrunning
    · exact .refl t
  | step =>
    show Deed t t.step
    unfold step
    split
    · next hhold => exact deed_advance hhold
    · next hhold => exact .pass hhold
    · next hfree =>
      split
      · exact .refl t
      · next m rest hinbox =>
        cases m with
        | task ticket e => exact .take hfree hinbox
        | shutDown => exact .shut hfree hinbox

/-! ## The root between and during tasks -/

/-- How the root that a thread has relates to the tasks that were begun. -/
inductive Follows (r₀ : Root) (accepting : Bool) : Hold ρ → List (Run ρ) → Root → Prop where
  | free (xs : List (Run ρ)) : Follows r₀ accepting .free xs (Run.served r₀ xs)
  | task {xs : List (Run ρ)} {x : Run ρ} {e : Errand ρ} {r : Root}
    (haccepting : x.accepting = accepting)
    (hleft : e.perform accepting r = x.perform (Run.served r₀ xs)) :
    Follows r₀ accepting (.task x.ticket e) (xs ++ [x]) r
  | pass (xs : List (Run ρ)) (x : Run ρ) :
    Follows r₀ accepting .pass (xs ++ [x]) (x.perform (Run.served r₀ xs)).2

/-- Going on with what has the same things left to do. -/
lemma Follows.of_sameHold {accepting : Bool} {hold hold' : Hold ρ} {xs : List (Run ρ)} {r : Root}
    (h : Follows r₀ accepting hold xs r) (hhold : SameHold accepting hold hold') :
    Follows r₀ accepting hold' xs r := by
  cases hhold with
  | refl => exact h
  | task ticket hsame =>
    cases h with
    | task haccepting hleft => exact .task haccepting (by rw [hsame, hleft])

/-- Where nothing holds the root all tasks have been served. -/
lemma Follows.eq_served {accepting : Bool} {hold : Hold ρ} {xs : List (Run ρ)} {r : Root}
    (h : Follows r₀ accepting hold xs r) (hfree : hold = .free) : r = Run.served r₀ xs := by
  cases h with
  | free => rfl
  | task => contradiction
  | pass => contradiction

/-- A task is begun where nothing holds the root. -/
lemma Follows.begin {accepting : Bool} {xs : List (Run ρ)} {r : Root} {x : Run ρ}
    (h : Follows r₀ accepting .free xs r) (hx : x.accepting = accepting) :
    Follows r₀ accepting (.task x.ticket x.errand) (xs ++ [x]) r := by
  rw [h.eq_served rfl]
  exact .task hx (by rw [← hx]; rfl)

/-- An event goes on with what the tasks begun do. -/
lemma Follows.deed (h : Follows r₀ t.running t.hold t.begun t.root) (hdeed : Deed t u) :
    Follows r₀ u.running u.hold u.begun u.root := by
  cases hdeed with
  | still waiting hhold => exact h.of_sameHold hhold
  | post e waiting hrunning hhold => exact h.of_sameHold hhold
  | close hrunning => exact h
  | here e hfree =>
    rw [hfree] at h
    exact h.begin rfl
  | take hfree hinbox =>
    rw [hfree] at h
    exact h.begin rfl
  | shut hfree hinbox =>
    rw [hfree] at h ⊢
    rw [h.eq_served rfl]
    exact .free _
  | use hhold =>
    rw [hhold] at h
    generalize t.begun = xs at h ⊢
    cases h with
    | task haccepting hleft => exact .task haccepting hleft
  | @done ticket a hhold =>
    have hleave : (t.leave ticket a).running = t.running ∧ (t.leave ticket a).begun = t.begun ∧
        (t.leave ticket a).root = t.root := by
      unfold leave
      split <;> exact ⟨rfl, rfl, rfl⟩
    obtain ⟨hrunning, hbegun, hroot⟩ := hleave
    show Follows r₀ (t.leave ticket a).running .pass (t.leave ticket a).begun
      (t.leave ticket a).root
    rw [hhold] at h
    rw [hrunning, hbegun, hroot]
    generalize t.begun = xs, t.root = r at h ⊢
    cases h with
    | @task xs x _ _ haccepting hleft =>
      have hroot : r = (x.perform (Run.served r₀ xs)).2 := congrArg Prod.snd hleft
      rw [hroot]
      exact .pass xs x
  | pass hhold =>
    show Follows r₀ t.running .free t.begun t.root.runUntilIdle.2
    rw [hhold] at h
    generalize t.begun = xs, t.root = r at h ⊢
    cases h with
    | pass xs x =>
      have hserved : Run.served r₀ (xs ++ [x]) =
          (x.perform (Run.served r₀ xs)).2.runUntilIdle.2 := Run.served_concat ..
      rw [← hserved]
      exact .free _

/-! ## The order of messages -/

/-- How the tasks taken and the messages in the inbox make up what was sent. -/
structure InOrder (t : RootThread ρ) : Prop where
  running : t.running = true → t.sent = t.taken ++ t.inbox
  ended : t.running = false → t.inbox = [] ∧ ∃ late, t.sent = t.taken ++ .shutDown :: late

/-- What is sent goes behind the rest. -/
lemma InOrder.enqueue (h : t.InOrder) (hrunning : t.running = true) (m : Message ρ) :
    (t.enqueue m).InOrder where
  running := by
    intro _
    show t.sent ++ [m] = t.taken ++ (t.inbox ++ [m])
    rw [h.running hrunning, List.append_assoc]
  ended := by
    intro hended
    rw [show (t.enqueue m).running = t.running from rfl, hrunning] at hended
    contradiction

/-- An event keeps messages in order. -/
lemma InOrder.deed (h : t.InOrder) (hdeed : Deed t u) : u.InOrder := by
  cases hdeed with
  | still waiting hhold => exact ⟨h.running, h.ended⟩
  | post e waiting hrunning hhold =>
    have hsent := h.enqueue hrunning (.task t.nextTicket e)
    exact ⟨hsent.running, hsent.ended⟩
  | close hrunning => exact h.enqueue hrunning .shutDown
  | here e hfree =>
    have htaken : (t.begin ⟨t.nextTicket, e, false, t.running⟩).taken = t.taken := by
      simp [taken, RootThread.begin]
    refine ⟨fun hrunning => ?_, fun hended => ?_⟩
    · exact (h.running hrunning).trans (congrArg (· ++ t.inbox) htaken.symm)
    · obtain ⟨hinbox, late, hsent⟩ := h.ended hended
      exact ⟨hinbox, late, hsent.trans (congrArg (· ++ .shutDown :: late) htaken.symm)⟩
  | @take ticket e rest hfree hinbox =>
    have htaken : ({ t with inbox := rest }.begin ⟨ticket, e, true, t.running⟩).taken =
        t.taken ++ [.task ticket e] := by
      simp [taken, RootThread.begin]
    refine ⟨fun hrunning => ?_, fun hended => ?_⟩
    · have hsent := h.running hrunning
      rw [hinbox, List.append_cons, ← htaken] at hsent
      exact hsent
    · rw [(h.ended hended).1] at hinbox
      contradiction
  | @shut rest hfree hinbox =>
    refine ⟨nofun, fun _ => ⟨rfl, ?_⟩⟩
    cases hrunning : t.running with
    | true =>
      refine ⟨rest, ?_⟩
      rw [← hinbox]
      exact h.running hrunning
    | false =>
      rw [(h.ended hrunning).1] at hinbox
      contradiction
  | use hhold => exact ⟨h.running, h.ended⟩
  | @done ticket a hhold =>
    unfold leave
    split <;> exact ⟨h.running, h.ended⟩
  | pass hhold => exact ⟨h.running, h.ended⟩

/-! ## The numbers of tasks -/

/-- The numbers of the tasks that were handed over on the thread itself. -/
def here (t : RootThread ρ) : List ℕ := (t.begun.filter fun x => !x.queued).map Run.ticket

/-- No number is given to two tasks. -/
structure Numbered (t : RootThread ρ) : Prop where
  nodup : (t.here ++ t.sent.filterMap Message.ticket?).Nodup
  lt : ∀ n ∈ t.here ++ t.sent.filterMap Message.ticket?, n < t.nextTicket

/-- Nothing is given a number. -/
lemma Numbered.of_eq (h : t.Numbered) (hhere : u.here = t.here)
    (hsent : u.sent.filterMap Message.ticket? = t.sent.filterMap Message.ticket?)
    (hnext : u.nextTicket = t.nextTicket) : u.Numbered where
  nodup := by rw [hhere, hsent]; exact h.nodup
  lt := by rw [hhere, hsent, hnext]; exact h.lt

/-- The next number is given to a task. -/
lemma Numbered.of_perm (h : t.Numbered)
    (hperm : (u.here ++ u.sent.filterMap Message.ticket?).Perm
      (t.nextTicket :: (t.here ++ t.sent.filterMap Message.ticket?)))
    (hnext : u.nextTicket = t.nextTicket + 1) : u.Numbered where
  nodup := by
    refine hperm.nodup_iff.mpr (List.nodup_cons.mpr ⟨fun hmem => ?_, h.nodup⟩)
    exact absurd (h.lt _ hmem) (by omega)
  lt := by
    intro n hn
    obtain rfl | hn := List.mem_cons.mp (hperm.mem_iff.mp hn)
    · omega
    · have := h.lt n hn
      omega

/-- An event gives no number to two tasks. -/
lemma Numbered.deed (h : t.Numbered) (hdeed : Deed t u) : u.Numbered := by
  cases hdeed with
  | still waiting hhold => exact h.of_eq rfl rfl rfl
  | post e waiting hrunning hhold =>
    refine h.of_perm ?_ rfl
    show (t.here ++ (t.sent ++ [Message.task t.nextTicket e]).filterMap Message.ticket?).Perm _
    rw [List.filterMap_append, ← List.append_assoc]
    exact List.perm_append_singleton ..
  | close hrunning =>
    refine h.of_eq rfl ?_ rfl
    show (t.sent ++ [Message.shutDown]).filterMap Message.ticket? = _
    rw [List.filterMap_append]
    exact List.append_nil _
  | here e hfree =>
    refine h.of_perm ?_ rfl
    have hhere : (t.begin ⟨t.nextTicket, e, false, t.running⟩).here = t.here ++ [t.nextTicket] := by
      simp [RootThread.here, RootThread.begin]
    show ((t.begin ⟨t.nextTicket, e, false, t.running⟩).here ++ _).Perm _
    rw [hhere, List.append_assoc]
    exact List.perm_middle
  | take hfree hinbox => exact h.of_eq (by simp [RootThread.here, RootThread.begin]) rfl rfl
  | shut hfree hinbox => exact h.of_eq rfl rfl rfl
  | use hhold => exact h.of_eq rfl rfl rfl
  | @done ticket a hhold =>
    unfold leave
    split <;> exact h.of_eq rfl rfl rfl
  | pass hhold => exact h.of_eq rfl rfl rfl

/-- The tasks begun are those handed over on the thread itself and those taken. -/
lemma perm_begun (t : RootThread ρ) :
    (t.begun.map Run.ticket).Perm (t.here ++ t.taken.filterMap Message.ticket?) := by
  have htaken : t.taken.filterMap Message.ticket? = (t.begun.filter Run.queued).map Run.ticket := by
    unfold taken
    rw [List.filterMap_map, ← List.filterMap_eq_map]
    rfl
  rw [htaken]
  refine ((List.filter_append_perm Run.queued t.begun).map Run.ticket).symm.trans ?_
  rw [List.map_append]
  exact List.perm_append_comm

/-- What was taken are the first messages sent. -/
lemma InOrder.taken_prefix (h : t.InOrder) : t.taken <+: t.sent := by
  cases hrunning : t.running with
  | true => exact ⟨_, (h.running hrunning).symm⟩
  | false =>
    obtain ⟨-, late, hsent⟩ := h.ended hrunning
    exact ⟨_, hsent.symm⟩

/-- No task is begun twice. -/
lemma nodup_begun (hnumbered : t.Numbered) (horder : t.InOrder) :
    (t.begun.map Run.ticket).Nodup := by
  refine (perm_begun t).nodup_iff.mpr (hnumbered.nodup.sublist ?_)
  exact (List.Sublist.refl _).append (horder.taken_prefix.sublist.filterMap _)

/-- What was sent behind the message to shut down has not been taken. -/
lemma not_begun (hnumbered : t.Numbered) (horder : t.InOrder) {front back : List (Message ρ)}
    (hsent : t.sent = front ++ .shutDown :: back) {n : ℕ} {e : Errand ρ}
    (hlate : .task n e ∈ back) : n ∉ t.begun.map Run.ticket := by
  have htasks : .shutDown ∉ t.taken := by simp [taken]
  -- What was taken holds no message to shut down, so it does not go beyond the first one.
  have hfront : t.taken <+: front := by
    have hshut : front ++ [.shutDown] <+: t.sent := ⟨back, by simp [hsent]⟩
    rcases List.prefix_or_prefix_of_prefix horder.taken_prefix hshut with h | h
    · rcases List.prefix_concat_iff.mp h with heq | h
      · exact absurd (heq ▸ List.mem_concat_self) htasks
      · exact h
    · exact absurd (h.subset List.mem_concat_self) htasks
  have hnodup := hnumbered.nodup
  rw [hsent, List.filterMap_append, ← List.append_assoc] at hnodup
  have hback : n ∈ (Message.shutDown :: back).filterMap Message.ticket? :=
    List.mem_filterMap.mpr ⟨_, List.mem_cons_of_mem _ hlate, rfl⟩
  intro hbegun
  have hmem := (perm_begun t).mem_iff.mp hbegun
  have hsublist : List.Sublist (t.here ++ t.taken.filterMap Message.ticket?)
      (t.here ++ front.filterMap Message.ticket?) :=
    (List.Sublist.refl _).append (hfront.sublist.filterMap _)
  exact (List.nodup_append.mp hnodup).2.2 n (hsublist.subset hmem) n hback rfl

/-! ## Results -/

/-- Whether the results that were left are those of tasks that were begun. -/
def Reports (r₀ : Root) (begun : List (Run ρ)) (results : List (ℕ × TaskResult ρ)) : Prop :=
  ∀ n a, (n, a) ∈ results → ∃ xs x ys, begun = xs ++ x :: ys ∧ x.ticket = n ∧
    a = (x.perform (Run.served r₀ xs)).1

/-- One more task is begun. -/
lemma Reports.begin {begun : List (Run ρ)} {results : List (ℕ × TaskResult ρ)}
    (h : Reports r₀ begun results) (y : Run ρ) : Reports r₀ (begun ++ [y]) results := by
  intro n a hmem
  obtain ⟨xs, x, ys, rfl, hn, ha⟩ := h n a hmem
  exact ⟨xs, x, ys ++ [y], by simp, hn, ha⟩

/-- What an event leaves are results of tasks. -/
lemma Reports.deed (h : Reports r₀ t.begun t.results)
    (hfollows : Follows r₀ t.running t.hold t.begun t.root) (hdeed : Deed t u) :
    Reports r₀ u.begun u.results := by
  cases hdeed with
  | still waiting hhold => exact h
  | post e waiting hrunning hhold => exact h
  | close hrunning => exact h
  | here e hfree => exact h.begin _
  | take hfree hinbox => exact h.begin _
  | shut hfree hinbox => exact h
  | use hhold => exact h
  | @done ticket a hhold =>
    unfold leave
    split
    · intro n b hmem
      obtain heq | hmem := List.mem_cons.mp hmem
      · cases heq
        rw [hhold] at hfollows
        show ∃ xs x ys, t.begun = xs ++ x :: ys ∧ _
        generalize t.begun = xs, t.root = r at hfollows ⊢
        cases hfollows with
        | @task xs x _ _ haccepting hleft =>
          exact ⟨xs, x, [], rfl, rfl, congrArg Prod.fst hleft⟩
      · exact h n b hmem
    · exact h
  | pass hhold => exact h

/-! ## Waiting or not -/

/-- A thread without regard to who waits for results, and without these. -/
def work (t : RootThread ρ) : RootThread ρ := { t with waiting := [], results := [] }

/-- Leaving a result is no work. -/
lemma work_leave (t : RootThread ρ) (ticket : ℕ) (a : TaskResult ρ) :
    (t.leave ticket a).work = t.work := by
  unfold leave
  split <;> rfl

/-- How a task goes on does not depend on who waits. -/
lemma work_advance {ticket : ℕ} {e : Errand ρ} (hhold : t.hold = .task ticket e) :
    (t.advance ticket e).work = (t.work.advance ticket e).work := by
  cases e with
  | done a =>
    have hleave : (t.leave ticket a).work = (t.work.leave ticket a).work := by
      rw [work_leave, work_leave]
      rfl
    exact congrArg (fun t : RootThread ρ => { t with hold := .pass }) hleave
  | use change next => rfl
  | post other next =>
    cases hrunning : t.running with
    | true =>
      rw [advance, advance, post_of_running hrunning,
        post_of_running (show t.work.running = true from hrunning)]
      rfl
    | false =>
      rw [advance, advance, post_of_not_running hrunning,
        post_of_not_running (show t.work.running = false from hrunning)]
      rfl
  | handOff other next =>
    have hheld : t.hold ≠ .free := by simp [hhold]
    rw [advance, advance, handOffHere_of_held hheld,
      handOffHere_of_held (show t.work.hold ≠ .free from hheld)]
    rfl

/-- What a thread does does not depend on who waits. -/
lemma work_after (t : RootThread ρ) (x : ThreadEvent ρ) :
    (t.after x).work = (t.work.after x).work := by
  have hrunning : t.work.running = t.running := rfl
  have hhold : t.work.hold = t.hold := rfl
  have hinbox : t.work.inbox = t.inbox := rfl
  cases x with
  | post e =>
    show (t.post e).2.work = (t.work.post e).2.work
    unfold post
    rw [hrunning]
    split <;> rfl
  | submit e =>
    show (t.submit e).2.work = (t.work.submit e).2.work
    unfold submit post
    rw [hrunning]
    cases t.running <;> rfl
  | giveUp ticket => rfl
  | here e =>
    show (t.handOffHere e).2.work = (t.work.handOffHere e).2.work
    unfold handOffHere
    rw [hhold]
    split <;> rfl
  | close =>
    show t.close.work = t.work.close.work
    unfold RootThread.close
    rw [hrunning]
    split <;> rfl
  | step =>
    show t.step.work = t.work.step.work
    unfold step
    rw [hhold, hinbox]
    split
    · next htask => exact work_advance htask
    · rfl
    · split
      · rfl
      · next m rest _ => cases m <;> rfl

/-- Nothing but the results depends on who stops waiting. -/
lemma work_filter (t : RootThread ρ) (es : List (ThreadEvent ρ)) :
    (t.afterAll (es.filter fun x => !x.isGiveUp)).work = (t.afterAll es).work := by
  induction es using List.reverseRecOn with
  | nil => rfl
  | append_singleton es x ih =>
    rw [afterAll_concat, List.filter_append]
    cases hx : x.isGiveUp with
    | true =>
      cases x with
      | giveUp ticket =>
        rw [List.filter_cons_of_neg (by simp [hx]), List.filter_nil, List.append_nil]
        exact ih
      | _ => contradiction
    | false =>
      rw [List.filter_cons_of_pos (by simp [hx]), List.filter_nil, afterAll_concat, work_after, ih,
        ← work_after]

/-! ## What the thread comes to on its own -/

/-- Whether a thread comes to another state by its own steps alone. -/
def ComesTo (t u : RootThread ρ) : Prop := ∃ k, t.afterAll (List.replicate k .step) = u

/-- A thread is where it is. -/
lemma ComesTo.refl (t : RootThread ρ) : t.ComesTo t := ⟨0, rfl⟩

/-- A step comes first. -/
lemma ComesTo.step (h : t.step.ComesTo u) : t.ComesTo u := by
  obtain ⟨k, hk⟩ := h
  exact ⟨k + 1, hk⟩

/-- Some steps after others. -/
lemma ComesTo.trans {v : RootThread ρ} (h : t.ComesTo u) (h' : u.ComesTo v) : t.ComesTo v := by
  obtain ⟨k, rfl⟩ := h
  obtain ⟨l, rfl⟩ := h'
  exact ⟨k + l, by rw [List.replicate_add, afterAll_append]⟩

/-- Whether a thread is done with what held its root, and has perhaps been sent more. -/
structure Settled (inbox : List (Message ρ)) (running : Bool) (u : RootThread ρ) : Prop where
  free : u.hold = .free
  inbox : ∃ new, u.inbox = inbox ++ new
  running : u.running = running

/-- The step of a thread whose root a task holds. -/
lemma step_of_task {ticket : ℕ} {e : Errand ρ} (h : t.hold = .task ticket e) :
    t.step = t.advance ticket e := by
  rw [RootThread.step, h]

/-- A task that goes on comes to where it comes from there. -/
lemma complete_of_advance {ticket : ℕ} {e e' : Errand ρ} (h : t.hold = .task ticket e)
    (hcomplete : complete ticket e t = complete ticket e' (t.advance ticket e))
    (hinbox : ∃ new, (t.advance ticket e).inbox = t.inbox ++ new)
    (hrunning : (t.advance ticket e).running = t.running)
    (hnext : (t.advance ticket e).ComesTo (complete ticket e' (t.advance ticket e)) ∧
      Settled (t.advance ticket e).inbox (t.advance ticket e).running
        (complete ticket e' (t.advance ticket e))) :
    t.ComesTo (complete ticket e t) ∧ Settled t.inbox t.running (complete ticket e t) := by
  obtain ⟨hcomes, hfree, ⟨new', hnew'⟩, hrunning'⟩ := hnext
  obtain ⟨new, hnew⟩ := hinbox
  rw [hcomplete]
  refine ⟨.step (by rwa [step_of_task h]), hfree, ⟨new ++ new', ?_⟩, hrunning'.trans hrunning⟩
  rw [hnew', hnew, List.append_assoc]

/-- A task that goes on until it is done makes some steps, and after them the root is free. -/
lemma complete_comesTo {ticket : ℕ} {e : Errand ρ} (h : t.hold = .task ticket e) :
    t.ComesTo (complete ticket e t) ∧ Settled t.inbox t.running (complete ticket e t) := by
  induction e generalizing t with
  | done a =>
    have hleave : (t.leave ticket a).inbox = t.inbox ∧ (t.leave ticket a).running = t.running := by
      unfold leave
      split <;> exact ⟨rfl, rfl⟩
    have hcomplete : complete ticket (.done a) t = t.step.step := by
      rw [step_of_task h]
      rfl
    refine ⟨.step (.step ?_), rfl, ⟨[], hleave.1.trans (List.append_nil _).symm⟩, hleave.2⟩
    rw [hcomplete]
    exact .refl _
  | use change next ih =>
    exact complete_of_advance h rfl ⟨[], (List.append_nil _).symm⟩ rfl (ih t.root rfl)
  | post other next _ ih =>
    have hpost : ∃ new, (t.post other).2.inbox = t.inbox ++ new ∧
        (t.post other).2.running = t.running := by
      unfold RootThread.post
      split
      · exact ⟨_, rfl, rfl⟩
      · exact ⟨[], (List.append_nil _).symm, rfl⟩
    obtain ⟨new, hinbox, hrunning⟩ := hpost
    exact complete_of_advance h rfl ⟨new, hinbox⟩ hrunning (ih _ rfl)
  | handOff other next _ ih =>
    have hadvance : t.advance ticket (.handOff other next) =
        { t with hold := .task ticket (next (.error .reentrant)) } := by
      rw [advance, handOffHere_of_held (by simp [h])]
    refine complete_of_advance h rfl ⟨[], ?_⟩ ?_ (ih _ ?_)
    · rw [hadvance, List.append_nil]
    · rw [hadvance]
    · rw [hadvance]

/-- A thread comes to where nothing holds its root. -/
lemma exists_settled (t : RootThread ρ) : ∃ u, t.ComesTo u ∧ Settled t.inbox t.running u := by
  cases hhold : t.hold with
  | free => exact ⟨t, .refl t, hhold, ⟨[], (List.append_nil _).symm⟩, rfl⟩
  | task ticket e => exact ⟨_, complete_comesTo hhold⟩
  | pass =>
    have hstep : t.step = { t with root := t.root.runUntilIdle.2, hold := .free } := by
      rw [RootThread.step, hhold]
    refine ⟨t.step, .step (.refl _), ?_, ⟨[], ?_⟩, ?_⟩
    · rw [hstep]
    · rw [hstep, List.append_nil]
    · rw [hstep]

/-- A thread that takes a task does all that belongs to it. -/
lemma takeNext_comesTo {ticket : ℕ} {e : Errand ρ} {rest : List (Message ρ)}
    (hfree : t.hold = .free) (hinbox : t.inbox = .task ticket e :: rest) :
    t.ComesTo t.takeNext ∧ Settled rest t.running t.takeNext := by
  have hstep : t.step = { t with inbox := rest }.begin ⟨ticket, e, true, t.running⟩ := by
    rw [RootThread.step, hfree, hinbox]
    rfl
  have hhold : t.step.hold = .task ticket e := by
    rw [hstep]
    rfl
  have hnext : t.takeNext = complete ticket e t.step := by
    rw [takeNext, hhold]
  obtain ⟨hcomes, hsettled⟩ := complete_comesTo hhold
  rw [hnext]
  refine ⟨.step hcomes, ?_⟩
  rw [hstep] at hsettled ⊢
  exact hsettled

/-- A thread whose root nothing holds comes to the messages behind some tasks. -/
lemma takes_of_free {front back : List (Message ρ)} (hfree : t.hold = .free)
    (hinbox : t.inbox = front ++ back) (hfront : .shutDown ∉ front) :
    ∃ u, t.ComesTo u ∧ Settled back t.running u := by
  induction front generalizing t back with
  | nil => exact ⟨t, .refl t, hfree, ⟨[], by simp [hinbox]⟩, rfl⟩
  | cons m front ih =>
    cases m with
    | shutDown => exact absurd List.mem_cons_self hfront
    | task ticket e =>
      obtain ⟨hcomes, hfree', ⟨new, hnew⟩, hrunning⟩ := takeNext_comesTo hfree hinbox
      -- The task may have sent others, which have come behind the rest.
      have hnext : t.takeNext.inbox = front ++ (back ++ new) :=
        hnew.trans (List.append_assoc ..)
      obtain ⟨u, hu, hfree'', ⟨new', hnew'⟩, hrunning'⟩ :=
        ih hfree' hnext fun hmem => hfront (List.mem_cons_of_mem _ hmem)
      rw [List.append_assoc] at hnew'
      exact ⟨u, hcomes.trans hu, hfree'', ⟨_, hnew'⟩, hrunning'.trans hrunning⟩

/-- A thread comes to the messages behind some tasks. -/
lemma takes {front back : List (Message ρ)} (hinbox : t.inbox = front ++ back)
    (hfront : .shutDown ∉ front) : ∃ u, t.ComesTo u ∧ Settled back t.running u := by
  obtain ⟨u, hu, hfree, ⟨new, hnew⟩, hrunning⟩ := exists_settled t
  rw [hinbox, List.append_assoc] at hnew
  obtain ⟨v, hv, hfree', ⟨new', hnew'⟩, hrunning'⟩ := takes_of_free hfree hnew hfront
  rw [List.append_assoc] at hnew'
  exact ⟨v, hu.trans hv, hfree', ⟨_, hnew'⟩, hrunning'.trans hrunning⟩

/-- A thread that was told to shut down ends. -/
lemma ends (h : .shutDown ∈ t.inbox) : ∃ u, t.ComesTo u ∧ u.running = false := by
  obtain ⟨front, back, hinbox, hfront⟩ := List.eq_append_cons_of_mem h
  obtain ⟨u, hu, hfree, ⟨new, hnew⟩, -⟩ := takes hinbox hfront
  refine ⟨u.step, hu.trans (.step (.refl _)), ?_⟩
  rw [RootThread.step, hfree, hnew]
  rfl

/-! ## Hand-offs as events -/

/-- Taking a message is some steps. -/
lemma comesTo_takeNext (t : RootThread ρ) : t.ComesTo t.takeNext := by
  unfold takeNext
  split
  · next hhold => exact .step (complete_comesTo hhold).1
  · exact .step (.refl _)

/-- Taking the messages that are there is some steps. -/
lemma comesTo_drive (t : RootThread ρ) : t.ComesTo t.drive := by
  have hrepeat (n : ℕ) (t : RootThread ρ) : t.ComesTo (n.repeat takeNext t) := by
    induction n with
    | zero => exact .refl t
    | succ n ih => exact ih.trans (comesTo_takeNext _)
  exact hrepeat t.inbox.length t

/-- Handing over a task and waiting for its result is to send it, after which the thread makes some
steps. -/
lemma await_events (t : RootThread ρ) (e : Errand ρ) :
    ∃ k, (t.await e).2 = t.afterAll (.submit e :: List.replicate k .step) := by
  have hawait : (t.await e).2 = (t.submit e).2 ∨ (t.await e).2 = (t.submit e).2.drive := by
    unfold await
    split
    · next h => exact .inl (by rw [h])
    · next h => exact .inr (by rw [h])
  rcases hawait with h | h
  · exact ⟨0, h⟩
  · obtain ⟨k, hk⟩ := comesTo_drive (t.submit e).2
    exact ⟨k, h.trans hk.symm⟩

/-- To shut a thread down and to wait until it has ended is to send it the message, after which it
makes some steps. -/
lemma shutDown_events (t : RootThread ρ) :
    ∃ k, t.shutDown = t.afterAll (.close :: List.replicate k .step) := by
  obtain ⟨k, hk⟩ := comesTo_drive t.close
  exact ⟨k, hk.symm⟩

/-! ## What holds at any time -/

/-- What holds of a thread with a root that it was given as `r₀`. -/
structure HandsOff (r₀ : Root) (t : RootThread ρ) : Prop where
  /-- One task at a time holds the root, which is otherwise as it is after all tasks that have been
  begun, one after the other, each followed by a pass. -/
  follows : Follows r₀ t.running t.hold t.begun t.root
  /-- Between a task and the next one items are processed until the root is idle, or the budget is
  spent. -/
  rests : ∀ xs x ys, t.begun = xs ++ x :: ys →
    (x.perform (Run.served r₀ xs)).2.Passes (Run.served r₀ (xs ++ [x]))
  /-- The tasks that were taken are the first messages sent, in their order; those that have not
  been taken are in the inbox, and when the thread has ended those sent before the message to shut
  down have been taken, and nothing else. -/
  order : InOrder t
  /-- No task is begun twice. -/
  once : (t.begun.map Run.ticket).Nodup
  /-- A task that was sent behind the message to shut down is not begun and has no result. -/
  late : ∀ front back n e, t.sent = front ++ .shutDown :: back → .task n e ∈ back →
    n ∉ t.begun.map Run.ticket ∧ ∀ a, t.result n ≠ .ok a
  /-- A thread that has ended is sent nothing. -/
  closed : t.running = false → ∀ e,
    t.post e = (.error .closed, t) ∧ t.submit e = (.error .closed, t)
  /-- What there is to be had of a task is what it leaves when it is run in its turn. -/
  result : ∀ n a, t.result n = .ok a → ∃ xs x ys, t.begun = xs ++ x :: ys ∧ x.ticket = n ∧
    a = (x.perform (Run.served r₀ xs)).1
  /-- While the root is held, what is handed over on the thread itself is refused and changes
  nothing; so a task that does that goes on with the refusal. -/
  reentrant : t.hold ≠ .free → ∀ e, t.handOffHere e = (.error .reentrant, t)
  nested : ∀ ticket other next, t.hold = .task ticket (.handOff other next) →
    t.step = { t with hold := .task ticket (next (.error .reentrant)) }
  /-- The thread comes to every task before the message to shut down, and to that. -/
  goesOn : ∀ front back, t.inbox = front ++ back → .shutDown ∉ front →
    ∃ u, t.ComesTo u ∧ Settled back t.running u
  ends : .shutDown ∈ t.inbox → ∃ u, t.ComesTo u ∧ u.running = false
  /-- Whoever hands over a task and waits for its result, or shuts the thread down and waits for its
  end, sends a message, and what happens meanwhile are steps of the thread. -/
  awaited : ∀ e, ∃ k, (t.await e).2 = t.afterAll (.submit e :: List.replicate k .step)
  shutDown : ∃ k, t.shutDown = t.afterAll (.close :: List.replicate k .step)

/-- What holds of a thread after every event. -/
structure Kept (r₀ : Root) (t : RootThread ρ) : Prop where
  follows : Follows r₀ t.running t.hold t.begun t.root
  order : InOrder t
  numbered : Numbered t
  reports : Reports r₀ t.begun t.results

/-- At first nothing has been sent. -/
lemma kept_start (r₀ : Root) : Kept r₀ (start r₀ : RootThread ρ) where
  follows := .free []
  order := ⟨fun _ => rfl, nofun⟩
  numbered := ⟨List.nodup_nil, nofun⟩
  reports := nofun

/-- An event keeps what holds of a thread. -/
lemma Kept.after (h : Kept r₀ t) (x : ThreadEvent ρ) : Kept r₀ (t.after x) :=
  have hdeed := deed_after t x
  ⟨h.follows.deed hdeed, h.order.deed hdeed, h.numbered.deed hdeed,
    h.reports.deed h.follows hdeed⟩

/-- What holds of a thread holds after any events. -/
lemma Kept.afterAll (h : Kept r₀ t) (es : List (ThreadEvent ρ)) : Kept r₀ (t.afterAll es) := by
  induction es generalizing t with
  | nil => exact h
  | cons x es ih => exact ih (h.after x)

/-- What is to be had of a task was left for it. -/
lemma mem_results {n : ℕ} {a : TaskResult ρ} (h : t.result n = .ok a) : (n, a) ∈ t.results := by
  unfold RootThread.result at h
  split at h
  · next e hfind =>
    cases h
    have hn : e.1 = n := by simpa using List.find?_some hfind
    rw [← hn]
    exact List.mem_of_find?_eq_some hfind
  · contradiction

/-- What is kept says how a thread hands off. -/
lemma Kept.handsOff (h : Kept r₀ t) : HandsOff r₀ t where
  follows := h.follows
  rests := by
    intro xs x ys _
    rw [Run.served_concat]
    exact Root.passes_runUntilIdle _
  order := h.order
  once := nodup_begun h.numbered h.order
  late := by
    intro front back n e hsent hlate
    have hbegun := not_begun h.numbered h.order hsent hlate
    refine ⟨hbegun, fun a ha => ?_⟩
    obtain ⟨xs, x, ys, heq, rfl, -⟩ := h.reports n a (mem_results ha)
    rw [heq] at hbegun
    exact hbegun (by simp)
  closed := by
    intro hended e
    refine ⟨post_of_not_running hended e, ?_⟩
    rw [submit, post_of_not_running hended]
  result := fun n a ha => h.reports n a (mem_results ha)
  reentrant := fun hheld e => handOffHere_of_held hheld e
  nested := by
    intro ticket other next hhold
    rw [step_of_task hhold, advance, handOffHere_of_held (by simp [hhold])]
  goesOn := fun front back => takes
  ends := RootThread.ends
  awaited := await_events t
  shutDown := shutDown_events t

/-- Hand-off runs each task once and in order.  Whatever others do between the steps of a thread, it
runs the tasks in the order in which they were sent, one at a time and each once, with a pass after
each of them, and exactly those that were sent before the message to shut down; and nothing but the
results depends on who stops waiting. -/
theorem hand_offs (r₀ : Root) (es : List (ThreadEvent ρ)) :
    HandsOff r₀ ((start r₀).afterAll es) ∧
      ((start r₀).afterAll (es.filter fun x => !x.isGiveUp)).work = ((start r₀).afterAll es).work :=
  ⟨((kept_start r₀).afterAll es).handsOff, work_filter (start r₀) es⟩

end RootThread

end Switchboard
