import Mathlib
import Switchboard.Proofs.Counterparts
import Switchboard.Proofs.ScriptUnits

/-!
# Callers do not influence each other

The main theorem `Office.callers_apart` is about one caller in two runs of an executor.  If the
caller asks for the same in both runs and its requests are answered the same, it is given the same,
whatever else happens in between: its scripts send the same calls, write the same log lines and are
answered with the same results, and leave the same variables, up to the numbers of calls.

An executor is looked at between turns (`Office`), with a list of what it has done so far
(`Service`).  A service is that of one caller.  The proof is by unwinding.  When both executors
serve the caller they do so alike (`Matched.serve`), by the lemmas for executors that are alike.
When one of them serves another caller, what it keeps for this one is left as it is
(`Office.Keeps.passes`); for this the executor is compared with itself, where the other callers own
all scopes but those of this caller and the globals (`Likeness.others`).
-/

namespace Switchboard

open ScriptHistory
open ScriptExecutor (callerKey)
open ScriptUnit (hall errand hallSetting isEndpointId_eval isEndpointId_door)

/-! ## Names -/

/-- Whether a renaming is the one by places: numbers that stand for each other come up at the same
places, and no others stand for each other. -/
structure Renaming.Names (R : Renaming) (ids ids' : List ℕ) : Prop where
  unique : Relator.BiUnique R
  same : List.Forall₂ R ids ids'
  known : ∀ {i j}, R i j → i ∈ ids

namespace Renaming.Names

variable {R S : Renaming} {ids ids' : List ℕ} {i j : ℕ}

/-- Numbers that stand for each other have the same place. -/
lemma idxOf_eq (h : R.Names ids ids') (hij : R i j) : ids.idxOf i = ids'.idxOf j :=
  idxOf_eq_of_forall₂ h.unique h.same hij

/-- A number that stands for another one has come up on the other side. -/
lemma known_right (h : R.Names ids ids') (hij : R i j) : j ∈ ids' := by
  have hplace := List.idxOf_lt_length_iff.mpr (h.known hij)
  rw [h.idxOf_eq hij, h.same.length_eq] at hplace
  exact List.idxOf_lt_length_iff.mp hplace

/-- One more number comes up on each side, at the same place if it has come up before. -/
lemma snoc (h : R.Names ids ids') (hplace : ids.idxOf? i = ids'.idxOf? j) :
    (R.withNumber i j).Names (ids ++ [i]) (ids' ++ [j]) := by
  have hidx : ids.idxOf i = ids'.idxOf j := by
    rw [List.idxOf_eq_getD_idxOf?, List.idxOf_eq_getD_idxOf?, hplace, h.same.length_eq]
  have hright {k : ℕ} (hik : R i k) : k = j := by
    rw [← List.idxOf_inj (h.known_right hik), ← hidx, h.idxOf_eq hik]
  have hleft {k : ℕ} (hkj : R k j) : k = i := by
    rw [← List.idxOf_inj (h.known hkj), hidx, h.idxOf_eq hkj]
  refine ⟨⟨?_, ?_⟩, ?_, ?_⟩
  · rintro a b c (hac | ⟨rfl, rfl⟩) (hbc | ⟨rfl, hc⟩)
    · exact h.unique.1 hac hbc
    · exact hleft (hc ▸ hac)
    · exact (hleft hbc).symm
    · rfl
  · rintro a b c (hab | ⟨rfl, rfl⟩) (hac | ⟨ha, rfl⟩)
    · exact h.unique.2 hab hac
    · exact hright (ha ▸ hab)
    · exact (hright hac).symm
    · rfl
  · exact List.rel_append (h.same.imp fun _ _ => .inl) (.cons (.inr ⟨rfl, rfl⟩) .nil)
  · rintro a b (hab | ⟨rfl, rfl⟩)
    · exact List.mem_append_left _ (h.known hab)
    · exact List.mem_append_right _ (List.mem_singleton_self _)

/-- More numbers come up with calls that are sent. -/
lemma grows {l l' m m' : Ledger} {cs cs' : List Call} (h : R.Names ids ids')
    (hbounds : ∀ {i j}, R i j → i < l.nextId ∧ j < l'.nextId)
    (hgrows : R.Grows S l l' m m' cs cs') :
    S.Names (ids ++ cs.map Call.matchId) (ids' ++ cs'.map Call.matchId) := by
  refine ⟨hgrows.biUnique h.unique hbounds, List.rel_append (h.same.imp hgrows.le) ?_, ?_⟩
  · rw [List.forall₂_map_left_iff, List.forall₂_map_right_iff]
    exact hgrows.calls.imp fun _ _ => Call.Alike.number
  · intro i j hij
    rcases hgrows.fresh hij with hold | ⟨-, -, -, c, hc, rfl⟩
    · exact List.mem_append_left _ (h.known hold)
    · exact List.mem_append_right _ (List.mem_map_of_mem hc)

end Renaming.Names

/-! ## An executor at work -/

/-- The call under another number. -/
def Call.renumber (f : ℕ → ℕ) (c : Call) : Call := { c with matchId := f c.matchId }

namespace ExecutorTask

/-- The call with which an executor is asked to do something. -/
def call? : ExecutorTask → Option Call
  | .eval c | .receive c | .clear c => some c
  | .clearAll => none

/-- The task with its call under another number. -/
def renumber (f : ℕ → ℕ) : ExecutorTask → ExecutorTask
  | .eval c => .eval (c.renumber f)
  | .receive c => .receive (c.renumber f)
  | .clear c => .clear (c.renumber f)
  | .clearAll => .clearAll

end ExecutorTask

/-- What an executor has been asked to do in one turn, and what has come of it. -/
structure Service where
  setting : Setting
  task : ExecutorTask
  /-- The caller, or for an answer the one whose script has sent the request. -/
  caller : Option String
  /-- The match ids that had come up with this caller before. -/
  known : List ℕ
  result : Except Fault ℕ
  /-- The calls that were sent, requests of scripts and answers to calls that brought them. -/
  calls : List Call
  log : List LogEntry
  /-- What has become of scripts. -/
  scripts : List ScriptEvent

namespace Service

/-- The match ids that come up in a service, in order. -/
def numbers (e : Service) : List ℕ :=
  e.task.call?.toList.map Call.matchId ++ e.calls.map Call.matchId

/-- What was asked for: where and when, the call with no regard to its number, and the place of this
number among those that had come up before. Services are not looked at by executors. -/
def asked (e : Service) : Setting × ExecutorTask × Option ℕ :=
  ({ e.setting with services := [] }, e.task.renumber fun _ => 0,
    e.task.call?.bind fun c => e.known.idxOf? c.matchId)

/-- What was given: the result, the calls with the places of their numbers among those that have
come up, and the log lines. -/
def given (e : Service) : Except Fault ℕ × List Call × List LogEntry :=
  (e.result, e.calls.map (Call.renumber (e.known ++ e.numbers).idxOf), e.log)

/-- Whether a service has to do with its caller only: only scripts of it were concerned, and only
calls of it were answered. -/
def IsOwn (e : Service) : Prop :=
  (∀ event ∈ e.scripts, e.caller = some (callerKey event.call)) ∧
    ∀ a ∈ e.calls, a.isResponse = true → e.caller = some a.target.path.text

end Service

/-- An executor between two turns: the ledger, what has become of scripts, and what the executor has
done so far. -/
structure Office where
  executor : ScriptExecutor := .new
  ledger : Ledger
  history : List ScriptEvent := []
  services : List Service := []

namespace Office

/-- What has been done for a caller, in order. -/
def servicesOf (u : Office) (key : String) : List Service :=
  u.services.filter fun e => e.caller = some key

/-- The match ids that have come up with a caller, in order. -/
def numbers (u : Office) (key : String) : List ℕ := (u.servicesOf key).flatMap Service.numbers

/-- What a caller has asked for, in order, the answers to its requests included. -/
def asked (u : Office) (key : String) : List (Setting × ExecutorTask × Option ℕ) :=
  (u.servicesOf key).map Service.asked

/-- What a caller has been given, in order. -/
def given (u : Office) (key : String) : List (Except Fault ℕ × List Call × List LogEntry) :=
  (u.servicesOf key).map Service.given

/-- The variables of a caller that is known. -/
def bindings (u : Office) (key : String) : Option (Keyed Value) :=
  (u.executor.contexts.find? key).map fun context =>
    (u.executor.scopes.scope context.scope.own).bindings

/-- The caller that something is asked for. An answer is for the caller whose script has sent the
request. -/
def callerOf (u : Office) : ExecutorTask → Option String
  | .eval c | .clear c => some (callerKey c)
  | .receive a => (u.history.find? fun e => e.fate.sent.any fun r => r.matchId = a.matchId).map
      fun e => callerKey e.call
  | .clearAll => none

/-- What comes of a task. -/
def outcome (u : Office) (s : Setting) (task : ExecutorTask) :
    Except Fault ℕ × ScriptExecutor × Turn :=
  Program.executeOn s u.executor task { ledger := u.ledger, scripts := u.history }

/-- What the executor does for a task. -/
def service (u : Office) (s : Setting) (task : ExecutorTask) : Service where
  setting := s
  task := task
  caller := u.callerOf task
  known := ((u.callerOf task).map u.numbers).getD []
  result := (u.outcome s task).1
  calls := (u.outcome s task).2.2.outbox.calls
  log := (u.outcome s task).2.2.outbox.log
  scripts := (u.outcome s task).2.2.scripts.drop u.history.length

/-- The executor after a turn in which it was asked to do something. -/
def after (u : Office) (s : Setting) (task : ExecutorTask) : Office where
  executor := (u.outcome s task).2.1
  ledger := (u.outcome s task).2.2.ledger
  history := (u.outcome s task).2.2.scripts
  services := u.services ++ [u.service s task]

/-- Whether nobody else has answered a request that has brought a script. -/
def Untouched (u : Office) (l : Ledger) : Prop :=
  ∀ c ∈ accepted u.history, c.expectsReply = true → c.matchId ∈ l.answered →
    c.matchId ∈ u.ledger.answered

/-- The runs of an executor in which every script that is started comes to rest. Between turns
others make calls and answer them. -/
inductive Run : Office → Prop
  | new {l : Ledger} (hl : l.Valid) : Run { ledger := l }
  | turn {u : Office} {s : Setting} {task : ExecutorTask} (hu : Run u)
      (hadmits : ScriptExecutor.Admits u.ledger u.history task)
      (hrests : ¬ScriptUnit.Stuck (u.after s task).history) : Run (u.after s task)
  | elsewhere {u : Office} {l : Ledger} {cs : List Call} (hu : Run u)
      (hexchange : Exchange u.ledger l cs) (huntouched : u.Untouched l) :
      Run { u with ledger := l }

variable {u u' : Office} {s s' : Setting} {task task' : ExecutorTask} {key other : String}

/-! ## Each service is that of one caller -/

/-- An answer to a request that a script has sent. -/
lemma sent_of_callerOf {a : Call} (h : u.callerOf (.receive a) = some key) :
    ∃ c r, Sent u.history c r ∧ r.matchId = a.matchId ∧ callerKey c = key := by
  obtain ⟨e, he, hkey⟩ := Option.map_eq_some_iff.mp h
  have hany := List.find?_some he
  obtain ⟨r, hr, hnumber⟩ := List.any_eq_true.mp hany
  have hmem := List.mem_of_find?_eq_some he
  obtain ⟨c, fate⟩ := e
  cases fate with
  | ran cs => exact ⟨c, r, ⟨cs, hmem, hr⟩, by simpa using hnumber, hkey⟩
  | _ => contradiction

/-- A script waits for answers to requests that it has sent. -/
lemma sent_of_awaiting {x : ScriptExecutor} {l : Ledger} {H : List ScriptEvent}
    (hkept : x.Kept l H) {context : CallerContext} {job : RunningJob} {id : ℕ}
    (hfind : x.contexts.find? key = some context) (hjob : context.running = some job)
    (hawaiting : job.stack.awaiting = some id) :
    ∃ r, Sent H job.call r ∧ r.matchId = id ∧ callerKey job.call = key := by
  obtain ⟨-, waited, hwaited, ⟨r, hr, hnumber⟩, -⟩ :=
    (hkept.resting key context hfind).suspended job hjob
  rw [hawaiting] at hwaited
  cases hwaited
  refine ⟨r, hr, hnumber, hkept.callerKey_eq job.call ?_⟩
  rw [ScriptExecutor.pendingOf_of_find? hfind]
  simp [CallerContext.calls, hjob]

/-- What is asked for a caller is for no other one. -/
lemma isFor_of_callerOf (hkept : u.executor.Kept u.ledger u.history)
    (h : u.callerOf task = some key) : u.executor.IsFor key task := by
  cases task with
  | eval c => exact Option.some.inj h
  | clear c => exact Option.some.inj h
  | clearAll => contradiction
  | receive a =>
    obtain ⟨c, r, hsent, hnumber, rfl⟩ := sent_of_callerOf h
    intro other context job hother hfind hjob hawaiting
    obtain ⟨r', hsent', hnumber', hkey⟩ := sent_of_awaiting hkept hfind hjob hawaiting
    have hsame : c = job.call :=
      hsent.unique hkept.books.numbers hsent' (hnumber.trans hnumber'.symm)
    exact hother (hkey.symm.trans (congrArg callerKey hsame.symm))

/-- An answer to what no script has sent changes nothing. -/
lemma outcome_stray (hkept : u.executor.Kept u.ledger u.history)
    (hadmits : ScriptExecutor.Admits u.ledger u.history task) (s : Setting)
    (h : u.callerOf task = none) :
    u.outcome s task = (.ok 0, u.executor, { ledger := u.ledger, scripts := u.history }) := by
  cases task with
  | eval c => contradiction
  | clear c => contradiction
  | clearAll => exact hadmits.elim
  | receive a =>
    have hstray := hkept.receive_stray (c := a) s { ledger := u.ledger, scripts := u.history } ?_
    · unfold outcome
      simp only [Program.executeOn, hstray]
    · intro key context job hfind hjob hawaiting
      obtain ⟨r, ⟨cs, hcs, hr⟩, hnumber, -⟩ := sent_of_awaiting hkept hfind hjob hawaiting
      have hnone := List.find?_eq_none.mp (Option.map_eq_none_iff.mp h) _ hcs
      refine hnone (List.any_eq_true.mpr ⟨r, hr, ?_⟩)
      simpa using hnumber

/-- What holds of an executor between two turns. -/
structure Keeps (u : Office) : Prop where
  kept : u.executor.Kept u.ledger u.history
  globals : u.executor.globals = ⟨0, []⟩
  own : ∀ e ∈ u.services, e.IsOwn

/-- What the executor does for a caller concerns no other one. -/
lemma Keeps.concerns (h : u.Keeps) (hadmits : ScriptExecutor.Admits u.ledger u.history task)
    (s : Setting) (hcaller : u.callerOf task = some key) :
    Turn.Concerns key { ledger := u.ledger, scripts := u.history } (u.outcome s task).2.2 ∧
      u.executor.Spares key (u.outcome s task).2.1 :=
  ScriptExecutor.execute_concerns s h.kept hadmits (isFor_of_callerOf h.kept hcaller)

/-- What holds goes on to hold when the executor is asked to do something. -/
lemma Keeps.after (h : u.Keeps) (hadmits : ScriptExecutor.Admits u.ledger u.history task)
    (hrests : ¬ScriptUnit.Stuck (u.after s task).history) : (u.after s task).Keeps := by
  have hkept : (u.after s task).executor.Kept (u.after s task).ledger (u.after s task).history :=
    ScriptExecutor.Kept.execute (t := { ledger := u.ledger, scripts := u.history }) h.kept hadmits
      fun d hd => hrests ⟨_, hd, rfl⟩
  suffices hnew : (u.after s task).executor.globals = ⟨0, []⟩ ∧ (u.service s task).IsOwn by
    refine ⟨hkept, hnew.1, fun e he => ?_⟩
    rcases List.mem_append.mp he with he | he
    · exact h.own e he
    · rw [List.mem_singleton.mp he]
      exact hnew.2
  match hcaller : u.callerOf task with
  | none =>
    have hout := outcome_stray h.kept hadmits s hcaller
    unfold Office.after service Service.IsOwn
    rw [hout]
    simp [h.globals]
  | some key =>
    obtain ⟨hconcerns, hspares⟩ := h.concerns hadmits s hcaller
    obtain ⟨K, hK, hscripts⟩ := hconcerns.scripts
    obtain ⟨cs, hcs, hanswers⟩ := hconcerns.answers
    refine ⟨hspares.globals.trans h.globals, ?_, ?_⟩
    · intro event hevent
      change u.callerOf task = _
      have hnew : (u.service s task).scripts = K := by
        unfold service
        rw [hK, List.drop_left]
      rw [hnew] at hevent
      rw [hcaller, hscripts event hevent]
    · intro a ha hresponse
      change u.callerOf task = _
      have hnew : (u.service s task).calls = cs := hcs
      rw [hnew] at ha
      rw [hcaller, hanswers a ha hresponse]

/-- It holds in every run. -/
lemma Run.keeps (h : Run u) : u.Keeps := by
  induction h with
  | new hl =>
    refine ⟨⟨trivial, ?_, fun key context hfind => by contradiction⟩, rfl, by simp⟩
    exact Books.empty hl
  | turn hu hadmits hrests ih => exact ih.after hadmits hrests
  | elsewhere hu hexchange huntouched ih =>
    exact ⟨⟨ih.kept.sorted, ih.kept.books.elsewhere hexchange huntouched, ih.kept.resting⟩,
      ih.globals, ih.own⟩

end Office

/-! ## Turns of other callers -/

/-- The likeness of a store to itself where all scopes are owned but the globals and those of one
caller. -/
def Likeness.others (owned : ℕ → Prop) (n : ℕ) : Likeness where
  own i j := i = j ∧ 0 < i ∧ i < n ∧ ¬owned i
  shared i j := i = 0 ∧ j = 0

/-- A store fits itself. -/
lemma Likeness.others_fits (owned : ℕ → Prop) {s : Scopes} (h : 0 < s.scopes.length) :
    (others owned s.scopes.length).Fits s s where
  same := by
    rintro i j (⟨rfl, -⟩ | ⟨rfl, rfl⟩) <;> rfl
  bounds := by
    rintro i j (⟨rfl, -, hi, -⟩ | ⟨rfl, rfl⟩)
    · exact ⟨hi, hi⟩
    · exact ⟨h, h⟩
  apart := by
    rintro i j k l ⟨rfl, -⟩ (⟨rfl, -⟩ | ⟨rfl, rfl⟩) <;> exact Iff.rfl

/-- The other callers may own more when there are more scopes that are not those of one caller. -/
lemma Likeness.others_le {owned owned' : ℕ → Prop} {n m : ℕ} (hlater : n ≤ m)
    (howned : ∀ i < n, owned' i → owned i) : others owned n ≤ others owned' m :=
  ⟨fun i _ ⟨hij, hpos, hi, hfree⟩ =>
    ⟨hij, hpos, hi.trans_le hlater, fun howns => hfree (howned i hi howns)⟩, le_refl _⟩

namespace ScriptExecutor

/-- Whether the scripts of all other callers keep away from the scopes of one caller. -/
structure Isolates (key : String) (owned : ℕ → Prop) (x : ScriptExecutor) : Prop where
  globals : 0 < x.scopes.scopes.length
  bounds : ∀ i, owned i → i < x.scopes.scopes.length
  others : ∀ other context, other ≠ key → x.contexts.find? other = some context →
    context.Alike (.others owned x.scopes.scopes.length) Eq context

/-- How an executor has been changed that has left alone what it keeps for a caller. -/
structure Shields (key : String) (owned : ℕ → Prop) (x y : ScriptExecutor) : Prop where
  context : y.contexts.find? key = x.contexts.find? key
  scopes : ∀ i, owned i ∨ i = 0 → y.scopes.scope i = x.scopes.scope i
  globals : y.globals = x.globals
  later : x.scopes.scopes.length ≤ y.scopes.scopes.length

variable {x y : ScriptExecutor} {key other : String} {owned owned' : ℕ → Prop} {t : Turn}
  {task : ExecutorTask}

/-- Scripts of others keep away from scopes that a caller gets. -/
lemma Isolates.grow (h : x.Isolates key owned) (hspares : x.Spares key y)
    (hlater : x.scopes.scopes.length ≤ y.scopes.scopes.length)
    (hbounds : ∀ i, owned' i → i < y.scopes.scopes.length)
    (howned : ∀ i, owned' i → owned i ∨ x.scopes.scopes.length ≤ i) :
    y.Isolates key owned' := by
  refine ⟨h.globals.trans_le hlater, hbounds, fun other context hother hfind => ?_⟩
  rw [hspares.others other hother] at hfind
  refine (h.others other context hother hfind).mono (Likeness.others_le hlater ?_) (le_refl _)
  intro i hi howns
  exact (howned i howns).resolve_right (by omega)

/-- What an executor does for another caller leaves alone what it keeps for a caller. The executor
is compared with itself, and what it does not own is not changed. -/
lemma Isolates.execute (h : x.Isolates key owned) (hglobals : x.globals = ⟨0, []⟩)
    (hkept : x.Kept t.ledger t.scripts) (hadmits : Admits t.ledger t.scripts task)
    (hfor : x.IsFor other task) (hother : other ≠ key) (s : Setting) :
    (Program.executeOn s x task t).2.1.Isolates key owned ∧
      x.Shields key owned (Program.executeOn s x task t).2.1 ∧
      t.ledger.nextId ≤ (Program.executeOn s x task t).2.2.ledger.nextId := by
  have hself : x.Alike other (.others owned x.scopes.scopes.length) Eq x := by
    refine ⟨Likeness.others_fits owned h.globals, ?_, ?_⟩
    · rw [hglobals]
      exact .cons (.inr ⟨rfl, rfl⟩) .nil
    · cases hfind : x.contexts.find? other with
      | none => exact .none
      | some context => exact .some (h.others other context hother hfind)
  have htask : TaskAlike Eq task task := by
    cases task with
    | eval c => exact .eval ⟨rfl⟩
    | receive a => exact .receive ⟨rfl⟩
    | clear c => exact .clear ⟨rfl⟩
    | clearAll => exact hfor.elim
  obtain ⟨-, hspares⟩ := execute_concerns s hkept hadmits hfor
  obtain ⟨-, M, S, hgrows, hturn, halike⟩ := execute_alike (s := s) t t ⟨rfl, rfl, rfl⟩
    ⟨fun _ _ _ h h' => h.trans h'.symm, fun _ _ _ h h' => h.symm.trans h'⟩ hself hkept hkept htask
    hadmits hadmits hfor hfor
  generalize Program.executeOn s x task t = out at hspares hgrows hturn halike ⊢
  obtain ⟨cs, cs', -, -, hnumbers⟩ := hturn.calls
  -- Nothing but itself stands for a number or for a scope.
  have hS : S ≤ Eq := by
    intro i j hij
    rcases hnumbers.fresh hij with heq | ⟨-, -, heq, -⟩
    · exact heq
    · omega
  have hM : M ≤ .others owned out.2.1.scopes.scopes.length := by
    refine ⟨fun i j hij => ?_, hgrows.shared⟩
    obtain ⟨hi, -⟩ := hgrows.fits.bounds (.inl hij)
    rcases hgrows.fresh hij with ⟨heq, hpos, -, hfree⟩ | ⟨hnew, heq⟩
    · exact ⟨heq, hpos, hi, hfree⟩
    · have hpos := h.globals
      refine ⟨by omega, by omega, hi, fun howns => ?_⟩
      have hbound := h.bounds i howns
      omega
  refine ⟨⟨h.globals.trans_le hgrows.later, fun i hi => (h.bounds i hi).trans_le hgrows.later, ?_⟩,
    ⟨hspares.others key hother.symm, ?_, hspares.globals, hgrows.later⟩, hnumbers.later⟩
  · intro third context hthird hfind
    by_cases hsame : third = other
    · subst hsame
      have hcontext := halike.context
      rw [hfind, Option.rel_some_some] at hcontext
      exact hcontext.mono hM hS
    · rw [hspares.others third hsame] at hfind
      exact (h.others third context hthird hfind).mono
        (Likeness.others_le hgrows.later fun _ _ howns => howns) (le_refl _)
  · rintro i (howns | rfl)
    · exact hgrows.kept (h.bounds i howns) fun j hij => hij.2.2.2 howns
    · exact hgrows.kept h.globals fun j hij => hij.2.1.false

end ScriptExecutor

namespace Office

variable {u u' v v' : Office} {s s' : Setting} {task task' : ExecutorTask} {key other : String}
  {owned : ℕ → Prop} {L : Likeness} {R : Renaming}

/-- How an executor has gone on that has not served a caller meanwhile. -/
structure Passes (key : String) (owned : ℕ → Prop) (u v : Office) : Prop where
  services : v.servicesOf key = u.servicesOf key
  shields : u.executor.Shields key owned v.executor
  isolates : v.executor.Isolates key owned
  later : u.ledger.nextId ≤ v.ledger.nextId

/-- The executor has not gone on. -/
lemma Passes.refl (h : u.executor.Isolates key owned) : Passes key owned u u :=
  ⟨rfl, ⟨rfl, fun _ _ => rfl, rfl, le_refl _⟩, h, le_refl _⟩

/-- What has been done for a caller after it has been served once more. -/
lemma servicesOf_after (h : u.callerOf task = some key) (s : Setting) :
    (u.after s task).servicesOf key = u.servicesOf key ++ [u.service s task] := by
  have hcaller : (u.service s task).caller = some key := h
  simp [servicesOf, after, hcaller]

/-- What has been done for a caller after another one has been served. -/
lemma servicesOf_after_of_ne (h : u.callerOf task ≠ some key) (s : Setting) :
    (u.after s task).servicesOf key = u.servicesOf key := by
  have hcaller : (u.service s task).caller ≠ some key := h
  simp [servicesOf, after, hcaller]

/-- When another caller is served, what is kept for this one is left alone. -/
lemma Keeps.passes (h : u.Keeps) (hisolates : u.executor.Isolates key owned)
    (hadmits : ScriptExecutor.Admits u.ledger u.history task) (hcaller : u.callerOf task ≠ some key)
    (s : Setting) : Passes key owned u (u.after s task) := by
  have hservices := servicesOf_after_of_ne hcaller s
  match hother : u.callerOf task with
  | none =>
    have hout := outcome_stray h.kept hadmits s hother
    have hexecutor : (u.after s task).executor = u.executor := congrArg (fun out => out.2.1) hout
    have hledger : (u.after s task).ledger = u.ledger := congrArg (fun out => out.2.2.ledger) hout
    refine ⟨hservices, ?_, ?_, ?_⟩
    · rw [hexecutor]
      exact ⟨rfl, fun _ _ => rfl, rfl, le_refl _⟩
    · rw [hexecutor]
      exact hisolates
    · rw [hledger]
  | some other =>
    have hne : other ≠ key := by
      rintro rfl
      exact hcaller hother
    obtain ⟨hisolates', hshields, hlater⟩ :=
      hisolates.execute (t := { ledger := u.ledger, scripts := u.history }) h.globals h.kept hadmits
        (isFor_of_callerOf h.kept hother) hne s
    exact ⟨hservices, hshields, hisolates', hlater⟩

/-- What happens elsewhere leaves alone what is kept for a caller. -/
lemma passes_elsewhere {l : Ledger} {cs : List Call} (h : u.executor.Isolates key owned)
    (hexchange : Exchange u.ledger l cs) : Passes key owned u { u with ledger := l } :=
  ⟨rfl, ⟨rfl, fun _ _ => rfl, rfl, le_refl _⟩, h, hexchange.1.nextId_le⟩

/-! ## Turns of one caller -/

/-- How two executors are related that have been asked for the same by a caller: what they keep for
it is alike, and it has been given the same. The other callers keep away from its scopes. -/
structure Matched (key : String) (L : Likeness) (R : Renaming) (u u' : Office) : Prop where
  alike : u.executor.Alike key L R u'.executor
  shared : ∀ {i j}, L.shared i j ↔ i = 0 ∧ j = 0
  names : R.Names (u.numbers key) (u'.numbers key)
  bounds : ∀ {i j}, R i j → i < u.ledger.nextId ∧ j < u'.ledger.nextId
  given : u.given key = u'.given key
  isolates : u.executor.Isolates key fun i => ∃ j, L.own i j
  isolates' : u'.executor.Isolates key fun j => ∃ i, L.own i j

/-- Executors stay related while they do not serve the caller. -/
lemma Matched.passes (h : Matched key L R u u') (hleft : Passes key (fun i => ∃ j, L.own i j) u v)
    (hright : Passes key (fun j => ∃ i, L.own i j) u' v') : Matched key L R v v' := by
  have hnumbers : v.numbers key = u.numbers key ∧ v'.numbers key = u'.numbers key := by
    unfold Office.numbers
    rw [hleft.services, hright.services]
    exact ⟨rfl, rfl⟩
  have hgiven : v.given key = u.given key ∧ v'.given key = u'.given key := by
    unfold Office.given
    rw [hleft.services, hright.services]
    exact ⟨rfl, rfl⟩
  refine ⟨⟨⟨?_, ?_, h.alike.fits.apart⟩, ?_, ?_⟩, h.shared, ?_, ?_, ?_, hleft.isolates,
    hright.isolates⟩
  · intro i j hij
    have hscopes : v.executor.scopes.scope i = u.executor.scopes.scope i ∧
        v'.executor.scopes.scope j = u'.executor.scopes.scope j := by
      rcases hij with hown | hshared
      · exact ⟨hleft.shields.scopes i (.inl ⟨j, hown⟩), hright.shields.scopes j (.inl ⟨i, hown⟩)⟩
      · obtain ⟨rfl, rfl⟩ := h.shared.mp hshared
        exact ⟨hleft.shields.scopes 0 (.inr rfl), hright.shields.scopes 0 (.inr rfl)⟩
    rw [hscopes.1, hscopes.2, h.alike.fits.same hij]
  · intro i j hij
    obtain ⟨hi, hj⟩ := h.alike.fits.bounds hij
    exact ⟨hi.trans_le hleft.shields.later, hj.trans_le hright.shields.later⟩
  · rw [hleft.shields.globals, hright.shields.globals]
    exact h.alike.globals
  · rw [hleft.shields.context, hright.shields.context]
    exact h.alike.context
  · rw [hnumbers.1, hnumbers.2]
    exact h.names
  · intro i j hij
    obtain ⟨hi, hj⟩ := h.bounds hij
    exact ⟨hi.trans_le hleft.later, hj.trans_le hright.later⟩
  · rw [hgiven.1, hgiven.2, h.given]

/-- Calls that do not differ but in their numbers, which stand for each other. -/
lemma alike_of_renumber {c c' : Call} (h : c.renumber (fun _ => 0) = c'.renumber fun _ => 0)
    (hnumber : R c.matchId c'.matchId) : c.Alike R c' := by
  have hsame : c' = { c with matchId := c'.matchId } := by
    obtain ⟨number, source, target, time, kind, args⟩ := c
    obtain ⟨number', source', target', time', kind', args'⟩ := c'
    simp only [Call.renumber, Call.mk.injEq, true_and] at h ⊢
    obtain ⟨rfl, rfl, rfl, rfl, rfl⟩ := h
    exact ⟨rfl, rfl, rfl, rfl, rfl⟩
  rw [hsame]
  exact ⟨hnumber⟩

/-- Tasks that do not differ but in the numbers of their calls, which stand for each other. -/
lemma taskAlike_of_renumber (h : task.renumber (fun _ => 0) = task'.renumber fun _ => 0)
    {c c' : Call} (hc : task.call? = some c) (hc' : task'.call? = some c')
    (hnumber : R c.matchId c'.matchId) : ScriptExecutor.TaskAlike R task task' := by
  cases task <;> cases task' <;> cases hc <;> cases hc' <;> try contradiction
  · exact .eval (alike_of_renumber (ExecutorTask.eval.inj h) hnumber)
  · exact .receive (alike_of_renumber (ExecutorTask.receive.inj h) hnumber)
  · exact .clear (alike_of_renumber (ExecutorTask.clear.inj h) hnumber)

/-- The call of a task has a number that was given out. -/
lemma Keeps.number_lt (h : u.Keeps) (hadmits : ScriptExecutor.Admits u.ledger u.history task)
    (hcaller : u.callerOf task = some key) :
    ∃ c, task.call? = some c ∧ c.matchId < u.ledger.nextId := by
  have hbooks := h.kept.books
  cases task with
  | eval c => exact ⟨c, rfl, hbooks.valid.fresh c hadmits.1⟩
  | clear c => exact ⟨c, rfl, hbooks.valid.fresh c hadmits⟩
  | clearAll => exact hadmits.elim
  | receive a =>
    obtain ⟨c, r, hsent, hnumber, -⟩ := sent_of_callerOf hcaller
    exact ⟨a, rfl, hnumber ▸ hbooks.fresh r hsent.mem_sent⟩

/-- Calls that are alike are the same under the places of their numbers. -/
lemma map_renumber_eq {ids ids' : List ℕ} (h : R.Names ids ids') {cs cs' : List Call}
    (hcs : List.Forall₂ (Call.Alike R) cs cs') :
    cs.map (Call.renumber ids.idxOf) = cs'.map (Call.renumber ids'.idxOf) := by
  induction hcs with
  | nil => rfl
  | cons hc _ ih =>
    obtain ⟨hnumber⟩ := hc
    rw [List.map_cons, List.map_cons, ih]
    simp only [Call.renumber, h.idxOf_eq hnumber]

/-- What has been known of a caller that is served. -/
lemma known_service (h : u.callerOf task = some key) (s : Setting) :
    (u.service s task).known = u.numbers key := by
  unfold service
  rw [h]
  rfl

/-- What is asked for by a caller that is served. -/
lemma asked_service (h : u.callerOf task = some key) (s : Setting) :
    (u.service s task).asked = ({ s with services := [] }, task.renumber fun _ => 0,
      task.call?.bind fun c => (u.numbers key).idxOf? c.matchId) := by
  unfold Service.asked
  rw [known_service h]
  rfl

/-- The numbers that have come up with a caller after it has been served once more. -/
lemma numbers_after (h : u.callerOf task = some key) (s : Setting) {c : Call}
    (hc : task.call? = some c) :
    (u.after s task).numbers key =
      (u.numbers key ++ [c.matchId]) ++ (u.service s task).calls.map Call.matchId := by
  have hnumbers : (u.service s task).numbers =
      [c.matchId] ++ (u.service s task).calls.map Call.matchId := by
    unfold Service.numbers
    change task.call?.toList.map Call.matchId ++ _ = _
    rw [hc]
    rfl
  unfold numbers
  rw [servicesOf_after h, List.flatMap_append, List.flatMap_singleton, hnumbers, List.append_assoc]

/-- What has been given to a caller after it has been served once more. -/
lemma given_after (h : u.callerOf task = some key) (s : Setting) :
    (u.after s task).given key = u.given key ++ [((u.service s task).result,
      (u.service s task).calls.map (Call.renumber ((u.after s task).numbers key).idxOf),
      (u.service s task).log)] := by
  have hnumbers : (u.service s task).known ++ (u.service s task).numbers =
      (u.after s task).numbers key := by
    unfold numbers
    rw [servicesOf_after h, List.flatMap_append, List.flatMap_singleton, known_service h]
    rfl
  unfold given
  rw [servicesOf_after h, List.map_append, List.map_singleton]
  unfold Service.given
  rw [hnumbers]

/-- When both executors are asked for the same by the caller they stay related. -/
lemma Matched.serve (h : Matched key L R u u') (hu : u.Keeps) (hu' : u'.Keeps)
    (hadmits : ScriptExecutor.Admits u.ledger u.history task)
    (hadmits' : ScriptExecutor.Admits u'.ledger u'.history task')
    (hcaller : u.callerOf task = some key) (hcaller' : u'.callerOf task' = some key)
    (hasked : (u.service s task).asked = (u'.service s' task').asked) :
    ∃ M S, Matched key M S (u.after s task) (u'.after s' task') := by
  obtain ⟨c, hc, hbound⟩ := hu.number_lt hadmits hcaller
  obtain ⟨c', hc', hbound'⟩ := hu'.number_lt hadmits' hcaller'
  rw [asked_service hcaller, asked_service hcaller', hc, hc'] at hasked
  obtain ⟨hsetting, hrest⟩ := Prod.mk.inj hasked
  obtain ⟨htask, hplace⟩ := Prod.mk.inj hrest
  have hs : s.Alike s' :=
    ⟨(congrArg Setting.address hsetting).symm, (congrArg Setting.time hsetting).symm,
      (congrArg Setting.threshold hsetting).symm⟩
  -- The number of the call is known on both sides or comes up now.
  set R' := R.withNumber c.matchId c'.matchId with hR'
  have hnames := h.names.snoc hplace
  have hbounds : ∀ {i j}, R' i j → i < u.ledger.nextId ∧ j < u'.ledger.nextId := by
    rintro i j (hij | ⟨rfl, rfl⟩)
    · exact h.bounds hij
    · exact ⟨hbound, hbound'⟩
  have halike : u.executor.Alike key L R' u'.executor := by
    refine ⟨h.alike.fits, h.alike.globals, ?_⟩
    exact optionRel_imp h.alike.context fun _ _ hcontext =>
      hcontext.mono (le_refl L) fun _ _ => .inl
  obtain ⟨-, hspares⟩ := hu.concerns hadmits s hcaller
  obtain ⟨-, hspares'⟩ := hu'.concerns hadmits' s' hcaller'
  obtain ⟨hresult, M, S, hgrows, hturn, hserved⟩ := ScriptExecutor.execute_alike
    { ledger := u.ledger, scripts := u.history } { ledger := u'.ledger, scripts := u'.history }
    hs hnames.unique halike hu.kept hu'.kept
    (taskAlike_of_renumber htask hc hc' (.inr ⟨rfl, rfl⟩)) hadmits hadmits'
    (isFor_of_callerOf hu.kept hcaller) (isFor_of_callerOf hu'.kept hcaller')
  obtain ⟨cs, cs', hcs, hcs', hnumbers⟩ := hturn.calls
  obtain ⟨lines, hlines, hlines'⟩ := hturn.log
  have hcalls : (u.service s task).calls = cs := hcs
  have hcalls' : (u'.service s' task').calls = cs' := hcs'
  have hlog : (u.service s task).log = (u'.service s' task').log := hlines.trans hlines'.symm
  have hnames' : S.Names ((u.after s task).numbers key) ((u'.after s' task').numbers key) := by
    rw [numbers_after hcaller s hc, numbers_after hcaller' s' hc', hcalls, hcalls']
    exact hnames.grows hbounds hnumbers
  have hlater' : u'.executor.scopes.scopes.length ≤
      (u'.after s' task').executor.scopes.scopes.length := by
    have hlater := hgrows.later
    have hoffset := hgrows.offset
    change _ ≤ (u'.outcome s' task').2.1.scopes.scopes.length
    unfold outcome
    omega
  refine ⟨M, S, hserved, ?_, hnames', hnumbers.bounds hbounds, ?_, ?_, ?_⟩
  · intro i j
    exact ⟨fun hij => h.shared.mp (hgrows.shared i j hij),
      fun hij => hgrows.le.2 i j (h.shared.mpr hij)⟩
  · rw [given_after hcaller, given_after hcaller', h.given, hcalls, hcalls', hlog,
      map_renumber_eq hnames' hnumbers.calls]
    have hsame : (u.service s task).result = (u'.service s' task').result := hresult.symm
    rw [hsame]
  · refine h.isolates.grow hspares hgrows.later (fun i ⟨j, hij⟩ => ?_) fun i ⟨j, hij⟩ => ?_
    · exact (hgrows.fits.bounds (.inl hij)).1
    · exact (hgrows.fresh hij).imp (fun hold => ⟨j, hold⟩) And.left
  · refine h.isolates'.grow hspares' hlater' (fun j ⟨i, hij⟩ => ?_) fun j ⟨i, hij⟩ => ?_
    · exact (hgrows.fits.bounds (.inl hij)).2
    · refine (hgrows.fresh hij).imp (fun hold => ⟨i, hold⟩) fun ⟨hnew, hoffset⟩ => ?_
      omega

/-! ## Runs -/

/-- What a caller has asked for after it has been served once more. -/
lemma asked_after (h : u.callerOf task = some key) (s : Setting) :
    (u.after s task).asked key = u.asked key ++ [(u.service s task).asked] := by
  unfold asked
  rw [servicesOf_after h, List.map_append, List.map_singleton]

/-- What a caller has asked for after another one has been served. -/
lemma asked_after_of_ne (h : u.callerOf task ≠ some key) (s : Setting) :
    (u.after s task).asked key = u.asked key := by
  unfold asked
  rw [servicesOf_after_of_ne h]

/-- New executors keep nothing for a caller. -/
lemma matched_new (key : String) (l l' : Ledger) :
    Matched key ⟨fun _ _ => False, fun i j => i = 0 ∧ j = 0⟩ (fun _ _ => False)
      { ledger := l } { ledger := l' } where
  alike := by
    refine ⟨⟨?_, ?_, nofun⟩, .cons (.inr ⟨rfl, rfl⟩) .nil, .none⟩
    · rintro i j (⟨⟨⟩⟩ | ⟨rfl, rfl⟩)
      rfl
    · rintro i j (⟨⟨⟩⟩ | ⟨rfl, rfl⟩)
      exact ⟨Nat.zero_lt_one, Nat.zero_lt_one⟩
  shared := Iff.rfl
  names := ⟨⟨nofun, nofun⟩, .nil, nofun⟩
  bounds := nofun
  given := rfl
  isolates := ⟨Nat.zero_lt_one, nofun, fun _ _ _ hfind => by contradiction⟩
  isolates' := ⟨Nat.zero_lt_one, nofun, fun _ _ _ hfind => by contradiction⟩

/-- An executor that is related to another one remains so whatever this one does for other callers.
It is enough to look at the turns in which the caller is served. -/
lemma Run.matched_of_served (h' : Run u')
    (hnew : u.asked key = [] → ∀ l : Ledger, ∃ L R, Matched key L R u { ledger := l })
    (hserved : ∀ {v' : Office} {s' : Setting} {task' : ExecutorTask}, Run v' →
      ScriptExecutor.Admits v'.ledger v'.history task' → v'.callerOf task' = some key →
      u.asked key = v'.asked key ++ [(v'.service s' task').asked] →
      ∃ L R, Matched key L R u (v'.after s' task'))
    (hasked : u.asked key = u'.asked key) : ∃ L R, Matched key L R u u' := by
  induction h' with
  | new hl => exact hnew hasked _
  | @turn v' s' task' hv' hadmits hrests ih =>
    by_cases hcaller : v'.callerOf task' = some key
    · exact hserved hv' hadmits hcaller (hasked.trans (asked_after hcaller s'))
    · obtain ⟨L, R, hmatched⟩ := ih (hasked.trans (asked_after_of_ne hcaller s'))
      exact ⟨L, R, hmatched.passes (.refl hmatched.isolates)
        (hv'.keeps.passes hmatched.isolates' hadmits hcaller s')⟩
  | elsewhere hv' hexchange huntouched ih =>
    obtain ⟨L, R, hmatched⟩ := ih hasked
    exact ⟨L, R, hmatched.passes (.refl hmatched.isolates)
      (passes_elsewhere hmatched.isolates' hexchange)⟩

/-- Executors that have been asked for the same by a caller are related. -/
lemma Run.matched (h : Run u) (h' : Run u') (hasked : u.asked key = u'.asked key) :
    ∃ L R, Matched key L R u u' := by
  induction h generalizing u' with
  | new hl =>
    refine h'.matched_of_served (fun _ l => ⟨_, _, matched_new key _ l⟩) ?_ hasked
    intro v' s' task' _ _ _ hsnoc
    simp [asked, servicesOf] at hsnoc
  | @turn u s task hu hadmits hrests ih =>
    by_cases hcaller : u.callerOf task = some key
    · rw [asked_after hcaller] at hasked
      refine h'.matched_of_served ?_ ?_ ((asked_after hcaller s).trans hasked)
      · intro hnil
        rw [asked_after hcaller] at hnil
        simp at hnil
      · intro v' s' task' hv' hadmits' hcaller' hsnoc
        rw [asked_after hcaller] at hsnoc
        obtain ⟨hbefore, hlast⟩ := List.append_inj' hsnoc rfl
        obtain ⟨L, R, hmatched⟩ := ih hv' hbefore
        exact hmatched.serve hu.keeps hv'.keeps hadmits hadmits' hcaller hcaller'
          (List.singleton_inj.mp hlast)
    · rw [asked_after_of_ne hcaller] at hasked
      obtain ⟨L, R, hmatched⟩ := ih h' hasked
      exact ⟨L, R, hmatched.passes (hu.keeps.passes hmatched.isolates hadmits hcaller s)
        (.refl hmatched.isolates')⟩
  | elsewhere hu hexchange huntouched ih =>
    obtain ⟨L, R, hmatched⟩ := ih h' hasked
    exact ⟨L, R, hmatched.passes (passes_elsewhere hmatched.isolates hexchange)
      (.refl hmatched.isolates')⟩

/-- Executors that are related keep the same variables for the caller. -/
lemma Matched.bindings_eq (h : Matched key L R u u') : u.bindings key = u'.bindings key := by
  unfold bindings
  obtain ⟨hfind, hfind'⟩ | ⟨context, context', hfind, hfind', hcontext⟩ :=
    optionRel_cases h.alike.context
  · rw [hfind, hfind']
    rfl
  · rw [hfind, hfind', Option.map_some, Option.map_some,
      h.alike.fits.same (.inl hcontext.scope.own)]

/-- A caller that asks for the same in two runs of an executor is given the same and is left with
the same variables, whatever other callers ask for in between, and each service has to do with its
caller only. -/
theorem callers_apart (h : Run u) (h' : Run u') (hasked : u.asked key = u'.asked key) :
    u.given key = u'.given key ∧ u.bindings key = u'.bindings key ∧
      (∀ e ∈ u.services, e.IsOwn) ∧ ∀ e ∈ u'.services, e.IsOwn := by
  obtain ⟨L, R, hmatched⟩ := h.matched h' hasked
  exact ⟨hmatched.given, hmatched.bindings_eq, h.keeps.own, h'.keeps.own⟩

/-- Another caller of the hall. -/
def yard : Path := ⟨⟨"yard", by decide⟩, []⟩

/-- A script that asks for the time. -/
def askTime : String := "set now [/hall.time]\nlog info $now"

/-- An answer to one who asks for the time. -/
def report (number : ℕ) (time : String) : Call where
  matchId := number
  source := some ⟨hall, ⟨"time", by decide⟩⟩
  target := ⟨hall, ⟨"eval", isEndpointId_eval⟩⟩
  time := 0
  kind := .reply
  args := [.text time]

/-- A request of the yard that brings a script. -/
def yardErrand (number : ℕ) (script : String) : Call :=
  { errand number script with source := some ⟨yard, ⟨"door", isEndpointId_door⟩⟩ }

/-- A new executor, after calls have been sent to it. -/
def opening (cs : List Call) : Office := { ledger := ⟨cs.length + 1, [], cs, []⟩ }

/-- The hall is the only caller, and its script waits for the time. -/
def quietMorning : Office :=
  (opening [errand 1 askTime]).after hallSetting (.eval (errand 1 askTime))

/-- The script of the hall goes on. -/
def quietDay : Office := quietMorning.after hallSetting (.receive (report 2 "noon"))

/-- The yard calls first, and its script waits for the time. -/
def busyMorning : Office :=
  (opening [errand 2 askTime, yardErrand 1 askTime]).after hallSetting
    (.eval (yardErrand 1 askTime))

/-- The yard is told the time while the script of the hall waits for it. -/
def busyNoon : Office :=
  (busyMorning.after hallSetting (.eval (errand 2 askTime))).after hallSetting
    (.receive (report 3 "dawn"))

/-- The script of the hall goes on after that of the yard. -/
def busyDay : Office := busyNoon.after hallSetting (.receive (report 4 "noon"))

/-- A run of the hall alone and one in which the yard calls too. -/
theorem callers_apart_busyDay :
    Run quietDay ∧ Run busyDay ∧ quietDay.numbers "/hall" = [1, 2, 2, 1] ∧
      busyDay.numbers "/hall" = [2, 4, 4, 2] ∧ quietDay.asked "/hall" = busyDay.asked "/hall" ∧
      quietDay.given "/hall" = busyDay.given "/hall" ∧
      quietDay.bindings "/hall" = busyDay.bindings "/hall" := by
  have hquiet : Run quietDay := by
    refine .turn (.turn (.new ?_) ⟨?_, ?_, ?_⟩ ?_) rfl ?_
    · exact ⟨by decide, by decide, by decide, by decide, rfl, List.nodup_nil, by simp⟩
    all_goals decide +kernel
  have hbusy : Run busyDay := by
    refine .turn (.turn (.turn (.turn (.new ?_) ⟨?_, ?_, ?_⟩ ?_) ⟨?_, ?_, ?_⟩ ?_) rfl ?_) rfl ?_
    · exact ⟨by decide, by decide, by decide, by decide, rfl, List.nodup_nil, by simp⟩
    all_goals decide +kernel
  have hasked : quietDay.asked "/hall" = busyDay.asked "/hall" := by
    have hfirst : (opening [errand 1 askTime]).callerOf (.eval (errand 1 askTime)) =
        some "/hall" := by decide +kernel
    have hsecond : quietMorning.callerOf (.receive (report 2 "noon")) = some "/hall" := by
      decide +kernel
    have hquietNumbers : quietMorning.numbers "/hall" = [1, 2] := by decide +kernel
    have hyard : (opening [errand 2 askTime, yardErrand 1 askTime]).callerOf
        (.eval (yardErrand 1 askTime)) ≠ some "/hall" := by decide +kernel
    have hthird : busyMorning.callerOf (.eval (errand 2 askTime)) = some "/hall" := by
      decide +kernel
    have hyard' : (busyMorning.after hallSetting (.eval (errand 2 askTime))).callerOf
        (.receive (report 3 "dawn")) ≠ some "/hall" := by decide +kernel
    have hfourth : busyNoon.callerOf (.receive (report 4 "noon")) = some "/hall" := by
      decide +kernel
    have hbusyNumbers : busyMorning.numbers "/hall" = [] ∧ busyNoon.numbers "/hall" = [2, 4] := by
      decide +kernel
    rw [quietDay, asked_after hsecond, asked_service hsecond, hquietNumbers, quietMorning,
      asked_after hfirst, asked_service hfirst, busyDay, asked_after hfourth,
      asked_service hfourth, hbusyNumbers.2, busyNoon, asked_after_of_ne hyard',
      asked_after hthird, asked_service hthird, hbusyNumbers.1, busyMorning,
      asked_after_of_ne hyard]
    rfl
  obtain ⟨hgiven, hbindings, -⟩ := callers_apart hquiet hbusy hasked
  exact ⟨hquiet, hbusy, by decide +kernel, by decide +kernel, hasked, hgiven, hbindings⟩

end Office

end Switchboard
