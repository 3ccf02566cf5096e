import Mathlib
import Switchboard.Proofs.Abstraction

/-!
# Scripts that wait behind themselves

A script that has been started stands in the way of the scripts behind it in the queue of its
caller.  If it waits for the answer to a request that has brought one of those, it waits for ever.
The main theorem `Root.Reachable.selfWait_own` says where this can happen: only among the scripts
that the scripts of the unit itself have brought, in the context that they share.  For a script that
waits is waiting for a request from the endpoint of its unit, and that is what the context of its
caller is known under.  `selfWait_nestedEval` is a root in which it has happened.

The invariant is that of an executor whose scripts are `Sourced`: those that wait in a queue come
from the caller of the queue, and those that run wait for what scripts of the unit have sent.
-/

namespace Switchboard

open ScriptExecutor (callerKey)

/-- Whether a call comes from the scripts that the unit at an address runs. -/
def Call.OfScripts (home : Option Path) (c : Call) : Prop :=
  ∃ e, c.source = some e ∧ home = some e.path ∧ e.id.text = "eval"

/-- Whether a call comes from where the answers to the calls of running frames are to go. -/
def Call.SentFrom (site : Site) (c : Call) : Prop :=
  ∃ source, c.source = some source ∧ site.replyTo = some source

/-! ## What a stack has sent -/

namespace FrameStack

variable {site : Site} {s t : FrameStack} {w w' : Workspace} {o : StackOutcome}

/-- What a step sends comes from where the answers are to go. -/
lemma source_of_sent_step (site : Site) (s : FrameStack) (w : Workspace) :
    ∀ c ∈ (step site s w).2.sent, c ∈ w.sent ∨ c.SentFrom site := by
  intro c hc
  obtain ⟨top, below⟩ := s
  cases top with
  | none => exact .inl hc
  | some f =>
    cases f with
    | done ending result =>
      cases below with
      | nil => exact .inl hc
      | cons p below =>
        have hsent := (sends_resume p below ending result w).sent
        rw [List.append_nil] at hsent
        exact .inl (hsent ▸ hc)
    | call target args =>
      have hcall : c ∈ (sendCall site target args w).2.sent := hc
      unfold sendCall at hcall
      split at hcall
      · exact .inl hcall
      · next source hsource =>
        rcases List.mem_append.mp hcall with hcall | hcall
        · exact .inl hcall
        · rw [List.mem_singleton.mp hcall]
          exact .inr ⟨source, rfl, hsource⟩
    | loop run =>
      obtain ⟨scope, name, items, body, last⟩ := run
      cases items <;> exact .inl hc
    | _ => exact .inl hc

/-- What a run sends comes from where the answers are to go. -/
lemma source_of_sent_run {fuel : ℕ} (hrun : run site fuel s w = some (o, t, w')) :
    ∀ c ∈ w'.sent, c ∈ w.sent ∨ c.SentFrom site := by
  induction fuel generalizing s w with
  | zero => contradiction
  | succ fuel ih =>
    have hstep := source_of_sent_step site s w
    rw [run] at hrun
    rcases h : step site s w with ⟨s₁ | ⟨o₁, s₁⟩, w₁⟩
    · rw [h] at hrun hstep
      exact fun c hc => (ih hrun c hc).elim (hstep c) .inr
    · rw [h] at hrun hstep
      cases hrun
      exact hstep

end FrameStack

/-! ## Executors -/

/-- Whether a script that runs waits, if it does, for what scripts of the unit at an address have
sent. -/
structure RunningJob.Sourced (home : Option Path) (made : List Call) (job : RunningJob) : Prop where
  sound : job.stack.Sound
  awaits : ∀ id, job.stack.awaiting = some id → ∃ c ∈ made, c.matchId = id ∧ c.OfScripts home

/-- Whether the scripts that wait in the context of a caller come from the caller, and the one that
runs waits for what scripts of the unit have sent. -/
structure CallerContext.Sourced (home : Option Path) (made : List Call) (key : String)
    (c : CallerContext) : Prop where
  queued : ∀ job ∈ c.queue, callerKey job.call = key
  running : ∀ job, c.running = some job → job.Sourced home made

namespace ScriptExecutor

/-- Whether all that an executor keeps for its callers is sourced. -/
def Sourced (home : Option Path) (made : List Call) (x : ScriptExecutor) : Prop :=
  ∀ key context, (key, context) ∈ x.contexts → context.Sourced home made key

variable {s : Setting} {made : List Call} {x : ScriptExecutor} {key : String} {t : Turn}
  {p : Progress} {context : CallerContext}

/-- The calls of scripts come from the endpoint at which their unit takes scripts. -/
lemma ofScripts_of_sentFrom {c : Call} (hc : c.SentFrom (site s)) : c.OfScripts s.address := by
  obtain ⟨source, hsource, hsite⟩ := hc
  refine ⟨source, hsource, ?_⟩
  have heval : EndpointId.ofText? "eval" = .ok ⟨"eval", by decide⟩ := rfl
  unfold site Setting.endpoint at hsite
  cases haddress : s.address with
  | none =>
    rw [haddress] at hsite
    contradiction
  | some home =>
    rw [haddress] at hsite
    simp only [Path.endpoint?, heval] at hsite
    cases hsite
    exact ⟨rfl, rfl⟩

/-- A script that goes on waits for what it has sent, if it waits. -/
lemma sourced_advance {job job' : RunningJob} (hjob : job.Sourced s.address made)
    (hadvance : (advance s job p).1 = some job')
    (hmade : (advance s job p).2.turn.ledger.made ⊆ made) : job'.Sourced s.address made := by
  unfold advance at hadvance hmade
  match hrun : job.stack.run (site s) FrameStack.stepLimit ⟨p.scopes, p.turn.ledger, [], []⟩ with
  | none =>
    rw [hrun] at hadvance
    cases hadvance
    exact hjob
  | some (.done ending result, stack, w) =>
    rw [hrun] at hadvance
    contradiction
  | some (.suspended number, stack, w) =>
    rw [hrun] at hadvance hmade
    cases hadvance
    obtain ⟨hsound, -, -, new, hsends, hnumbers⟩ := FrameStack.run_rests hjob.sound hrun
    have hsent : w.sent = new := hsends.sent
    have hnew : new ⊆ made := by
      intro c hc
      have hledger : c ∈ w.ledger.made := by
        rw [hsends.ledger]
        exact List.mem_append_left _ (List.mem_reverse.mpr hc)
      exact hmade ((Turn.hookRule_course.writeLog ..).made hledger)
    refine ⟨hsound, fun id hid => ?_⟩
    have hid' : stack.awaiting = some id := hid
    rw [hid'] at hnumbers
    have hmem : id ∈ job.stack.awaiting.toList ++ new.map Call.matchId := by
      rw [hnumbers]
      exact List.mem_singleton.mpr rfl
    rcases List.mem_append.mp hmem with hbefore | hsince
    · exact hjob.awaits id (Option.mem_toList.mp hbefore)
    · obtain ⟨c, hc, hnumber⟩ := List.mem_map.mp hsince
      refine ⟨c, hnew hc, hnumber, ofScripts_of_sentFrom ?_⟩
      exact (FrameStack.source_of_sent_run hrun c (hsent ▸ hc)).resolve_left (by simp)

/-- A script that has not been started waits for nothing. -/
lemma sourced_start (home : Option Path) (made : List Call) (scope : ScopeRef) (job : Job) :
    (start scope job).Sourced home made where
  sound := .ofScript job.script scope job.options.trap
  awaits := nofun

/-- The scripts of a queue, one after the other. -/
lemma sourced_drain (scope : ScopeRef) {queue : List Job}
    (hqueue : ∀ job ∈ queue, callerKey job.call = key)
    (hmade : (drain s scope queue p).2.turn.ledger.made ⊆ made) :
    (drain s scope queue p).1.Sourced s.address made key := by
  induction queue generalizing p with
  | nil => exact ⟨by simp [drain], nofun⟩
  | cons job queue ih =>
    have hrest : ∀ job ∈ queue, callerKey job.call = key :=
      fun job hjob => hqueue job (List.mem_cons_of_mem _ hjob)
    have hjob (job' : RunningJob) (hadvance : (advance s (start scope job) p).1 = some job')
        (hmade : (advance s (start scope job) p).2.turn.ledger.made ⊆ made) :
        job'.Sourced s.address made :=
      sourced_advance (sourced_start ..) hadvance hmade
    unfold drain at hmade ⊢
    match h : advance s (start scope job) p with
    | (some running, p') =>
      rw [h] at hjob hmade
      refine ⟨hrest, fun job' hjob' => ?_⟩
      cases hjob'
      exact hjob _ rfl hmade
    | (none, p') =>
      rw [h] at hmade
      exact ih hrest hmade

/-- What can run of one caller. -/
lemma sourced_pumpContext (hcontext : context.Sourced s.address made key)
    (hmade : (pumpContext s context p).2.turn.ledger.made ⊆ made) :
    (pumpContext s context p).1.Sourced s.address made key := by
  obtain ⟨scope, queue, running⟩ := context
  unfold pumpContext at hmade ⊢
  cases running with
  | none => exact sourced_drain scope hcontext.queued hmade
  | some job =>
    have hjob (job' : RunningJob) (hadvance : (advance s job p).1 = some job')
        (hmade : (advance s job p).2.turn.ledger.made ⊆ made) : job'.Sourced s.address made :=
      sourced_advance (hcontext.running job rfl) hadvance hmade
    simp only at hmade ⊢
    match h : advance s job p with
    | (some running, p') =>
      rw [h] at hjob hmade
      refine ⟨hcontext.queued, fun job' hjob' => ?_⟩
      cases hjob'
      exact hjob _ rfl hmade
    | (none, p') =>
      rw [h] at hmade
      exact sourced_drain scope hcontext.queued hmade

/-- The context of a caller is replaced. -/
lemma Sourced.insert (hx : x.Sourced s.address made)
    (hcontext : context.Sourced s.address made key) (scopes : Scopes) :
    Sourced s.address made
      { x with scopes := scopes, contexts := x.contexts.insert key context } := by
  intro other c hc
  rcases Keyed.mem_insert hc with heq | hc
  · cases heq
    exact hcontext
  · exact hx other c hc

/-- What can run of the caller under a key. -/
lemma sourced_pump (hx : x.Sourced s.address made)
    (hmade : (pump s key x t).2.ledger.made ⊆ made) :
    (pump s key x t).1.Sourced s.address made := by
  unfold pump at hmade ⊢
  match hfind : x.contexts.find? key with
  | none => exact hx
  | some context =>
    rw [hfind] at hmade
    exact hx.insert (sourced_pumpContext (hx key context (Keyed.mem_of_find? hfind)) hmade) _

/-- A caller without scripts. -/
lemma sourced_nothing (home : Option Path) (made : List Call) (key : String) (scope : ScopeRef) :
    CallerContext.Sourced home made key ⟨scope, [], none⟩ := ⟨by simp, nofun⟩

/-- The context of a caller, which may call for the first time. -/
lemma sourced_enter (hx : x.Sourced s.address made) (c : Call) :
    (enter s c x).1.Sourced s.address made (callerKey c) ∧
      (enter s c x).2.Sourced s.address made := by
  unfold enter
  split
  · next context hfind => exact ⟨hx _ context (Keyed.mem_of_find? hfind), hx⟩
  · exact ⟨sourced_nothing .., hx⟩

/-- A call that brings a script. -/
lemma sourced_eval {c : Call} (hx : x.Sourced s.address made)
    (hmade : (eval s c x t).2.2.ledger.made ⊆ made) :
    (eval s c x t).2.1.Sourced s.address made := by
  unfold ScriptExecutor.eval at hmade ⊢
  match hread : read c with
  | .error f => exact hx
  | .ok (script, options) =>
    simp only [hread] at hmade ⊢
    obtain ⟨hcontext, hentered⟩ := sourced_enter hx c
    have htaken : CallerContext.Sourced s.address made (callerKey c)
        { (enter s c x).1 with queue := (enter s c x).1.queue ++ [⟨c, script, options⟩] } := by
      refine ⟨fun job hjob => ?_, hcontext.running⟩
      rcases List.mem_append.mp hjob with hjob | hjob
      · exact hcontext.queued job hjob
      · rw [List.mem_singleton.mp hjob]
    exact sourced_pump (hentered.insert htaken _) hmade

/-- A script that has been handed an answer. -/
lemma sourced_post {job : RunningJob} {c : Call} {stack : FrameStack}
    (hjob : job.Sourced s.address made) (hpost : job.stack.post c = (true, stack)) :
    RunningJob.Sourced s.address made { job with stack := stack } := by
  cases hresponse : c.isResponse with
  | true =>
    obtain ⟨-, hsound, hnone⟩ := FrameStack.free_post hjob.sound hresponse hpost
    refine ⟨hsound, fun id hid => ?_⟩
    have hid' : stack.awaiting = some id := hid
    rw [hnone] at hid'
    contradiction
  | false =>
    have hsame : stack = job.stack := by
      unfold FrameStack.post at hpost
      split at hpost
      · cases hkind : c.kind <;> simp_all [Call.isResponse]
      · cases hpost
    subst hsame
    exact hjob

/-- A call that is taken for an answer. -/
lemma sourced_receive {c : Call} (hx : x.Sourced s.address made)
    (hmade : (receive s c x t).2.2.ledger.made ⊆ made) :
    (receive s c x t).2.1.Sourced s.address made := by
  unfold ScriptExecutor.receive at hmade ⊢
  match hrecipient : recipient? c x.contexts with
  | none => exact hx
  | some (key, context') =>
    simp only [hrecipient] at hmade ⊢
    obtain ⟨context, job, stack, hmem, hjob, hpost, rfl⟩ := recipient?_eq_some hrecipient
    have hcontext := hx key context hmem
    have hposted : CallerContext.Sourced s.address made key
        { context with running := some { job with stack := stack } } := by
      refine ⟨hcontext.queued, fun job' hjob' => ?_⟩
      cases hjob'
      exact sourced_post (hcontext.running job hjob) hpost
    exact sourced_pump (hx.insert hposted _) hmade

/-- The scripts of one caller are given up. -/
lemma sourced_clear (hx : x.Sourced s.address made) (c : Call) (t : Turn) :
    (clear c x t).2.1.Sourced s.address made := by
  unfold clear
  split
  · exact hx
  · next context _ => exact hx.insert (sourced_nothing _ _ _ context.scope) x.scopes

/-- The scripts of all callers are given up. -/
lemma sourced_abortAll (home : Option Path) (made : List Call) (contexts : Keyed CallerContext)
    (t : Turn) :
    ∀ key context, (key, context) ∈ (abortAll contexts t).1 → context.Sourced home made key := by
  induction contexts generalizing t with
  | nil => simp [abortAll]
  | cons e rest ih =>
    intro key context hmem
    rcases List.mem_cons.mp hmem with heq | hmem
    · cases heq
      exact sourced_nothing home made _ e.2.scope
    · exact ih _ key context hmem

/-- That scripts are sourced is an invariant of executors. -/
lemma invariant_sourced : Invariant Sourced where
  new home made := nofun
  grows hsubset hx key context hmem := by
    obtain ⟨hqueued, hrunning⟩ := hx key context hmem
    refine ⟨hqueued, fun job hjob => ⟨(hrunning job hjob).sound, fun id hid => ?_⟩⟩
    obtain ⟨c, hc, hfrom⟩ := (hrunning job hjob).awaits id hid
    exact ⟨c, hsubset hc, hfrom⟩
  execute := by
    intro made s x t task hx hmade
    cases task with
    | eval c => exact sourced_eval hx hmade
    | receive c => exact sourced_receive hx hmade
    | clear c => exact sourced_clear hx c t
    | clearAll => exact sourced_abortAll s.address made x.contexts t

end ScriptExecutor

/-! ## Roots -/

/-- The number of the request whose answer the running script of a caller waits for. -/
def CallerContext.awaiting (c : CallerContext) : Option ℕ :=
  c.running.bind fun job => job.stack.awaiting

namespace Root

/-- The context of a caller in the executor that a reference of a unit holds. -/
def context? (r : Root) (h : Handle) (id key : String) : Option CallerContext :=
  match (r.units.get? h).bind fun n => n.iteration.cells.value? id with
  | some (.executor x) => x.contexts.find? key
  | _ => none

/-- Whether in the context of a caller a script is suspended and waits for the answer to a request
that has been made, while the script that this request has brought waits in the queue of the same
context. -/
structure SelfWait (r : Root) (h : Handle) (id key : String) (c : Call) : Prop where
  made : c ∈ r.ledger.made
  waits : ∃ context, r.context? h id key = some context ∧ context.awaiting = some c.matchId ∧
    c ∈ context.queue.map Job.call

/-- Where a script waits behind itself, in whatever root that can be reached, the request has been
sent by a script that the unit runs, and the context is the one of the unit itself.  In the contexts
of all other callers this never happens. -/
theorem Reachable.selfWait_own {r : Root} (hr : Reachable r)
    (habstract : ∀ ms ∈ r.installed, ms.Abstract) {h : Handle} {id key : String} {c : Call}
    (hwait : r.SelfWait h id key c) :
    ∃ n, r.units.get? h = some n ∧ key = n.address.text ∧ c.OfScripts (some n.address) := by
  obtain ⟨hmade, context, hcontext, hawaits, hqueued⟩ := hwait
  unfold context? at hcontext
  cases hn : r.units.get? h with
  | none =>
    rw [hn] at hcontext
    contradiction
  | some n =>
    rw [hn, Option.bind_some] at hcontext
    split at hcontext
    · next x hx =>
      have hsourced := hr.executor ScriptExecutor.invariant_sourced habstract hn hx
      obtain ⟨hkeys, hrunning⟩ := hsourced key context (Keyed.mem_of_find? hcontext)
      obtain ⟨job, hjob, hid⟩ := Option.bind_eq_some_iff.mp hawaits
      obtain ⟨d, hd, hnumber, hfrom⟩ := (hrunning job hjob).awaits c.matchId hid
      have hsame : d = c := hr.settled.ledger.eq_of_number hd hmade hnumber
      subst hsame
      obtain ⟨waiting, hwaiting, rfl⟩ := List.mem_map.mp hqueued
      refine ⟨n, rfl, ?_, hfrom⟩
      obtain ⟨e, hsource, haddress, -⟩ := hfrom
      rw [← hkeys waiting hwaiting, callerKey, hsource, Option.some.inj haddress]
      rfl
    · contradiction

/-- The endpoint at which the unit of the scripts below takes scripts. -/
def counter : Endpoint := ⟨rootPath.append ⟨"script", by decide⟩, ⟨"eval", by decide⟩⟩

/-- A root with a unit that runs scripts. -/
def scriptRoot (r : Root) : Root := (Operation.addExecutor rootPath "script").run r

/-- A root in which a script has brought a script to its own unit, which has brought a third one. -/
def nestedEval (r : Root) : Root :=
  Operation.runUntilIdle.run
    ((Operation.request counter [.text "/root/script.eval {/root/script.eval {list 1}}"]).run
      (scriptRoot r))

/-- The request that has brought the third script. -/
def innermost : Call := ⟨3, some counter, counter, 0, .request, [.text "list 1"]⟩

section

variable {r : Root} (hr : Root.new {} Catalog.base.withScripting = .ok r)

include hr

/-- The root with the nested scripts can be reached. -/
lemma reachable_nestedEval : Reachable (nestedEval r) := by
  have hadded : Reachable (scriptRoot r) := .operate (.new hr) trivial
  have hasked : Reachable ((Operation.request counter
      [.text "/root/script.eval {/root/script.eval {list 1}}"]).run (scriptRoot r)) :=
    .operate hadded trivial
  exact .operate (o := .runUntilIdle) hasked trivial

/-- The third script waits behind the second one, which waits for it. -/
lemma selfWait_innermost :
    (nestedEval r).isIdle = true ∧
      (nestedEval r).SelfWait ⟨1, 0⟩ Scripting.reference "/root/script" innermost := by
  have hcontext : ((nestedEval r).context? ⟨1, 0⟩ Scripting.reference "/root/script").map
      (fun c => (c.awaiting, c.queue.map Job.call)) = some (some 3, [innermost]) := by
    cases hr
    decide +kernel
  have hmade : innermost ∈ (nestedEval r).ledger.made := by
    cases hr
    decide +kernel
  refine ⟨?_, hmade, ?_⟩
  · cases hr
    decide +kernel
  · obtain ⟨context, hfound, hfacts⟩ := Option.map_eq_some_iff.mp hcontext
    obtain ⟨hawaiting, hqueue⟩ := Prod.mk.inj hfacts
    refine ⟨context, hfound, hawaiting, ?_⟩
    rw [hqueue]
    exact List.mem_singleton.mpr rfl

/-- Nothing but the behavior of script units was put in place in the root with the nested
scripts. -/
lemma abstract_nestedEval : ∀ ms ∈ (nestedEval r).installed, ms.Abstract := by
  have hbefore : Scripting.members ∈ (scriptRoot r).installed := by
    cases hr
    exact List.mem_singleton.mpr rfl
  have hlength : (nestedEval r).installed.length = 1 := by
    cases hr
    decide +kernel
  have htrue : UnitInvariant (fun _ => True) fun _ _ => True := by
    constructor <;> intros <;> trivial
  have hdeeds : Deeds (scriptRoot r) (nestedEval r) :=
    (asks_request ..).deeds.trans (rounds_runUntilIdle _).deeds
  have htree : (scriptRoot r).IsTree :=
    (Reachable.operate (.new hr) (o := .addExecutor rootPath "script") trivial).isTree
  have hafter := (htrue.upholds_deeds htree hdeeds).installed hbefore
  obtain ⟨ms, hms⟩ := List.length_eq_one_iff.mp hlength
  rw [hms] at hafter ⊢
  intro other hother
  rw [List.mem_singleton.mp hother, ← List.mem_singleton.mp hafter]
  exact Members.abstract_of_behavior Behavior.abstract_scripting Scripting.ofBehavior_scripting

end

/-- A script can wait for ever for the answer to a request whose script waits behind it in the queue
of the same caller. -/
theorem idle_selfWait :
    ∃ r, Root.new {} Catalog.base.withScripting = .ok r ∧ Reachable (nestedEval r) ∧
      (nestedEval r).isIdle = true ∧
      (nestedEval r).SelfWait ⟨1, 0⟩ Scripting.reference "/root/script" innermost := by
  obtain ⟨r, hr⟩ : ∃ r, Root.new {} Catalog.base.withScripting = .ok r := ⟨_, rfl⟩
  exact ⟨r, hr, reachable_nestedEval hr, selfWait_innermost hr⟩

/-- The script that waits behind itself was brought by a script of its own unit. -/
theorem selfWait_own_nestedEval :
    ∃ r, Root.new {} Catalog.base.withScripting = .ok r ∧ Reachable (nestedEval r) ∧
      (∀ ms ∈ (nestedEval r).installed, ms.Abstract) ∧
      (nestedEval r).SelfWait ⟨1, 0⟩ Scripting.reference "/root/script" innermost ∧
      ∃ n, (nestedEval r).units.get? ⟨1, 0⟩ = some n ∧ "/root/script" = n.address.text ∧
        innermost.OfScripts (some n.address) := by
  obtain ⟨r, hr⟩ : ∃ r, Root.new {} Catalog.base.withScripting = .ok r := ⟨_, rfl⟩
  have hreach := reachable_nestedEval hr
  have habstract := abstract_nestedEval hr
  have hwait := (selfWait_innermost hr).2
  exact ⟨r, hr, hreach, habstract, hwait, hreach.selfWait_own habstract hwait⟩

end Root

end Switchboard
