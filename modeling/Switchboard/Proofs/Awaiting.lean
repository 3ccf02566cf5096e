import Mathlib
import Switchboard.FrameStack

/-!
# What a stack waits for

The main result `FrameStack.run_rests` is about a stack that is run until it comes to rest.  What it
has sent on the way is a new request for which it waits then, or nothing: a stack that had been
waiting from the start waits for the same answer, and any other has ended.

This is not true of every stack: a frame may have been built that waits for any number.  No command
builds one (`commandFrame_plain`), so it is true of every stack that a script leads to.
-/

namespace Switchboard

/-! ## Frames that wait for nothing -/

/-- Frames that wait for no answer until they have sent a request. -/
inductive Frame.Plain : Frame → Prop
  | done (ending : Ending) (result : List Value) : Plain (.done ending result)
  | call (target : Endpoint) (args : List Value) : Plain (.call target args)
  | log (level : LogLevel) (message : String) : Plain (.log level message)
  | script (run : ScriptRun) : Plain (.script run)
  | loop (run : LoopRun) : Plain (.loop run)
  | andThen {base : Frame} {next : List Value → Frame} (hbase : Plain base)
      (hnext : ∀ result, Plain (next result)) : Plain (.andThen base next)
  | onFail {body : Frame} {fallback : Fault → Frame} (hbody : Plain body)
      (hfallback : ∀ f, Plain (fallback f)) : Plain (.onFail body fallback)

/-- What goes on with frames that wait for nothing. -/
def Pending.Plain : Pending → Prop
  | .andThen next => ∀ result, (next result).Plain
  | .onFail fallback => ∀ f, (fallback f).Plain
  | .relay | .word _ | .command _ | .loop _ => True

/-- Whether a command comes to nothing but frames that wait for nothing. -/
def CommandResult.Plain (c : CommandResult) : Prop :=
  ∀ f s, c = .ok (f, s) → f.Plain

namespace CommandResult

/-- A command that is refused comes to no frame. -/
lemma Plain.refused (f : Fault) : Plain (.error f) := fun _ _ h => by contradiction

/-- A command that comes to a frame. -/
lemma Plain.ok {f : Frame} (hf : f.Plain) (s : Scopes) : Plain (.ok (f, s)) := by
  intro g t h
  cases h
  exact hf

end CommandResult

namespace Command

open CommandResult

variable (s : Scopes) (r : ScopeRef) (args : List Value)

/-- `set` comes to a value. -/
lemma set_plain : (set s r args).Plain := by
  unfold set
  split
  · split
    · exact .ok (.done ..) _
    · exact .refused _
  · exact .ok (.done ..) _
  · exact .refused _

/-- Adding to a variable comes to a value. -/
lemma add_plain (name : String) (amount : Int64) : (add s r name amount).Plain := by
  unfold add
  split
  · exact .refused _
  · exact .ok (.done ..) _

/-- `incr` comes to a value. -/
lemma incr_plain : (incr s r args).Plain := by
  unfold incr
  split
  · exact add_plain s r _ _
  · split
    · exact .refused _
    · exact add_plain s r _ _
  · exact .refused _

/-- `error` comes to a fault. -/
lemma error_plain : (error s args).Plain := by
  unfold error
  split <;> exact .ok (.done ..) _

/-- `foreach` comes to a loop. -/
lemma foreach_plain : (foreach s r args).Plain := by
  unfold foreach
  split
  · split
    · exact .refused _
    · exact .ok (.loop _) _
  · exact .refused _

/-- `try` comes to a script, with another one for its failure. -/
lemma try_plain : (try_ s r args).Plain := by
  unfold try_
  split
  · split
    · exact .refused _
    · exact .ok (.onFail (.script _) fun _ => .done ..) _
  · split
    · exact .refused _
    · exact .refused _
    · exact .ok (.onFail (.script _) fun _ => .script _) _
  · exact .refused _

/-- `eval` comes to a script. -/
lemma eval_plain : (eval s r args).Plain := by
  unfold eval
  split
  · exact .refused _
  · split
    · exact .refused _
    · exact .ok (.script _) _

end Command

open CommandResult in
/-- No built-in command waits for anything before it has sent a request. -/
theorem Builtin.run_plain (b : Builtin) (s : Scopes) (r : ScopeRef) (args : List Value) :
    CommandResult.Plain (b.run s r args) := by
  cases b with
  | set => exact Command.set_plain s r args
  | list => exact .ok (.done ..) _
  | incr => exact Command.incr_plain s r args
  | error => exact Command.error_plain s args
  | «break» => exact .ok (.done ..) _
  | «continue» => exact .ok (.done ..) _
  | foreach => exact Command.foreach_plain s r args
  | «try» => exact Command.try_plain s r args
  | eval => exact Command.eval_plain s r args
  | log => exact .ok (.log ..) _

open CommandResult in
/-- No line waits for anything before it has sent a request. -/
theorem commandFrame_plain (s : Scopes) (r : ScopeRef) (words : List Value) :
    CommandResult.Plain (commandFrame s r words) := by
  have hnamed (e : Except Fault Endpoint) (args : List Value) :
      CommandResult.Plain (e.map fun target => (.call target args, s)) := by
    cases e with
    | error f => exact .refused f
    | ok target => exact .ok (.call target args) s
  unfold commandFrame
  split
  · exact .ok (.done ..) _
  · exact .ok (.call ..) _
  · dsimp only
    split
    · exact Builtin.run_plain _ s r _
    · split
      · exact hnamed _ _
      · split
        · exact hnamed _ _
        · exact .refused _

/-! ## Stacks -/

namespace FrameStack

/-- Whether the frames of a stack wait for nothing, unless it is the running one. -/
structure Sound (s : FrameStack) : Prop where
  top : ∀ f ∈ s.top, f.Plain ∨ ∃ id, f = .waiting id
  below : ∀ p ∈ s.below, p.Plain

variable {s t : FrameStack} {p : Pending} {below : List Pending}

/-- A frame that waits for nothing on others that wait for nothing. -/
lemma Sound.plain {f : Frame} (hf : f.Plain) (hbelow : ∀ p ∈ below, p.Plain) :
    Sound ⟨some f, below⟩ where
  top := by
    intro g hg
    cases hg
    exact .inl hf
  below := hbelow

/-- A frame that waits on others that wait for nothing. -/
lemma Sound.waiting (id : ℕ) (hbelow : ∀ p ∈ below, p.Plain) :
    Sound ⟨some (.waiting id), below⟩ where
  top := by
    intro g hg
    cases hg
    exact .inr ⟨id, rfl⟩
  below := hbelow

/-- A script from its start. -/
lemma Sound.ofScript (script : Script) (scope : ScopeRef) (trap : Bool) :
    (ofFrame (.ofScript script scope trap)).Sound :=
  .plain (.script _) (by simp)

/-- A frame on another one that waits for nothing. -/
lemma plain_cons (hp : p.Plain) (hbelow : ∀ p ∈ below, p.Plain) : ∀ q ∈ p :: below, q.Plain := by
  intro q hq
  rcases List.mem_cons.mp hq with rfl | hq
  · exact hp
  · exact hbelow q hq

/-- A frame that waits for nothing awaits nothing. -/
lemma awaiting_of_plain {f : Frame} (hf : f.Plain) :
    (⟨some f, below⟩ : FrameStack).awaiting = none := by
  cases hf <;> rfl

/-- A stack whose running frame waits for nothing; so it is on the way between two requests. -/
def Free (s : FrameStack) : Prop := s.Sound ∧ s.awaiting = none

/-- A frame that waits for nothing on others that wait for nothing. -/
lemma Free.plain {f : Frame} (hf : f.Plain) (hbelow : ∀ p ∈ below, p.Plain) :
    Free ⟨some f, below⟩ :=
  ⟨.plain hf hbelow, awaiting_of_plain hf⟩

/-- A script that fails goes on or ends. -/
lemma free_fail (run : ScriptRun) (scopes : Scopes) (f : Fault) (hbelow : ∀ p ∈ below, p.Plain) :
    Free (ofStep (run.fail scopes f).1 below) := by
  unfold ScriptRun.fail
  split
  · exact .plain (.done ..) hbelow
  · exact .plain (.script _) hbelow

/-- A step of a script leads to no frame that waits. -/
lemma free_step (run : ScriptRun) (scopes : Scopes) (hbelow : ∀ p ∈ below, p.Plain) :
    Free (ofStep (run.step scopes).1 below) := by
  unfold ScriptRun.step
  split
  · exact .plain (.script _) hbelow
  · split
    · split
      · unfold ScriptRun.complete
        split <;> exact .plain (.done ..) hbelow
      · exact .plain (.script _) hbelow
    · split
      · exact free_fail _ _ _ hbelow
      · exact .plain (.script _) (plain_cons trivial hbelow)
      · split
        · exact free_fail _ _ _ hbelow
        · next child scopes' hchild =>
          exact .plain (commandFrame_plain _ _ _ child scopes' hchild) (plain_cons trivial hbelow)

/-- A frame that ends leads to no frame that waits. -/
lemma free_resume (hp : p.Plain) (hbelow : ∀ p ∈ below, p.Plain) (ending : Ending)
    (result : List Value) (w : Workspace) : Free (resume p below ending result w).1 := by
  have hpass : Free ⟨some (.done ending result), below⟩ := .plain (.done ..) hbelow
  cases p with
  | andThen next =>
    cases ending with
    | ok => exact .plain (hp result) (plain_cons trivial hbelow)
    | _ => exact hpass
  | onFail fallback =>
    cases ending with
    | error => exact .plain (hp _) (plain_cons trivial hbelow)
    | _ => exact hpass
  | relay => cases ending <;> exact hpass
  | word run =>
    cases ending with
    | ok => exact .plain (.script _) hbelow
    | error => exact free_fail _ _ _ hbelow
    | _ => exact hpass
  | command run =>
    cases ending with
    | ok => exact .plain (.script _) hbelow
    | error => exact free_fail _ _ _ hbelow
    | _ => exact hpass
  | loop run =>
    cases ending with
    | ok => exact .plain (.loop _) hbelow
    | error => exact .plain (.done ..) hbelow
    | «break» => exact .plain (.done ..) hbelow
    | «continue» => exact .plain (.loop _) hbelow

/-! ## What a stack has sent when it rests -/

end FrameStack

/-- What frames do to the ledger: they make new requests, numbered one after the other, and send
them. -/
structure Workspace.Sends (w : Workspace) (new : List Call) (w' : Workspace) : Prop where
  sent : w'.sent = w.sent ++ new
  numbers : new.map Call.matchId = List.range' w.ledger.nextId new.length
  requests : ∀ c ∈ new, c.kind = .request
  ledger : w'.ledger = { w.ledger with
    nextId := w.ledger.nextId + new.length
    made := new.reverse ++ w.ledger.made }

namespace Workspace.Sends

variable {w w₁ w₂ : Workspace} {cs ds : List Call}

/-- Nothing is sent. -/
lemma nothing (hsent : w₁.sent = w.sent) (hledger : w₁.ledger = w.ledger) : w.Sends [] w₁ where
  sent := by rw [hsent, List.append_nil]
  numbers := rfl
  requests := by simp
  ledger := hledger

/-- One thing is sent after another. -/
lemma trans (h : w.Sends cs w₁) (h' : w₁.Sends ds w₂) : w.Sends (cs ++ ds) w₂ where
  sent := by rw [h'.sent, h.sent, List.append_assoc]
  numbers := by
    have hnext : w₁.ledger.nextId = w.ledger.nextId + cs.length := by rw [h.ledger]
    rw [List.map_append, h.numbers, h'.numbers, hnext, List.length_append,
      List.range'_append_1]
  requests := by
    intro c hc
    rcases List.mem_append.mp hc with hc | hc
    · exact h.requests c hc
    · exact h'.requests c hc
  ledger := by
    rw [h'.ledger, h.ledger, List.length_append, List.reverse_append]
    simp only [Nat.add_assoc, List.append_assoc]

end Workspace.Sends

namespace FrameStack

/-- Frames that end send nothing. -/
lemma sends_resume (p : Pending) (below : List Pending) (ending : Ending) (result : List Value)
    (w : Workspace) : w.Sends [] (resume p below ending result w).2 := by
  cases p <;> cases ending <;> exact .nothing rfl rfl

/-- A frame that sends a call waits for its answer, or fails where that has nowhere to go. -/
lemma sendCall_cases (site : Site) (target : Endpoint) (args : List Value) (w : Workspace) :
    (∃ f : Fault, sendCall site target args w = (.error f, w)) ∨
      ∃ c w', sendCall site target args w = (.waiting c.matchId, w') ∧ w.Sends [c] w' := by
  unfold sendCall
  cases site.replyTo with
  | none => exact .inl ⟨_, rfl⟩
  | some source =>
    refine .inr ⟨(w.ledger.request target source site.time args).1, _, rfl, rfl, rfl, ?_, rfl⟩
    intro c hc
    rw [List.mem_singleton.mp hc]
    rfl

variable {site : Site} {s t : FrameStack} {w w' : Workspace}

/-- A step after which a stack goes on: it has not been waiting, and if it waits now, it is for the
one request that this step has sent. -/
lemma step_goOn (hs : s.Sound) (hstep : step site s w = (.goOn t, w')) :
    s.awaiting = none ∧
      ∃ new, w.Sends new w' ∧ t.Sound ∧ new.map Call.matchId = t.awaiting.toList := by
  obtain ⟨top, below⟩ := s
  have hbelow := hs.below
  have hfree (h : w.Sends [] w') (ht : t.Free) :
      ∃ new, w.Sends new w' ∧ t.Sound ∧ new.map Call.matchId = t.awaiting.toList :=
    ⟨[], h, ht.1, by rw [ht.2]; rfl⟩
  cases top with
  | none => simp [step] at hstep
  | some f =>
    cases f with
    | done ending result =>
      refine ⟨rfl, ?_⟩
      cases below with
      | nil => simp [step] at hstep
      | cons p below =>
        simp only [step, Prod.mk.injEq, Next.goOn.injEq] at hstep
        obtain ⟨rfl, rfl⟩ := hstep
        have hp := hbelow p List.mem_cons_self
        have hrest : ∀ q ∈ below, q.Plain := fun q hq => hbelow q (List.mem_cons_of_mem _ hq)
        exact hfree (sends_resume ..) (free_resume hp hrest ..)
    | waiting id => simp [step] at hstep
    | call target args =>
      refine ⟨rfl, ?_⟩
      simp only [step, Prod.mk.injEq, Next.goOn.injEq] at hstep
      obtain ⟨rfl, rfl⟩ := hstep
      obtain ⟨f, hf⟩ | ⟨c, w', hc, hsends⟩ := sendCall_cases site target args w
      · rw [hf] at hfree ⊢
        exact hfree (.nothing rfl rfl) (.plain (.done ..) hbelow)
      · rw [hc]
        exact ⟨[c], hsends, .waiting c.matchId hbelow, rfl⟩
    | log level message =>
      cases hstep
      exact ⟨rfl, hfree (.nothing rfl rfl) (.plain (.done ..) hbelow)⟩
    | andThen base next =>
      cases hstep
      obtain hplain | ⟨id, hid⟩ := hs.top _ rfl
      · cases hplain with
        | andThen hbase hnext =>
          exact ⟨rfl, hfree (.nothing rfl rfl) (.plain hbase (plain_cons hnext hbelow))⟩
      · contradiction
    | onFail body fallback =>
      cases hstep
      obtain hplain | ⟨id, hid⟩ := hs.top _ rfl
      · cases hplain with
        | onFail hbody hfallback =>
          exact ⟨rfl, hfree (.nothing rfl rfl) (.plain hbody (plain_cons hfallback hbelow))⟩
      · contradiction
    | script run =>
      cases hstep
      exact ⟨rfl, hfree (.nothing rfl rfl) (free_step run w.scopes hbelow)⟩
    | loop run =>
      refine ⟨rfl, ?_⟩
      obtain ⟨scope, name, items, body, last⟩ := run
      cases items with
      | nil =>
        cases hstep
        exact hfree (.nothing rfl rfl) (.plain (.done ..) hbelow)
      | cons item items =>
        cases hstep
        exact hfree (.nothing rfl rfl) (.plain (.script _) (plain_cons trivial hbelow))

/-- Whether a stack has come to rest: it waits for an answer, or nothing is left of it. -/
def AtRest (s : FrameStack) : Prop := s.top = none ∨ ∃ id, s.top = some (.waiting id)

/-- A step with which a stack comes to rest changes nothing, and where the stack waits it has been
waiting before. -/
lemma step_stop {o : StackOutcome} (hs : s.Sound) (hstep : step site s w = (.stop o t, w')) :
    w' = w ∧ t.Sound ∧ t.AtRest ∧ t.awaiting = s.awaiting ∧
      ∀ id, o = .suspended id ↔ t.awaiting = some id := by
  obtain ⟨top, below⟩ := s
  cases top with
  | none =>
    cases hstep
    exact ⟨rfl, hs, .inl rfl, rfl, by simp [awaiting]⟩
  | some f =>
    cases f with
    | done ending result =>
      cases below with
      | nil =>
        cases hstep
        exact ⟨rfl, ⟨by simp, by simp⟩, .inl rfl, rfl, by simp [awaiting]⟩
      | cons p below => simp [step] at hstep
    | waiting id =>
      cases hstep
      exact ⟨rfl, hs, .inr ⟨id, rfl⟩, rfl, by simp [awaiting]⟩
    | loop run =>
      obtain ⟨scope, name, items, body, last⟩ := run
      cases items <;> simp [step] at hstep
    | _ => simp [step] at hstep

/-- When a stack comes to rest, the request for which it waits then is the one for which it had been
waiting all the time, or else the one request that it has sent. -/
theorem run_rests {fuel : ℕ} {o : StackOutcome} (hs : s.Sound)
    (hrun : run site fuel s w = some (o, t, w')) :
    t.Sound ∧ t.AtRest ∧ (∀ id, o = .suspended id ↔ t.awaiting = some id) ∧
      ∃ new, w.Sends new w' ∧ s.awaiting.toList ++ new.map Call.matchId = t.awaiting.toList := by
  induction fuel generalizing s w with
  | zero => contradiction
  | succ fuel ih =>
    rw [run] at hrun
    match hstep : step site s w with
    | (.goOn s₁, w₁) =>
      rw [hstep] at hrun
      obtain ⟨hfree, cs, hcs, hs₁, hfirst⟩ := step_goOn hs hstep
      obtain ⟨ht, hrest, hwaits, ds, hds, hnumbers⟩ := ih hs₁ hrun
      refine ⟨ht, hrest, hwaits, cs ++ ds, hcs.trans hds, ?_⟩
      rw [hfree, List.map_append, hfirst]
      exact hnumbers
    | (.stop o₁ t₁, w₁) =>
      rw [hstep] at hrun
      cases hrun
      obtain ⟨rfl, ht, hrest, hsame, hwaits⟩ := step_stop hs hstep
      refine ⟨ht, hrest, hwaits, [], .nothing rfl rfl, ?_⟩
      rw [hsame]
      exact List.append_nil _

/-- A stack that has come to rest stays as it is when it is run again, wherever that happens. -/
lemma AtRest.run (hs : s.AtRest) (site : Site) (fuel : ℕ) (w : Workspace) :
    ∃ o, s.run site (fuel + 1) w = some (o, s, w) := by
  obtain ⟨top, below⟩ := s
  rcases hs with hnone | ⟨id, hwaiting⟩
  · cases hnone
    exact ⟨_, rfl⟩
  · cases hwaiting
    exact ⟨_, rfl⟩

/-- A stack that has been handed the answer to what it waited for does not wait any more. -/
lemma free_post {c : Call} (hs : s.Sound) (hresponse : c.isResponse = true)
    (hpost : s.post c = (true, t)) : s.awaiting = some c.matchId ∧ t.Free := by
  unfold post at hpost
  split at hpost
  · next hawaiting =>
    refine ⟨hawaiting, ?_⟩
    cases hkind : c.kind with
    | reply =>
      rw [hkind] at hpost
      cases hpost
      exact .plain (.done ..) hs.below
    | error =>
      rw [hkind] at hpost
      cases hpost
      exact .plain (.done ..) hs.below
    | request => simp [Call.isResponse, hkind] at hresponse
    | quiet => simp [Call.isResponse, hkind] at hresponse
  · cases hpost

end FrameStack

end Switchboard
