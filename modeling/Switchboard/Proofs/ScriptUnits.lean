import Mathlib
import Switchboard.Proofs.Scripting

/-!
# Script units

The main theorem `ScriptUnit.served_in_order` is about a unit that runs scripts.  In every run of it
in which every script that is started comes to rest, no script is lost, none is answered twice and
none runs out of order, whatever calls arrive and in whatever order, whenever scripts are given up,
and whenever the behavior is installed anew or the executor is taken over by another one.  Giving up
scripts answers the pending ones, and where the executor is not taken over all of them.

The unit is looked at between turns (`ScriptUnit`), and `ScriptUnit.Run` says which turns it may be
given and what may happen elsewhere meanwhile.  The invariant is that of the executor that the unit
keeps in its reference (`ScriptExecutor.Kept`).
-/

namespace Switchboard

open ScriptHistory
open ScriptExecutor (callerKey)

/-! ## Runs of a unit -/

/-- A unit that runs scripts, between two turns of it: the unit, the ledger, and what has become of
the scripts that it was brought. -/
structure ScriptUnit where
  node : Node
  ledger : Ledger
  history : List ScriptEvent := []

namespace ScriptUnit

/-- Whether an iteration is that of the behavior of script units, before it is in place. -/
def IsNew (next : Iteration) : Prop :=
  ∃ i, Iteration.ofBehavior Behavior.scripting = .ok i ∧ next.members = i.members ∧
    next.cells = i.cells

/-- Whether a unit keeps no executor that the behavior would take over. -/
def IsVacant (n : Node) : Prop :=
  ∀ r, n.iteration.cells.references.find? Scripting.reference = some r → r.kind = .executor →
    r.holding = none

/-- Whether a turn of the unit may begin like this. -/
structure Opens (u : ScriptUnit) (t : Turn) : Prop where
  ledger : t.ledger = u.ledger
  scripts : t.scripts = u.history

/-- Whether a unit with the behavior of script units may be given a turn for a task. Any answer may
arrive, whether a script waits for it or not, and any other call that was made, has not been
answered and has not brought a script yet. The behavior may be installed anew. -/
def Admits (u : ScriptUnit) : Task → Prop
  | .invoke c => c.isResponse = true ∨
      (c ∈ u.ledger.made ∧ c.matchId ∉ u.ledger.answered ∧ c ∉ accepted u.history)
  | .install next _ => IsNew next
  | .dispose => False
  | .activate | .stop | .reset | .tick | .receive _ _ => True

/-- Whether a script was still running when the bound on the steps of a run was reached. -/
def Stuck (H : List ScriptEvent) : Prop := ∃ e ∈ H, e.fate = .stuck

instance (H : List ScriptEvent) : Decidable (Stuck H) :=
  inferInstanceAs (Decidable (∃ e ∈ H, e.fate = .stuck))

/-- Whether nobody else has answered a request that has brought a script. -/
def Untouched (u : ScriptUnit) (l : Ledger) : Prop :=
  ∀ c ∈ accepted u.history, c.expectsReply = true → c.matchId ∈ l.answered →
    c.matchId ∈ u.ledger.answered

/-- Whether a turn, whatever the behavior, leaves the executor and its scripts as they are. -/
structure Leaves (u : ScriptUnit) (s : Setting) (k : Task) (t : Turn) : Prop where
  executor : ∀ x, u.node.iteration.cells.Executes x →
    (k.run s u.node t).1.iteration.cells.Executes x
  scripts : (k.run s u.node t).2.scripts = t.scripts
  untouched : u.Untouched (k.run s u.node t).2.ledger

/-- The unit after a turn. -/
def after (out : Node × Turn) : ScriptUnit := ⟨out.1, out.2.ledger, out.2.scripts⟩

/-- The runs of a unit, from the moment when the behavior is put in place, as long as it keeps its
executor and every script that is started comes to rest. -/
inductive Run : ScriptUnit → Prop
  | install {s : Setting} {n : Node} {next : Iteration} {active : Bool} {t : Turn}
      (hnext : IsNew next) (hvacant : IsVacant n) (hvalid : t.ledger.Valid) :
      Run ⟨(n.install s next active t).1, (n.install s next active t).2.ledger, []⟩
  | turn {u : ScriptUnit} {s : Setting} {k : Task} {t : Turn} (hu : Run u)
      (hscripting : u.node.iteration.members = Scripting.members) (hopens : u.Opens t)
      (hadmits : u.Admits k) (hrests : ¬Stuck (k.run s u.node t).2.scripts) :
      Run (after (k.run s u.node t))
  /-- Another behavior takes the executor over and leaves it alone, or gives it back. -/
  | guest {u : ScriptUnit} {s : Setting} {k : Task} {t : Turn} (hu : Run u) (hopens : u.Opens t)
      (hleaves : u.Leaves s k t) : Run (after (k.run s u.node t))
  /-- Other units make calls and answer them. -/
  | elsewhere {u : ScriptUnit} {l : Ledger} {cs : List Call} (hu : Run u)
      (hexchange : Exchange u.ledger l cs) (huntouched : u.Untouched l) :
      Run { u with ledger := l }

/-! ## The invariant -/

/-- What holds of a unit that keeps an executor between two turns of it. -/
structure Keeps (u : ScriptUnit) (x : ScriptExecutor) : Prop where
  executes : u.node.iteration.cells.Executes x
  kept : x.Kept u.ledger u.history

/-- What holds of it while it has the behavior of script units. -/
structure Serves (u : ScriptUnit) (x : ScriptExecutor) : Prop extends Keeps u x where
  members : u.node.iteration.members = Scripting.members

variable {u : ScriptUnit} {x : ScriptExecutor} {s : Setting} {t : Turn} {c : Call}

/-- What a new iteration of script units is like. -/
lemma IsNew.facts {next : Iteration} (h : IsNew next) :
    next.members = Scripting.members ∧ next.cells = Iteration.initialCells Scripting.members := by
  obtain ⟨i, hi, hmembers, hcells⟩ := h
  have hdeclared : i = { members := Scripting.members
                         cells := Iteration.initialCells Scripting.members } := by
    unfold Iteration.ofBehavior at hi
    rw [Scripting.ofBehavior_scripting] at hi
    exact (Except.ok.inj hi).symm
  subst hdeclared
  exact ⟨hmembers, hcells⟩

/-- A unit that becomes active does nothing. -/
lemma activate_alike {n : Node} (hn : n.iteration.members = Scripting.members) (s : Setting)
    (t : Turn) :
    (n.activate s t).1.iteration = n.iteration ∧ Scripting.Alike t (n.activate s t).2 := by
  obtain ⟨hinit, hturn⟩ := Scripting.runHook_alike s (m := .init) nofun hn t
  have hn' : (n.iteration.runHook s .init t).1.members = Scripting.members := by rw [hinit, hn]
  obtain ⟨hstart, hturn'⟩ := Scripting.runHook_alike s (m := .start) nofun hn'
    (n.iteration.runHook s .init t).2
  unfold Node.activate Node.runHook Node.withIteration
  simp only
  split
  · exact ⟨hinit, hturn⟩
  · exact ⟨hstart.trans hinit, hturn.trans hturn'⟩

/-- A unit with the behavior of script units that becomes active with it does nothing more. -/
lemma install_iteration {n : Node} {next : Iteration} (active : Bool)
    (hmembers : (next.attach s n.iteration t).1.members = Scripting.members) :
    (n.install s next active t).1.iteration = (next.attach s n.iteration t).1 ∧
      Scripting.Alike (next.attach s n.iteration t).2 (n.install s next active t).2 := by
  unfold Node.install Node.withIteration
  simp only
  split
  · exact activate_alike
      (n := { n with iteration := (next.attach s n.iteration t).1, started := false }) hmembers s
      (next.attach s n.iteration t).2
  · exact ⟨rfl, .refl _⟩

/-- A turn that has to do with neither calls nor scripts. -/
lemma Serves.alike (h : u.Serves x) (hopens : u.Opens t) {out : Node × Turn}
    (hmembers : out.1.iteration.members = Scripting.members)
    (hexecutes : out.1.iteration.cells.Executes x) (halike : Scripting.Alike t out.2) :
    (after out).Serves x where
  members := hmembers
  executes := hexecutes
  kept := by
    have hledger : out.2.ledger = u.ledger := halike.ledger.trans hopens.ledger
    have hscripts : out.2.scripts = u.history := halike.scripts.trans hopens.scripts
    change x.Kept out.2.ledger out.2.scripts
    rw [hledger, hscripts]
    exact h.kept

/-- A turn in which the behavior does nothing. -/
lemma Serves.idle (h : u.Serves x) (hopens : u.Opens t) {out : Node × Turn}
    (hidle : out.1.iteration = u.node.iteration ∧ Scripting.Alike t out.2) :
    (after out).Serves x := by
  obtain ⟨hiteration, halike⟩ := hidle
  refine h.alike hopens ?_ ?_ halike
  · rw [hiteration]
    exact h.members
  · rw [hiteration]
    exact h.executes

/-- What an executor knows of a turn that may begin. -/
lemma Serves.kept_of_opens (h : u.Serves x) (hopens : u.Opens t) :
    x.Kept t.ledger t.scripts := by
  rw [hopens.ledger, hopens.scripts]
  exact h.kept

/-- The reply to a call is an answer to this call only. -/
lemma repliedTo_facts (c : Call) (n : ℕ) (t : Turn) :
    (Scripting.repliedTo c n t).scripts = t.scripts ∧
      (∃ cs, Exchange t.ledger (Scripting.repliedTo c n t).ledger cs) ∧
      ∀ id ∈ (Scripting.repliedTo c n t).ledger.answered,
        id = c.matchId ∨ id ∈ t.ledger.answered := by
  unfold Scripting.repliedTo Program.answerOn
  split
  · cases h : t.ledger.answer c .reply [.ofNat n] with
    | error e =>
      simp only [Turn.answer, h, Except.map]
      exact ⟨trivial, ⟨[], .refl _⟩, fun id hid => .inr hid⟩
    | ok made =>
      obtain ⟨a, m⟩ := made
      rw [Turn.answer_of_ledger h]
      obtain ⟨-, -, -, hm⟩ := Ledger.answer_eq_ok h
      refine ⟨rfl, ⟨[a], .answer (.inl rfl) h⟩, fun id hid => ?_⟩
      have hmem : id ∈ m.answered := hid
      rw [hm] at hmem
      exact List.mem_cons.mp hmem
  · exact ⟨rfl, ⟨[], .refl _⟩, fun id hid => .inr hid⟩

/-- The scripts of a caller are given up and the call that asked for it is replied to. -/
lemma Serves.clear (h : u.Serves x) (hopens : u.Opens t) (hc : c ∈ u.ledger.made)
    (hnew : c ∉ accepted u.history) :
    (x.clear c t).2.1.Kept (Scripting.repliedTo c (x.clear c t).1 (x.clear c t).2.2).ledger
      (Scripting.repliedTo c (x.clear c t).1 (x.clear c t).2.2).scripts := by
  obtain ⟨hkept, hcancellation, -⟩ := (h.kept_of_opens hopens).clear c
  obtain ⟨hscripts, ⟨cs, hexchange⟩, hanswered⟩ :=
    repliedTo_facts c (x.clear c t).1 (x.clear c t).2.2
  rw [hscripts]
  refine ⟨hkept.sorted, hkept.books.elsewhere hexchange ?_, hkept.resting⟩
  intro d hd hreply hmem
  refine (hanswered d.matchId hmem).resolve_left fun hnumber => ?_
  rw [hcancellation.scripts, accepted_append, accepted_cancelled, List.append_nil,
    hopens.scripts] at hd
  have hsame : d = c :=
    h.kept.books.valid.eq_of_number (h.kept.books.made d hd) hc hnumber
  exact hnew (hsame ▸ hd)

/-- A call to a unit that serves scripts. -/
lemma Serves.invoke (h : u.Serves x) (hopens : u.Opens t) (hadmits : u.Admits (.invoke c))
    (hrests : ¬Stuck ((Task.invoke c).run s u.node t).2.scripts) :
    ∃ x', (after ((Task.invoke c).run s u.node t)).Serves x' := by
  have hkept := h.kept_of_opens hopens
  have hout : ((Task.invoke c).run s u.node t) =
      u.node.withIteration (u.node.iteration.invoke s c t).2 := rfl
  rw [hout] at hrests ⊢
  by_cases heval : c.target.id.text = "eval"
  · cases hresponse : c.isResponse with
    | true =>
      rw [Scripting.invoke_receive h.members h.executes heval hresponse] at hrests ⊢
      have hnext := hkept.receive (s := s) hresponse fun d hd => hrests ⟨_, hd, rfl⟩
      exact ⟨_, ⟨Scripting.executes_write h.executes _, hnext⟩, h.members⟩
    | false =>
      obtain ⟨hmade, hunanswered, hnew⟩ := hadmits.resolve_left (by simp [hresponse])
      rw [Scripting.invoke_eval h.members h.executes heval hresponse] at hrests ⊢
      rw [← hopens.ledger] at hmade hunanswered
      rw [← hopens.scripts] at hnew
      have hnext := hkept.eval (s := s) hmade hnew hunanswered fun d hd => hrests ⟨_, hd, rfl⟩
      exact ⟨_, ⟨Scripting.executes_write h.executes _, hnext⟩, h.members⟩
  · by_cases hclear : c.target.id.text = "clear" ∧ c.isRequest = true
    · obtain ⟨htarget, hrequest⟩ := hclear
      have hresponse : c.isResponse ≠ true := by
        cases hkind : c.kind <;> simp_all [Call.isRequest, Call.isResponse]
      obtain ⟨hmade, -, hnew⟩ := hadmits.resolve_left hresponse
      rw [Scripting.invoke_clear h.members h.executes htarget hrequest]
      exact ⟨_, ⟨Scripting.executes_write h.executes _, h.clear hopens hmade hnew⟩, h.members⟩
    · have hnoclear : c.target.id.text = "clear" → c.isRequest = false := by
        intro htarget
        simpa using fun hrequest => hclear ⟨htarget, hrequest⟩
      rw [Scripting.invoke_other h.members heval hnoclear]
      exact ⟨x, h.alike hopens h.members h.executes (.refl t)⟩

/-- The same behavior is put in place anew. -/
lemma Serves.install {next : Iteration} {active : Bool} (h : u.Serves x) (hopens : u.Opens t)
    (hnext : IsNew next) : (after (u.node.install s next active t)).Serves x := by
  obtain ⟨hnewMembers, -⟩ := hnext.facts
  obtain ⟨hmembers, hexecutes, halike⟩ :=
    Scripting.attach_takesOver s hnewMembers h.members h.executes t
  obtain ⟨hiteration, hactive⟩ := install_iteration active hmembers
  refine h.alike hopens ?_ ?_ (halike.trans hactive)
  · rw [hiteration]
    exact hmembers
  · rw [hiteration]
    exact hexecutes

/-- A unit that serves scripts goes on to do so, whatever turn it is given. -/
lemma Serves.turn {k : Task} (h : u.Serves x) (hopens : u.Opens t) (hadmits : u.Admits k)
    (hrests : ¬Stuck (k.run s u.node t).2.scripts) :
    ∃ x', (after (k.run s u.node t)).Serves x' := by
  cases k with
  | invoke c => exact h.invoke hopens hadmits hrests
  | install next active => exact ⟨x, h.install hopens hadmits⟩
  | dispose => exact hadmits.elim
  | activate => exact ⟨x, h.idle hopens (activate_alike h.members s t)⟩
  | stop => exact ⟨x, h.idle hopens (Scripting.runHook_alike s (m := .stop) nofun h.members t)⟩
  | reset => exact ⟨x, h.idle hopens (Scripting.runHook_alike s (m := .reset) nofun h.members t)⟩
  | tick =>
    have hnothing : u.node.iteration.tick s t = (u.node.iteration, t) := by
      unfold Iteration.tick
      rw [h.members]
      rfl
    refine ⟨x, h.idle hopens ?_⟩
    change (u.node.iteration.tick s t).1 = _ ∧ Scripting.Alike t (u.node.iteration.tick s t).2
    rw [hnothing]
    exact ⟨rfl, .refl t⟩
  | receive port values =>
    have hnothing : u.node.iteration.receive s port values t = (u.node.iteration, t) := by
      unfold Iteration.receive
      rw [h.members]
      rfl
    refine ⟨x, h.idle hopens ?_⟩
    change (u.node.iteration.receive s port values t).1 = _ ∧
      Scripting.Alike t (u.node.iteration.receive s port values t).2
    rw [hnothing]
    exact ⟨rfl, .refl t⟩

/-- In every run the unit keeps an executor whose books are kept. -/
lemma Run.keeps (h : Run u) : ∃ x, u.Keeps x := by
  induction h with
  | @install s n next active t hnext hvacant hvalid =>
    obtain ⟨hnewMembers, hcells⟩ := hnext.facts
    obtain ⟨hmembers, hexecutes⟩ := Scripting.attach_new s hnewMembers hcells hvacant t
    obtain ⟨hiteration, -⟩ := install_iteration active hmembers
    obtain ⟨_, _, hexchange⟩ := (Turn.hookRule_course.task (.install next active) s n t).exchange
    have hvalid' : (n.install s next active t).2.ledger.Valid := hvalid.steps hexchange.1
    have hkept : ScriptExecutor.new.Kept (n.install s next active t).2.ledger [] := by
      refine ⟨trivial, ?_, fun key context hfind => by contradiction⟩
      exact Books.empty hvalid'
    refine ⟨.new, ?_, hkept⟩
    change (n.install s next active t).1.iteration.cells.Executes .new
    rw [hiteration]
    exact hexecutes
  | turn hu hscripting hopens hadmits hrests ih =>
    obtain ⟨x, hx⟩ := ih
    have hserves : Serves _ x := ⟨hx, hscripting⟩
    obtain ⟨x', hx'⟩ := hserves.turn hopens hadmits hrests
    exact ⟨x', hx'.toKeeps⟩
  | @guest u s k t hu hopens hleaves ih =>
    obtain ⟨x, hx⟩ := ih
    obtain ⟨cs, -, hexchange⟩ := (Turn.hookRule_course.task k s u.node t).exchange
    rw [hopens.ledger] at hexchange
    have hhistory : (k.run s u.node t).2.scripts = u.history :=
      hleaves.scripts.trans hopens.scripts
    refine ⟨x, hleaves.executor x hx.executes, ?_⟩
    change x.Kept (k.run s u.node t).2.ledger (k.run s u.node t).2.scripts
    rw [hhistory]
    exact ⟨hx.kept.sorted, hx.kept.books.elsewhere hexchange hleaves.untouched, hx.kept.resting⟩
  | elsewhere hu hexchange huntouched ih =>
    obtain ⟨x, hx⟩ := ih
    exact ⟨x, hx.executes, hx.kept.sorted, hx.kept.books.elsewhere hexchange huntouched,
      hx.kept.resting⟩

/-! ## What holds in every run -/

/-- How a unit comes to give its executor up: it is disposed of, or another behavior is put in its
place that does not take the executor over and leaves the requests that have brought scripts alone.
The turn is that at the moment when the former members are disposed of. -/
inductive GivesUp (u : ScriptUnit) (s : Setting) (t : Turn) : Task → Turn → Prop
  | dispose : GivesUp u s t .dispose t
  | replace {next : Iteration} {active : Bool}
      (hnext : ∀ other, (Scripting.reference, ReferenceMember.typed other) ∈
        next.members.references → other.kind ≠ .executor)
      (huntouched : u.Untouched (Scripting.prepared s next u.node.iteration t).ledger) :
      GivesUp u s t (.install next active) (Scripting.prepared s next u.node.iteration t)

/-- How the turn ends in which the scripts of a caller have been given up: a request is told how
many they were. -/
def ToldCount (c : Call) (n : ℕ) (t t' : Turn) : Prop :=
  if c.expectsReply = true then
    ∃ a : Call, a.Answers c ∧ a.kind = .reply ∧ a.args = [.ofNat n] ∧
      t'.outbox.calls = t.outbox.calls ++ [a]
  else t' = t

/-- What happens to the scripts of a unit that has the behavior of script units. -/
structure Serving (u : ScriptUnit) (x : ScriptExecutor) : Prop where
  /-- A call that asks for it has the scripts of its caller given up, and no others. -/
  cleared : ∀ {s : Setting} {c : Call} {t : Turn}, u.Opens t → u.Admits (.invoke c) →
    c.target.id.text = "clear" → c.isRequest = true →
    ∃ t₁ x', ScriptExecutor.Cancellation (x.pendingOf (callerKey c)) t t₁ ∧
      ToldCount c (x.pendingOf (callerKey c)).length t₁ ((Task.invoke c).run s u.node t).2 ∧
      ((Task.invoke c).run s u.node t).1.iteration.cells.Executes x' ∧
      x'.pendingOf (callerKey c) = [] ∧
      ∀ key, key ≠ callerKey c → x'.contexts.find? key = x.contexts.find? key
  /-- With the executor all scripts are given up, and no request is left unanswered. -/
  ended : ∀ {s : Setting} {t t₁ : Turn} {k : Task}, u.Opens t → u.GivesUp s t k t₁ →
    ∃ t₂, ScriptExecutor.Cancellation x.allPending t₁ t₂ ∧
      Turn.Course t₂ (k.run s u.node t).2 ∧
      ∀ key, callsOf key (served t₂.ledger u.history) =
        (callsOf key (accepted u.history)).filter Call.expectsReply
  /-- A behavior that takes the executor over has it as it was, unless it replaces it itself, and no
  script is given up. -/
  carried : ∀ {s : Setting} {next : Iteration} {taker : ReferenceSpec} {t : Turn},
    (Named.names next.members.references).Nodup →
    (Scripting.reference, ReferenceMember.typed taker) ∈ next.members.references →
    taker.kind = .executor →
    (∀ id other, (id, ReferenceMember.typed other) ∈ next.members.references →
      id ≠ Scripting.reference → other.init.Spares) →
    (next.attach s u.node.iteration t).1.cells.Executes x ∧
      Scripting.Alike (Scripting.prepared s next u.node.iteration t)
        (next.attach s u.node.iteration t).2
  /-- An answer to a request of a script that is finished does nothing. -/
  late : ∀ {s : Setting} {a c r : Call} {t : Turn}, a.isResponse = true →
    c ∈ finished u.history → Sent u.history c r → a.matchId = r.matchId →
    ((Task.invoke a).run s u.node t).2 = t ∧
      ((Task.invoke a).run s u.node t).1.iteration.cells.Executes x

/-- What holds of a unit and its executor between two turns. -/
structure Orderly (u : ScriptUnit) (x : ScriptExecutor) : Prop where
  /-- The scripts of each caller are finished in the order of their arrival, and the others pending
  in this order, the running one first. -/
  complete : ∀ key, callsOf key (accepted u.history) =
    callsOf key (finished u.history) ++ x.pendingOf key
  distinct : (accepted u.history).Nodup
  /-- The requests of each caller that brought scripts are those answered, in the order of the
  answers, and those pending. -/
  answered : ∀ key, (callsOf key (accepted u.history)).filter Call.expectsReply =
    callsOf key (served u.ledger u.history) ++ (x.pendingOf key).filter Call.expectsReply
  once : u.ledger.answered.Nodup
  inOrder : InOrder u.history
  resting : ∀ key context, x.contexts.find? key = some context → context.Resting u.history
  serving : u.node.iteration.members = Scripting.members → u.Serving x

/-- A request that is told how many scripts were given up gets one answer. -/
lemma toldCount_repliedTo {l : Ledger} (hl : l.Valid)
    (hmade : c ∈ l.made) (hunanswered : c.matchId ∉ t.ledger.answered) (n : ℕ) :
    ToldCount c n t (Scripting.repliedTo c n t) := by
  unfold ToldCount Scripting.repliedTo
  split
  · next hreply =>
    have hrequest : c.kind = .request := by simpa [Call.expectsReply] using hreply
    obtain ⟨back, hback⟩ := Option.isSome_iff_exists.mp (hl.sourced c hmade hrequest)
    have hanswer : t.ledger.answer c .reply [.ofNat n] =
        .ok (⟨c.matchId, some c.target, back, c.time, .reply, [.ofNat n]⟩,
          { t.ledger with
            answered := c.matchId :: t.ledger.answered
            answers := (c, ⟨c.matchId, some c.target, back, c.time, .reply, [.ofNat n]⟩) ::
              t.ledger.answers }) := by
      simp [Ledger.answer, Ledger.answerTarget, hrequest, hback, hunanswered, Except.map]
    refine ⟨⟨c.matchId, some c.target, back, c.time, .reply, [.ofNat n]⟩,
      ⟨hrequest, rfl, rfl, rfl, hback.symm, rfl⟩, rfl, rfl, ?_⟩
    unfold Program.answerOn
    rw [Turn.answer_of_ledger hanswer]
    rfl
  · rfl

/-- The scripts of the caller that asks for it are given up. -/
lemma Serves.cleared (h : u.Serves x) (hopens : u.Opens t) (hadmits : u.Admits (.invoke c))
    (htarget : c.target.id.text = "clear") (hrequest : c.isRequest = true) :
    ∃ t₁ x', ScriptExecutor.Cancellation (x.pendingOf (callerKey c)) t t₁ ∧
      ToldCount c (x.pendingOf (callerKey c)).length t₁ ((Task.invoke c).run s u.node t).2 ∧
      ((Task.invoke c).run s u.node t).1.iteration.cells.Executes x' ∧
      x'.pendingOf (callerKey c) = [] ∧
      ∀ key, key ≠ callerKey c → x'.contexts.find? key = x.contexts.find? key := by
  have hresponse : c.isResponse ≠ true := by
    cases hkind : c.kind <;> simp_all [Call.isRequest, Call.isResponse]
  obtain ⟨hmade, hunanswered, hnew⟩ := hadmits.resolve_left hresponse
  obtain ⟨-, hcancellation, hcount, hnone, hothers⟩ := (h.kept_of_opens hopens).clear c
  have hout : ((Task.invoke c).run s u.node t) =
      u.node.withIteration (u.node.iteration.invoke s c t).2 := rfl
  rw [hout, Scripting.invoke_clear h.members h.executes htarget hrequest, ← hcount]
  refine ⟨(x.clear c t).2.2, (x.clear c t).2.1, hcancellation, ?_,
    Scripting.executes_write h.executes _, hnone, hothers⟩
  refine toldCount_repliedTo h.kept.books.valid hmade ?_ _
  intro hmem
  rcases hcancellation.answered c.matchId hmem with hmem | ⟨d, hd, hnumber⟩
  · rw [hopens.ledger] at hmem
    exact hunanswered hmem
  · have hpending := (h.kept.books.mem_pending hd).1
    have hsame : d = c :=
      h.kept.books.valid.eq_of_number (h.kept.books.made d hpending) hmade hnumber
    exact hnew (hsame ▸ hpending)

/-- When all scripts are given up at some moment of a turn, no request is left unanswered. -/
lemma Serves.clearAll (h : u.Serves x) {t₁ t₂ : Turn} (halike : Scripting.Alike t₁ t₂)
    {cs : List Call} (hexchange : Exchange u.ledger t₁.ledger cs)
    (huntouched : u.Untouched t₁.ledger) :
    ScriptExecutor.Cancellation x.allPending t₁ (x.clearAll t₂).2.2 ∧
      ∀ key, callsOf key (served (x.clearAll t₂).2.2.ledger u.history) =
        (callsOf key (accepted u.history)).filter Call.expectsReply := by
  have hbooks : Books x.pendingOf t₂.ledger u.history := by
    rw [halike.ledger]
    exact h.kept.books.elsewhere hexchange huntouched
  obtain ⟨hdone, hcancellation⟩ := h.kept.clearAll hbooks
  have haccepted : accepted (u.history ++ x.allPending.map fun c => ⟨c, .cancelled⟩) =
      accepted u.history := by
    rw [accepted_append, accepted_cancelled, List.append_nil]
  refine ⟨⟨?_, ?_, ?_⟩, ?_⟩
  · rw [← halike.scripts]
    exact hcancellation.scripts
  · rw [← halike.ledger]
    exact hcancellation.answered
  · rw [← halike.calls]
    exact hcancellation.sent
  · intro key
    have hserved := hdone.served key
    have hbalance := hdone.balance key
    rw [haccepted, List.append_nil] at hbalance
    rw [hbalance, ← hserved]
    unfold served
    rw [haccepted]

/-- With the executor all scripts are given up. -/
lemma Serves.ended (h : u.Serves x) (hopens : u.Opens t) {t₁ : Turn} {k : Task}
    (hends : u.GivesUp s t k t₁) :
    ∃ t₂, ScriptExecutor.Cancellation x.allPending t₁ t₂ ∧
      Turn.Course t₂ (k.run s u.node t).2 ∧
      ∀ key, callsOf key (served t₂.ledger u.history) =
        (callsOf key (accepted u.history)).filter Call.expectsReply := by
  cases hends with
  | dispose =>
    obtain ⟨t₂, halike, hcourse⟩ := Scripting.dispose_executor s h.members h.executes t
    have hexchange : Exchange u.ledger t.ledger [] := hopens.ledger ▸ .refl _
    have huntouched : u.Untouched t.ledger := by
      rw [hopens.ledger]
      exact fun _ _ _ hmem => hmem
    obtain ⟨hcancellation, hserved⟩ := h.clearAll halike hexchange huntouched
    exact ⟨_, hcancellation, hcourse, hserved⟩
  | @replace next active hnext huntouched =>
    obtain ⟨t₂, halike, hcourse⟩ :=
      Scripting.attach_executor s h.members h.executes hnext t
    obtain ⟨cs, -, hexchange⟩ := (Scripting.course_prepared s next u.node.iteration t).exchange
    rw [hopens.ledger] at hexchange
    obtain ⟨hcancellation, hserved⟩ := h.clearAll halike hexchange huntouched
    refine ⟨_, hcancellation, Turn.hookRule_course.trans hcourse ?_, hserved⟩
    change Turn.Course _ (u.node.install s next active t).2
    unfold Node.install Node.withIteration
    simp only
    split
    · exact Turn.hookRule_course.activate ..
    · exact Turn.hookRule_course.refl _

/-- An answer to a request of a script that is finished does nothing. -/
lemma Serves.late (h : u.Serves x) {a r : Call}
    (hresponse : a.isResponse = true) (hc : c ∈ finished u.history) (hr : Sent u.history c r)
    (hnumber : a.matchId = r.matchId) :
    ((Task.invoke a).run s u.node t).2 = t ∧
      ((Task.invoke a).run s u.node t).1.iteration.cells.Executes x := by
  have hout : ((Task.invoke a).run s u.node t) =
      u.node.withIteration (u.node.iteration.invoke s a t).2 := rfl
  rw [hout]
  by_cases heval : a.target.id.text = "eval"
  · rw [Scripting.invoke_receive h.members h.executes heval hresponse]
    have hstray : x.receive s a t = (false, x, t) := by
      refine h.kept.receive_stray s t fun key context job hfind hjob => ?_
      rw [hnumber]
      exact h.kept.awaiting_ne_of_finished hc hr hfind hjob
    rw [hstray]
    exact ⟨rfl, Scripting.executes_write h.executes x⟩
  · have hnoclear : a.target.id.text = "clear" → a.isRequest = false := by
      intro _
      cases hkind : a.kind <;> simp_all [Call.isRequest, Call.isResponse]
    rw [Scripting.invoke_other h.members heval hnoclear]
    exact ⟨rfl, h.executes⟩

/-- In every run of a unit that runs scripts, in which every script that is started comes to rest:
each accepted script is finished or pending, the scripts of each caller run and are answered in the
order of their arrival and once each, between two turns a caller with scripts has one that is
suspended on a request of its, scripts that are given up are cancelled once each and in order, and
what comes too late for them changes nothing. -/
theorem served_in_order (h : Run u) :
    ∃ x, u.node.iteration.cells.Executes x ∧ u.Orderly x := by
  obtain ⟨x, hx⟩ := h.keeps
  have hbooks := hx.kept.books
  have hserving (hscripting : u.node.iteration.members = Scripting.members) : u.Serving x := by
    have hserves : u.Serves x := ⟨hx, hscripting⟩
    refine ⟨hserves.cleared, fun hopens hends => hserves.ended hopens hends, ?_,
      fun hresponse hc hr => hserves.late hresponse hc hr⟩
    intro s next taker t hnames htaker hkind hinit
    exact Scripting.attach_carries s hscripting hx.executes hnames htaker hkind hinit t
  refine ⟨x, hx.executes, hbooks.balance, hbooks.distinct, ?_, hbooks.valid.once, hbooks.inOrder,
    hx.kept.resting, hserving⟩
  intro key
  rw [hbooks.balance, List.filter_append, hbooks.served]

/-- The name of the unit below can be used in paths. -/
lemma isId_hall : isId "hall".toList = true := by decide

/-- The name of the control that takes scripts can be used in endpoints. -/
lemma isEndpointId_eval : isEndpointId "eval".toList = true := by decide

/-- The name of a control that scripts are sent from can be used in endpoints. -/
lemma isEndpointId_door : isEndpointId "door".toList = true := by decide

/-- The unit that runs the scripts of the errands below. -/
def hall : Path := ⟨⟨"hall", isId_hall⟩, []⟩

/-- A request that brings a script. -/
def errand (number : ℕ) (script : String) : Call where
  matchId := number
  source := some ⟨hall, ⟨"door", isEndpointId_door⟩⟩
  target := ⟨hall, ⟨"eval", isEndpointId_eval⟩⟩
  time := 0
  kind := .request
  args := [.text script]

/-- What the hall knows in its turns. -/
def hallSetting : Setting := ⟨some hall, 0, [], .info⟩

/-- The hall before it runs scripts. -/
def hallNode : Node := { address := hall, parent := none, kind := .component, typeName := "hall" }

/-- The behavior of script units, before it is in place. -/
def hallIteration : Iteration where
  members := Scripting.members
  cells := Iteration.initialCells Scripting.members

/-- A turn after two errands were sent; the first one waits for an answer from a clock. -/
def hallTurn : Turn :=
  { ledger := ⟨3, [], [errand 2 "set done yes", errand 1 "/hall.time"], []⟩ }

/-- The hall when it begins to run scripts. -/
def readyHall : ScriptUnit where
  node := (hallNode.install hallSetting hallIteration true hallTurn).1
  ledger := (hallNode.install hallSetting hallIteration true hallTurn).2.ledger

/-- A unit after a call has come to it. -/
def visited (u : ScriptUnit) (c : Call) : ScriptUnit :=
  after ((Task.invoke c).run hallSetting u.node { ledger := u.ledger, scripts := u.history })

/-- A call leaves the members of a unit as they are. -/
lemma members_visited (u : ScriptUnit) (c : Call) :
    (visited u c).node.iteration.members = u.node.iteration.members := by
  change (u.node.iteration.invoke hallSetting c _).2.1.members = _
  unfold Iteration.invoke
  split <;> rfl

/-- A call may come to a unit when the script that it brings, or goes on with, comes to rest. -/
lemma Run.visited (h : Run u) (hscripting : u.node.iteration.members = Scripting.members)
    (hadmits : u.Admits (.invoke c)) (hrests : ¬Stuck (visited u c).history) :
    Run (visited u c) :=
  .turn h hscripting ⟨rfl, rfl⟩ hadmits hrests

/-- The hall with both errands: the second one waits until the first one is done. -/
def busyHall : ScriptUnit :=
  visited (visited readyHall (errand 1 "/hall.time")) (errand 2 "set done yes")

/-- A run in which a unit is brought two scripts. -/
theorem served_in_order_busyHall :
    Run busyHall ∧ accepted busyHall.history = [errand 1 "/hall.time", errand 2 "set done yes"] ∧
      finished busyHall.history = [] ∧
      ∃ x, busyHall.node.iteration.cells.Executes x ∧ busyHall.Orderly x := by
  have hvalid : hallTurn.ledger.Valid := by
    refine ⟨by decide, by decide, by decide, by decide, rfl, List.nodup_nil, ?_⟩
    intro e he
    contradiction
  have hvacant : IsVacant hallNode := by
    intro r hr
    contradiction
  have hready : Run readyHall := .install ⟨hallIteration, rfl, rfl, rfl⟩ hvacant hvalid
  have hfirst : Run (ScriptUnit.visited readyHall (errand 1 "/hall.time")) := by
    refine hready.visited rfl (.inr ⟨?_, ?_, ?_⟩) ?_
    · decide +kernel
    · decide +kernel
    · decide +kernel
    · decide +kernel
  have hsecond : Run busyHall := by
    refine hfirst.visited (members_visited readyHall _) (.inr ⟨?_, ?_, ?_⟩) ?_
    · decide +kernel
    · decide +kernel
    · decide +kernel
    · decide +kernel
  exact ⟨hsecond, by decide +kernel, by decide +kernel, served_in_order hsecond⟩

end ScriptUnit

end Switchboard
