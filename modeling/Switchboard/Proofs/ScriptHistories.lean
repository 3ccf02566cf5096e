import Mathlib
import Switchboard.Executor
import Switchboard.Proofs.Answers
import Switchboard.Proofs.Awaiting

/-!
# Histories of scripts

The history of an executor says what has become of each script, in order.  From it are read the
calls whose scripts have been accepted and those whose scripts are finished, for each caller apart.

`Books` relates a history to the ledger and to the calls whose scripts are pending.  For each caller
the accepted calls are the finished ones followed by the pending ones, and the finished ones are
those that have been answered.  One lemma for each kind of event says how the books go on
(`Books.accept`, `Books.ran`, `Books.resume`, `Books.finish`), and one says that nothing else that
happens to the ledger concerns them (`Books.elsewhere`).
-/

namespace Switchboard

open ScriptExecutor (callerKey)

/-! ## Fates -/

namespace ScriptFate

/-- Whether a script is finished with this. -/
def isEnd : ScriptFate → Bool
  | .ended | .cancelled => true
  | .accepted | .ran _ | .resumed _ | .stuck => false

/-- Whether this happens only to the first script of a caller that is not finished. -/
def isTurn : ScriptFate → Bool
  | .ran _ | .ended | .cancelled => true
  | .accepted | .resumed _ | .stuck => false

/-- The requests that were sent. -/
def sent : ScriptFate → List Call
  | .ran sent => sent
  | .accepted | .resumed _ | .ended | .cancelled | .stuck => []

end ScriptFate

/-- Those of some calls that come from one caller. -/
def callsOf (key : String) (cs : List Call) : List Call := cs.filter fun c => callerKey c = key

section callsOf

variable {key : String} {c : Call} {cs ds : List Call}

/-- The calls of a caller among more calls. -/
@[simp]
lemma callsOf_append : callsOf key (cs ++ ds) = callsOf key cs ++ callsOf key ds :=
  List.filter_append ..

/-- A call of the caller. -/
lemma callsOf_self (c : Call) : callsOf (callerKey c) [c] = [c] := by
  simp [callsOf]

/-- A call of another caller. -/
lemma callsOf_of_ne (h : callerKey c ≠ key) : callsOf key [c] = [] := by
  simp [callsOf, h]

/-- The calls of a caller. -/
lemma mem_callsOf : c ∈ callsOf key cs ↔ c ∈ cs ∧ callerKey c = key := by
  simp [callsOf]

end callsOf

namespace ScriptHistory

/-! ## Reading histories -/

/-- The calls whose scripts were accepted, in order. -/
def accepted (H : List ScriptEvent) : List Call :=
  (H.filter fun e => e.fate = .accepted).map ScriptEvent.call

/-- The calls whose scripts are finished, in the order in which they came to their end. -/
def finished (H : List ScriptEvent) : List Call :=
  (H.filter fun e => e.fate.isEnd).map ScriptEvent.call

/-- The requests that scripts have sent, in order. -/
def sent (H : List ScriptEvent) : List Call := H.flatMap fun e => e.fate.sent

/-- The accepted calls that have been answered, in the order of their answers. -/
def served (l : Ledger) (H : List ScriptEvent) : List Call :=
  (l.answers.reverse.map Prod.fst).filter fun c => c ∈ accepted H

/-- Whether the script of a call has sent a request. -/
def Sent (H : List ScriptEvent) (c r : Call) : Prop := ∃ cs, ⟨c, .ran cs⟩ ∈ H ∧ r ∈ cs

/-- Whether the script of a call has sent a request of this number to which it has not been handed
an answer. -/
def Outstanding (H : List ScriptEvent) (c : Call) (id : ℕ) : Prop :=
  (∃ r, Sent H c r ∧ r.matchId = id) ∧ ∀ d a, ⟨d, .resumed a⟩ ∈ H → a.matchId ≠ id

/-- Whether the scripts of each caller run and come to their end in the order of their arrival. When
it is the turn of a script, those of its caller that arrived before it are finished, and no other
one. -/
def InOrder (H : List ScriptEvent) : Prop :=
  ∀ before e after, H = before ++ e :: after → e.fate.isTurn = true →
    ∃ rest, callsOf (callerKey e.call) (accepted before) =
      callsOf (callerKey e.call) (finished before) ++ e.call :: rest

variable {H K : List ScriptEvent} {c d r : Call} {fate : ScriptFate} {l m : Ledger}

/-- What was accepted in a longer history. -/
@[simp]
lemma accepted_append : accepted (H ++ K) = accepted H ++ accepted K := by
  simp [accepted]

/-- What was finished in a longer history. -/
@[simp]
lemma finished_append : finished (H ++ K) = finished H ++ finished K := by
  simp [finished]

/-- What was sent in a longer history. -/
@[simp]
lemma sent_append : sent (H ++ K) = sent H ++ sent K := List.flatMap_append ..

/-- A script is accepted. -/
@[simp]
lemma accepted_accepted : accepted [⟨c, .accepted⟩] = [c] := by
  simp [accepted]

/-- Something else happens to a script. -/
lemma accepted_of_ne (h : fate ≠ .accepted) : accepted [⟨c, fate⟩] = [] := by
  simp [accepted, h]

/-- A script comes to its end. -/
lemma finished_of_isEnd (h : fate.isEnd = true) : finished [⟨c, fate⟩] = [c] := by
  simp [finished, h]

/-- A script does not come to its end. -/
lemma finished_of_not_isEnd (h : fate.isEnd = false) : finished [⟨c, fate⟩] = [] := by
  simp [finished, h]

/-- What one script has sent. -/
@[simp]
lemma sent_singleton : sent [⟨c, fate⟩] = fate.sent := by
  simp [sent]

/-- Scripts that are given up are not accepted with it. -/
lemma accepted_cancelled (cs : List Call) :
    accepted (cs.map fun c => ⟨c, .cancelled⟩) = [] := by
  simp [accepted, List.filter_map, Function.comp_def]

/-- Requests that were sent by some script. -/
lemma Sent.mem_sent (h : Sent H c r) : r ∈ sent H := by
  obtain ⟨cs, hcs, hr⟩ := h
  exact List.mem_flatMap.mpr ⟨_, hcs, hr⟩

/-- A request that was sent has been sent in a longer history. -/
lemma Sent.append (h : Sent H c r) (K : List ScriptEvent) : Sent (H ++ K) c r := by
  obtain ⟨cs, hcs, hr⟩ := h
  exact ⟨cs, List.mem_append_left K hcs, hr⟩

/-- Where all requests have numbers of their own, a request was sent by one script. -/
lemma Sent.unique (hnumbers : ((sent H).map Call.matchId).Nodup) {r' : Call} (h : Sent H c r)
    (h' : Sent H d r') (hnumber : r.matchId = r'.matchId) : c = d := by
  induction H with
  | nil =>
    obtain ⟨cs, hcs, -⟩ := h
    contradiction
  | cons e H ih =>
    have hsplit : sent (e :: H) = e.fate.sent ++ sent H := List.flatMap_cons ..
    rw [hsplit, List.map_append] at hnumbers
    have hrest := (List.nodup_append'.mp hnumbers).2.1
    have hapart := (List.nodup_append'.mp hnumbers).2.2
    obtain ⟨cs, hcs, hr⟩ := h
    obtain ⟨ds, hds, hr'⟩ := h'
    rcases List.mem_cons.mp hcs with rfl | hold <;> rcases List.mem_cons.mp hds with heq | hold'
    · cases heq
      rfl
    · have hlater : r'.matchId ∈ (sent H).map Call.matchId :=
        List.mem_map_of_mem (Sent.mem_sent ⟨ds, hold', hr'⟩)
      exact absurd hlater (hapart (hnumber ▸ List.mem_map_of_mem hr))
    · subst heq
      have hlater : r.matchId ∈ (sent H).map Call.matchId :=
        List.mem_map_of_mem (Sent.mem_sent ⟨cs, hold, hr⟩)
      exact absurd hlater (hapart (hnumber ▸ List.mem_map_of_mem hr'))
    · exact ih hrest ⟨cs, hold, hr⟩ ⟨ds, hold', hr'⟩

/-- Every script may be taken in at any time, and may be handed an answer. -/
lemma InOrder.snoc (h : InOrder H) {e : ScriptEvent}
    (he : e.fate.isTurn = true →
      ∃ rest, callsOf (callerKey e.call) (accepted H) =
        callsOf (callerKey e.call) (finished H) ++ e.call :: rest) :
    InOrder (H ++ [e]) := by
  intro before f after hsplit hturn
  rcases List.eq_nil_or_concat after with rfl | ⟨after, g, rfl⟩
  · obtain ⟨rfl, heq⟩ := List.append_inj' hsplit rfl
    cases heq
    exact he hturn
  · have hsplit' : H ++ [e] = (before ++ f :: after) ++ [g] := by
      rw [hsplit, List.concat_eq_append, List.append_assoc, List.cons_append]
    obtain ⟨hH, -⟩ := List.append_inj' hsplit' rfl
    exact h before f after hH hturn

/-! ## Books -/

/-- How the ledger is after a call has been answered, if it is to be answered. -/
def Concluded (c : Call) (l m : Ledger) : Prop :=
  if c.expectsReply = true then
    ∃ kind args a, (kind = .reply ∨ kind = .error) ∧ l.answer c kind args = .ok (a, m)
  else m = l

/-- When an accepted call has been answered, its number and the answer have been entered in the
ledger, unless it is not to be answered, and nothing else has changed. -/
lemma Concluded.facts (hm : Concluded c l m) (hl : l.Valid) (hc : c ∈ accepted H) :
    m.Valid ∧ m.made = l.made ∧ m.nextId = l.nextId ∧
      served m H = served l H ++ [c].filter Call.expectsReply ∧
      ∀ id ∈ m.answered, id = c.matchId ∨ id ∈ l.answered := by
  unfold Concluded at hm
  split at hm
  · next hreply =>
    obtain ⟨kind, args, a, hkind, hanswer⟩ := hm
    have hvalid := hl.answer hkind hanswer
    obtain ⟨-, -, -, rfl⟩ := Ledger.answer_eq_ok hanswer
    refine ⟨hvalid, rfl, rfl, ?_, fun id hid => List.mem_cons.mp hid⟩
    simp [served, List.filter_append, hc, hreply]
  · next hquiet =>
    subst hm
    refine ⟨hl, rfl, rfl, ?_, fun id hid => .inr hid⟩
    simp [hquiet]

/-- How a history fits the ledger and the calls whose scripts are pending, for each caller. -/
structure Books (pending : String → List Call) (l : Ledger) (H : List ScriptEvent) : Prop where
  valid : l.Valid
  balance : ∀ key, callsOf key (accepted H) = callsOf key (finished H) ++ pending key
  inOrder : InOrder H
  distinct : (accepted H).Nodup
  made : ∀ c ∈ accepted H, c ∈ l.made
  served : ∀ key, callsOf key (served l H) = (callsOf key (finished H)).filter Call.expectsReply
  unanswered : ∀ key, ∀ c ∈ pending key, c.expectsReply = true → c.matchId ∉ l.answered
  numbers : ((sent H).map Call.matchId).Nodup
  fresh : ∀ r ∈ sent H, r.matchId < l.nextId
  resumed : ∀ d a, ⟨d, .resumed a⟩ ∈ H → a.matchId < l.nextId

namespace Books

variable {pending : String → List Call} {key : String} {rest : List Call}

/-- The books of an executor that has not been called. -/
lemma empty (hl : l.Valid) : Books (fun _ => []) l [] where
  valid := hl
  balance _ := rfl
  inOrder := by
    intro before e after h
    simp at h
  distinct := List.nodup_nil
  made := by simp [accepted]
  served _ := by simp [ScriptHistory.served, accepted, finished, callsOf]
  unanswered := by simp
  numbers := List.nodup_nil
  fresh := by simp [sent]
  resumed := by simp

/-- A pending call has been accepted, and comes from its caller. -/
lemma mem_pending (h : Books pending l H) (hc : c ∈ pending key) :
    c ∈ accepted H ∧ callerKey c = key := by
  have hmem : c ∈ callsOf key (accepted H) := by
    rw [h.balance]
    exact List.mem_append_right _ hc
  exact mem_callsOf.mp hmem

/-- The accepted calls of one caller are different. -/
lemma nodup_callsOf (h : Books pending l H) (key : String) :
    (callsOf key (finished H) ++ pending key).Nodup := by
  rw [← h.balance]
  exact h.distinct.filter _

/-- A pending call is not finished. -/
lemma not_finished (h : Books pending l H) (hc : c ∈ pending key) : c ∉ finished H := by
  intro hfinished
  have hkey := (h.mem_pending hc).2
  have hdisjoint := (List.nodup_append'.mp (h.nodup_callsOf key)).2.2
  exact hdisjoint (mem_callsOf.mpr ⟨hfinished, hkey⟩) hc

/-- A pending request can be answered. -/
lemma answer_eq_ok (h : Books pending l H) (hc : c ∈ pending key)
    (hreply : c.expectsReply = true) (kind : CallKind) (args : List Value) :
    ∃ back, c.source = some back ∧
      l.answer c kind args = .ok (⟨c.matchId, some c.target, back, c.time, kind, args⟩,
        { l with
          answered := c.matchId :: l.answered
          answers := (c, ⟨c.matchId, some c.target, back, c.time, kind, args⟩) :: l.answers }) := by
  have hkind : c.kind = .request := by simpa [Call.expectsReply] using hreply
  have hmade := h.made c (h.mem_pending hc).1
  obtain ⟨back, hback⟩ := Option.isSome_iff_exists.mp (h.valid.sourced c hmade hkind)
  have hnew := h.unanswered key c hc hreply
  refine ⟨back, hback, ?_⟩
  simp [Ledger.answer, Ledger.answerTarget, hkind, hback, hnew, Except.map]

/-- Two pending requests of different calls have different numbers. -/
lemma number_ne (h : Books pending l H) (hc : c ∈ accepted H) (hd : d ∈ accepted H) (hne : d ≠ c) :
    d.matchId ≠ c.matchId := by
  intro hnumber
  exact hne (h.valid.eq_of_number (h.made d hd) (h.made c hc) hnumber)

/-- A script is accepted. -/
lemma accept (h : Books pending l H) (hmade : c ∈ l.made) (hnew : c ∉ accepted H)
    (hanswered : c.matchId ∉ l.answered) :
    Books (Function.update pending (callerKey c) (pending (callerKey c) ++ [c])) l
      (H ++ [⟨c, .accepted⟩]) where
  valid := h.valid
  balance key := by
    have hfinished : finished [⟨c, .accepted⟩] = [] := finished_of_not_isEnd rfl
    rw [accepted_append, finished_append, hfinished, List.append_nil, accepted_accepted,
      callsOf_append, h.balance]
    by_cases hkey : key = callerKey c
    · subst hkey
      rw [Function.update_self, callsOf_self, List.append_assoc]
    · rw [Function.update_of_ne hkey, callsOf_of_ne (Ne.symm hkey), List.append_nil]
  inOrder := h.inOrder.snoc fun hturn => by contradiction
  distinct := by
    rw [accepted_append, accepted_accepted, List.nodup_append']
    refine ⟨h.distinct, List.nodup_singleton c, ?_⟩
    intro d hd hmem
    rw [List.mem_singleton.mp hmem] at hd
    exact hnew hd
  made := by
    intro d hd
    rw [accepted_append, accepted_accepted] at hd
    rcases List.mem_append.mp hd with hd | hd
    · exact h.made d hd
    · rw [List.mem_singleton.mp hd]
      exact hmade
  served key := by
    have hfinished : finished [⟨c, .accepted⟩] = [] := finished_of_not_isEnd rfl
    have hserved : ScriptHistory.served l (H ++ [⟨c, .accepted⟩]) = ScriptHistory.served l H := by
      refine List.filter_congr fun d hd => ?_
      obtain ⟨e, he, rfl⟩ := List.mem_map.mp hd
      have hne : e.1 ≠ c := by
        rintro rfl
        exact hanswered (h.valid.mem_answered.mpr ⟨e, List.mem_reverse.mp he, rfl⟩)
      simp [hne]
    rw [hserved, finished_append, hfinished, List.append_nil, h.served]
  unanswered := by
    intro key d hd hreply
    by_cases hkey : key = callerKey c
    · subst hkey
      rw [Function.update_self] at hd
      rcases List.mem_append.mp hd with hd | hd
      · exact h.unanswered _ d hd hreply
      · rw [List.mem_singleton.mp hd]
        exact hanswered
    · rw [Function.update_of_ne hkey] at hd
      exact h.unanswered key d hd hreply
  numbers := by
    rw [sent_append, sent_singleton, ScriptFate.sent, List.append_nil]
    exact h.numbers
  fresh := by
    rw [sent_append, sent_singleton, ScriptFate.sent, List.append_nil]
    exact h.fresh
  resumed := by
    intro d a hmem
    rcases List.mem_append.mp hmem with hmem | hmem
    · exact h.resumed d a hmem
    · simp at hmem

/-- Something happens to a script after which it is pending as before, and no call is answered. -/
lemma goOn (h : Books pending l H) (hnew : fate ≠ .accepted) (hgoes : fate.isEnd = false)
    (hturn : fate.isTurn = true → ∃ rest, pending (callerKey c) = c :: rest)
    (hvalid : m.Valid) (hanswers : m.answers = l.answers) (hmade : ∀ d ∈ l.made, d ∈ m.made)
    (hnumbers : ((sent (H ++ [⟨c, fate⟩])).map Call.matchId).Nodup)
    (hfresh : ∀ r ∈ sent (H ++ [⟨c, fate⟩]), r.matchId < m.nextId)
    (hresumed : ∀ d a, ⟨d, .resumed a⟩ ∈ H ++ [⟨c, fate⟩] → a.matchId < m.nextId) :
    Books pending m (H ++ [⟨c, fate⟩]) := by
  have haccepted : accepted (H ++ [⟨c, fate⟩]) = accepted H := by
    rw [accepted_append, accepted_of_ne hnew, List.append_nil]
  have hfinished : finished (H ++ [⟨c, fate⟩]) = finished H := by
    rw [finished_append, finished_of_not_isEnd hgoes, List.append_nil]
  have hserved : ScriptHistory.served m (H ++ [⟨c, fate⟩]) = ScriptHistory.served l H := by
    unfold ScriptHistory.served
    rw [hanswers, haccepted]
  have hanswered : m.answered = l.answered := by
    rw [hvalid.entered, h.valid.entered, hanswers]
  constructor
  case valid => exact hvalid
  case balance =>
    intro key
    rw [haccepted, hfinished, h.balance]
  case inOrder =>
    refine h.inOrder.snoc fun hfate => ?_
    obtain ⟨rest, hrest⟩ := hturn hfate
    exact ⟨rest, by rw [h.balance, hrest]⟩
  case distinct =>
    rw [haccepted]
    exact h.distinct
  case made =>
    intro d hd
    rw [haccepted] at hd
    exact hmade d (h.made d hd)
  case served =>
    intro key
    rw [hserved, hfinished, h.served]
  case unanswered =>
    rw [hanswered]
    exact h.unanswered
  case numbers => exact hnumbers
  case fresh => exact hfresh
  case resumed => exact hresumed

/-- The first pending script of a caller has run and has sent requests. -/
lemma ran (h : Books pending l H) (hc : pending (callerKey c) = c :: rest) {new : List Call}
    {w w' : Workspace} (hw : w.ledger = l) (hsends : w.Sends new w') (hvalid : w'.ledger.Valid) :
    Books pending w'.ledger (H ++ [⟨c, .ran new⟩]) := by
  have hnumbers := hsends.numbers
  have hledger := hsends.ledger
  rw [hw] at hnumbers hledger
  have hanswers : w'.ledger.answers = l.answers := by rw [hledger]
  have hmade : ∀ d ∈ l.made, d ∈ w'.ledger.made := by
    intro d hd
    rw [hledger]
    exact List.mem_append_right _ hd
  have hnext : w'.ledger.nextId = l.nextId + new.length := by rw [hledger]
  have hsent : sent (H ++ [⟨c, .ran new⟩]) = sent H ++ new := by
    rw [sent_append, sent_singleton]
    rfl
  have hrange : ∀ id ∈ new.map Call.matchId, l.nextId ≤ id ∧ id < l.nextId + new.length := by
    intro id hid
    rw [hnumbers] at hid
    exact List.mem_range'_1.mp hid
  refine h.goOn (by simp) rfl (fun _ => ⟨rest, hc⟩) hvalid hanswers hmade ?_ ?_ ?_
  · rw [hsent, List.map_append, List.nodup_append']
    refine ⟨h.numbers, hnumbers ▸ List.nodup_range', ?_⟩
    intro id hid hmem
    obtain ⟨r, hr, rfl⟩ := List.mem_map.mp hid
    have hold := h.fresh r hr
    have hlater := (hrange r.matchId hmem).1
    omega
  · intro r hr
    rw [hsent] at hr
    rw [hnext]
    rcases List.mem_append.mp hr with hr | hr
    · have hold := h.fresh r hr
      omega
    · exact (hrange r.matchId (List.mem_map_of_mem hr)).2
  · intro d a hmem
    rcases List.mem_append.mp hmem with hmem | hmem
    · have hold := h.resumed d a hmem
      omega
    · simp at hmem

/-- A script is handed the answer to a request of its. -/
lemma resume (h : Books pending l H) {a : Call} (ha : a.matchId < l.nextId) :
    Books pending l (H ++ [⟨c, .resumed a⟩]) := by
  have hsent : sent (H ++ [⟨c, .resumed a⟩]) = sent H := by simp [ScriptFate.sent]
  refine h.goOn (by simp) rfl (fun hturn => by contradiction) h.valid rfl (fun _ hd => hd) ?_ ?_ ?_
  · rw [hsent]
    exact h.numbers
  · rw [hsent]
    exact h.fresh
  · intro d b hmem
    rcases List.mem_append.mp hmem with hmem | hmem
    · exact h.resumed d b hmem
    · simp only [List.mem_singleton, ScriptEvent.mk.injEq, ScriptFate.resumed.injEq] at hmem
      rw [hmem.2]
      exact ha

/-- What is pending when the first script of a caller has come to its end was pending before, and is
another one. -/
lemma pending_of_update (h : Books pending l H) (hc : pending (callerKey c) = c :: rest)
    {key : String} (hd : d ∈ Function.update pending (callerKey c) rest key) :
    d ∈ pending key ∧ d ≠ c := by
  by_cases hkey : key = callerKey c
  · subst hkey
    rw [Function.update_self] at hd
    refine ⟨hc ▸ List.mem_cons_of_mem _ hd, ?_⟩
    rintro rfl
    have hnodup := (List.nodup_append'.mp (h.nodup_callsOf (callerKey d))).2.1
    rw [hc] at hnodup
    exact (List.nodup_cons.mp hnodup).1 hd
  · rw [Function.update_of_ne hkey] at hd
    refine ⟨hd, ?_⟩
    rintro rfl
    exact hkey (h.mem_pending hd).2.symm

/-- The first pending script of a caller comes to its end, and its call is answered. -/
lemma finish (h : Books pending l H) (hc : pending (callerKey c) = c :: rest)
    (hend : fate.isEnd = true) (hm : Concluded c l m) :
    Books (Function.update pending (callerKey c) rest) m (H ++ [⟨c, fate⟩]) := by
  have hmem : c ∈ pending (callerKey c) := by
    rw [hc]
    exact List.mem_cons_self
  have hpending := (h.mem_pending hmem).1
  have hne_accepted : fate ≠ .accepted := by
    rintro rfl
    contradiction
  have haccepted : accepted (H ++ [⟨c, fate⟩]) = accepted H := by
    rw [accepted_append, accepted_of_ne hne_accepted, List.append_nil]
  have hfinished : finished (H ++ [⟨c, fate⟩]) = finished H ++ [c] := by
    rw [finished_append, finished_of_isEnd hend]
  have hsent : sent (H ++ [⟨c, fate⟩]) = sent H := by
    have hnothing : fate.sent = [] := by cases fate <;> first | rfl | contradiction
    rw [sent_append, sent_singleton, hnothing, List.append_nil]
  obtain ⟨hvalid, hmade, hnext, hserved, hanswered⟩ := hm.facts h.valid hpending
  constructor
  case valid => exact hvalid
  case balance =>
    intro key
    rw [haccepted, hfinished, callsOf_append, h.balance]
    by_cases hkey : key = callerKey c
    · subst hkey
      rw [Function.update_self, callsOf_self, hc, List.append_assoc, List.singleton_append]
    · rw [Function.update_of_ne hkey, callsOf_of_ne (Ne.symm hkey), List.append_nil]
  case inOrder =>
    refine h.inOrder.snoc fun _ => ⟨rest, ?_⟩
    rw [h.balance, hc]
  case distinct =>
    rw [haccepted]
    exact h.distinct
  case made =>
    rw [haccepted, hmade]
    exact h.made
  case served =>
    intro key
    have hsame : ScriptHistory.served m (H ++ [⟨c, fate⟩]) = ScriptHistory.served m H := by
      unfold ScriptHistory.served
      rw [haccepted]
    rw [hsame, hserved, callsOf_append, h.served, hfinished, callsOf_append, List.filter_append]
    congr 1
    unfold callsOf
    rw [List.filter_filter, List.filter_filter]
    exact List.filter_congr fun d _ => Bool.and_comm ..
  case unanswered =>
    intro key d hd hreply hmem'
    have hold := h.pending_of_update hc hd
    rcases hanswered d.matchId hmem' with hnumber | hbefore
    · exact h.number_ne hpending (h.mem_pending hold.1).1 hold.2 hnumber
    · exact h.unanswered key d hold.1 hreply hbefore
  case numbers =>
    rw [hsent]
    exact h.numbers
  case fresh =>
    rw [hsent, hnext]
    exact h.fresh
  case resumed =>
    intro d a hmem'
    rw [hnext]
    rcases List.mem_append.mp hmem' with hmem' | hmem'
    · exact h.resumed d a hmem'
    · rw [List.mem_singleton] at hmem'
      cases hmem'
      contradiction

/-- What happens elsewhere changes nothing, as long as nobody else answers the calls that were
accepted. -/
lemma elsewhere (h : Books pending l H) {cs : List Call} (hexchange : Exchange l m cs)
    (hforeign : ∀ c ∈ accepted H, c.expectsReply = true → c.matchId ∈ m.answered →
      c.matchId ∈ l.answered) : Books pending m H := by
  obtain ⟨hsteps, as, has, -⟩ := hexchange
  have hvalid := h.valid.steps hsteps
  have hnext : l.nextId ≤ m.nextId := hsteps.nextId_le
  constructor
  case valid => exact hvalid
  case balance => exact h.balance
  case inOrder => exact h.inOrder
  case distinct => exact h.distinct
  case made =>
    intro c hc
    exact hsteps.made (h.made c hc)
  case served =>
    intro key
    have hnone : (as.reverse.map Prod.fst).filter (fun c => decide (c ∈ accepted H)) = [] := by
      rw [List.filter_eq_nil_iff]
      intro c hc hmem
      obtain ⟨e, he, rfl⟩ := List.mem_map.mp hc
      have he' : e ∈ as := List.mem_reverse.mp he
      have hmem' : e ∈ m.answers := by
        rw [has]
        exact List.mem_append_left _ he'
      have hreply : e.1.expectsReply = true := by
        simp [Call.expectsReply, (hvalid.fitting e hmem').request]
      have hbefore := hforeign e.1 (by simpa using hmem) hreply
        (hvalid.mem_answered.mpr ⟨e, hmem', rfl⟩)
      have honce := hvalid.once
      rw [hvalid.entered, has, List.map_append, ← h.valid.entered] at honce
      have hdisjoint := (List.nodup_append'.mp honce).2.2
      exact hdisjoint (List.mem_map_of_mem he') hbefore
    have hserved : ScriptHistory.served m H = ScriptHistory.served l H := by
      unfold ScriptHistory.served
      rw [has, List.reverse_append, List.map_append, List.filter_append, hnone, List.append_nil]
    rw [hserved, h.served]
  case unanswered =>
    intro key c hc hreply hanswered
    exact h.unanswered key c hc hreply
      (hforeign c (h.mem_pending hc).1 hreply hanswered)
  case numbers => exact h.numbers
  case fresh =>
    intro r hr
    exact (h.fresh r hr).trans_le hnext
  case resumed =>
    intro d a hmem
    exact (h.resumed d a hmem).trans_le hnext

end Books

end ScriptHistory

end Switchboard
