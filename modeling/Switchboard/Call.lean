import Switchboard.Value.Views
import Switchboard.Error

/-!
# Calls

A call is a message to an endpoint. Each request has a number of its own, the match id, which its
answer carries too; a ledger hands the numbers out and notes which requests have been answered.
Main statement: an answer that the ledger has admitted is not admitted again.
-/

namespace Switchboard

/-- What a call is for. -/
inductive CallKind where
  /-- A request whose sender waits for an answer. -/
  | request
  /-- A request that is never answered. -/
  | quiet
  | reply
  | error
deriving DecidableEq

/-- A message to an endpoint. -/
structure Call where
  matchId : Nat
  source : Option Endpoint
  target : Endpoint
  time : Int64
  kind : CallKind
  args : List Value
deriving DecidableEq

namespace Call

/-- The argument at a position, absent behind the last. -/
def argAt (c : Call) (i : Nat) : Value := Switchboard.argAt c.args i

/-- Requests are the calls that ask for something, whether or not they want an answer. -/
def isRequest (c : Call) : Bool := c.kind == .request || c.kind == .quiet

/-- Responses are replies and errors. -/
def isResponse (c : Call) : Bool := c.kind == .reply || c.kind == .error

/-- A quiet request wants no answer. -/
def expectsReply (c : Call) : Bool := c.kind == .request

end Call

/-- The match ids given out so far and those of the answered requests. -/
structure Ledger where
  /-- The match id of the next request. It is a natural number and not one of 64 bits, with which it
  would begin again from zero; the two differ only after `2 ^ 64` requests. -/
  nextId : Nat := 1
  answered : List Nat := []
  /-- All requests that were made, the last one first. Nothing depends on it. -/
  made : List Call := []
  /-- Every request that has been answered with the answer made for it, the last one first. Nothing
  depends on it. -/
  answers : List (Call × Call) := []
deriving DecidableEq

namespace Ledger

/-- A request from one endpoint to another, with a match id of its own. -/
def request (l : Ledger) (target source : Endpoint) (time : Int64) (args : List Value) :
    Call × Ledger :=
  let c : Call := ⟨l.nextId, some source, target, time, .request, args⟩
  (c, { l with nextId := l.nextId + 1, made := c :: l.made })

/-- A request without answer; its source is for information only. -/
def quiet (l : Ledger) (target : Endpoint) (source : Option Endpoint) (time : Int64)
    (args : List Value) : Call × Ledger :=
  let c : Call := ⟨l.nextId, source, target, time, .quiet, args⟩
  (c, { l with nextId := l.nextId + 1, made := c :: l.made })

/-- Whether the request that a call is has been answered. -/
def isAnswered (l : Ledger) (c : Call) : Bool := c.kind == .request && l.answered.contains c.matchId

/-- Where the answer to a call goes, if it may be answered now. -/
def answerTarget (l : Ledger) (c : Call) : Except CallError Endpoint :=
  match c.kind with
  | .quiet => .error (.quietRequest c.matchId)
  | .reply => .error (.notARequest c.matchId)
  | .error => .error (.notARequest c.matchId)
  | .request =>
    match c.source with
    | none => .error (.noSource c.matchId)
    | some target =>
      if l.answered.contains c.matchId then .error (.alreadyAnswered c.matchId) else .ok target

/-- The answer of the given kind to a request, which is answered from then on. -/
def answer (l : Ledger) (c : Call) (kind : CallKind) (args : List Value) :
    Except CallError (Call × Ledger) :=
  (l.answerTarget c).map fun target =>
    let a : Call := ⟨c.matchId, some c.target, target, c.time, kind, args⟩
    (a, { l with answered := c.matchId :: l.answered, answers := (c, a) :: l.answers })

/-- Answers a request with values. -/
def reply (l : Ledger) (c : Call) (args : List Value) : Except CallError (Call × Ledger) :=
  l.answer c .reply args

/-- Answers a request with an error of the given arguments. -/
def errorWith (l : Ledger) (c : Call) (args : List Value) : Except CallError (Call × Ledger) :=
  l.answer c .error args

/-- Answers a request with a fault. -/
def error (l : Ledger) (c : Call) (fault : Fault) : Except CallError (Call × Ledger) :=
  l.errorWith c [.fault fault]

/-- The answer to a call goes back to where the call came from; with it the call is entered among
the answered ones. -/
theorem answer_eq_ok {l m : Ledger} {c a : Call} {kind : CallKind} {args : List Value}
    (h : l.answer c kind args = .ok (a, m)) :
    c.kind = .request ∧ c.matchId ∉ l.answered ∧
      (∃ back, c.source = some back ∧ a = ⟨c.matchId, some c.target, back, c.time, kind, args⟩) ∧
      m = { l with answered := c.matchId :: l.answered, answers := (c, a) :: l.answers } := by
  unfold answer answerTarget at h
  cases hk : c.kind <;> simp only [hk, Except.map] at h <;> try contradiction
  cases hs : c.source with
  | none => simp [hs] at h
  | some back =>
    rw [hs] at h
    by_cases ha : c.matchId ∈ l.answered
    · simp [ha] at h
    · simp only [List.contains_eq_mem, ha, decide_false, Bool.false_eq_true, ↓reduceIte,
        Except.ok.injEq, Prod.mk.injEq] at h
      obtain ⟨rfl, rfl⟩ := h
      exact ⟨rfl, ha, ⟨back, rfl, rfl⟩, rfl⟩

/-- A request that was answered counts as answered from then on. -/
theorem isAnswered_of_answer {l : Ledger} {c a : Call} {kind : CallKind} {args : List Value}
    {m : Ledger} (h : l.answer c kind args = .ok (a, m)) : m.isAnswered c = true := by
  obtain ⟨hk, -, -, rfl⟩ := answer_eq_ok h
  simp [isAnswered, hk]

/-- An answered request is not answered again. -/
theorem answer_of_isAnswered {l : Ledger} {c : Call} (h : l.isAnswered c = true)
    (kind : CallKind) (args : List Value) :
    ∃ e, l.answer c kind args = .error e := by
  simp only [isAnswered, Bool.and_eq_true, beq_iff_eq] at h
  unfold answer answerTarget
  cases hs : c.source <;> simp [h.1, Except.map] at h ⊢
  simp [h]

end Ledger

end Switchboard
