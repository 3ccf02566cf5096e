import Switchboard.Async
import Switchboard.Call

/-!
# Outstanding requests

A call table holds, for each request that somebody waits for, what is to happen with its answer: a
handle is given the outcome, or a callback is due. A strong table keeps its entries until they are
resolved or removed. A weak one drops, before each call that it handles, the entries whose owner has
gone; either kind drops those whose owner has cancelled.
-/

namespace Switchboard

/-- Whether a table keeps entries whose owner no longer holds the handle. -/
inductive Retention where
  | strong
  | weak
deriving DecidableEq

/-- What is to happen with an answer; a callback is known by a token of type `κ`. -/
inductive Continuation (κ : Type) where
  | handle (id : HandleId)
  | callback (token : κ)

/-- What became of a call that a table was given. -/
inductive Resolution where
  /-- A reply completed its entry. -/
  | completed
  /-- An error, a timeout or a reply that could not be converted failed its entry. -/
  | failed
  /-- There was no entry for the answer. -/
  | unexpected
  /-- The call is no answer, or nobody waits for it any more. -/
  | ignored
deriving DecidableEq

/-- The requests that are waited for. -/
structure CallTable (κ : Type) where
  retention : Retention
  /-- Turns the values of a reply into those of the outcome. -/
  convert : List Value → Outcome
  entries : List (Nat × Continuation κ)

/-- What handling a call comes to: the table and the handles afterwards, what became of the call,
and the callback that is due with its outcome. -/
structure Handled (κ : Type) where
  table : CallTable κ
  handles : AsyncStore
  resolution : Resolution
  due : Option (κ × Outcome)

namespace CallTable

variable {κ : Type}

/-- A table whose outcomes are the values of the replies. -/
def payload (retention : Retention) : CallTable κ := ⟨retention, .ok, []⟩

/-- The number of requests that are waited for. -/
def size (t : CallTable κ) : Nat := t.entries.length

/-- Whether a match number is waited for. -/
def contains (t : CallTable κ) (matchId : Nat) : Bool := t.entries.any fun e => e.1 == matchId

/-- What waits for a match number. -/
def find? (t : CallTable κ) (matchId : Nat) : Option (Continuation κ) :=
  (t.entries.find? fun e => e.1 == matchId).map Prod.snd

/-- Stops waiting for a match number. -/
def erase (t : CallTable κ) (matchId : Nat) : CallTable κ :=
  { t with entries := t.entries.filter fun e => e.1 != matchId }

/-- Waits for the answer to a request that is not waited for yet. -/
def insert (t : CallTable κ) (c : Call) (k : Continuation κ) : Except CallError (CallTable κ) :=
  if c.kind ≠ .request then .error (.notARequest c.matchId)
  else if t.contains c.matchId then .error (.duplicateMatchId c.matchId)
  else .ok { t with entries := (c.matchId, k) :: t.entries }

/-- Has a handle wait for the answer to a request. -/
def register (t : CallTable κ) (c : Call) (id : HandleId) : Except CallError (CallTable κ) :=
  t.insert c (.handle id)

/-- Has a callback wait for the answer to a request. -/
def registerCallback (t : CallTable κ) (c : Call) (token : κ) : Except CallError (CallTable κ) :=
  t.insert c (.callback token)

/-- Whether nobody waits for an entry any more. -/
def isDead (t : CallTable κ) (handles : AsyncStore) : Continuation κ → Bool
  | .handle id =>
    match t.retention with
    | .strong => (handles.get id).cancelled
    | .weak => (handles.get id).isDead
  | .callback _ => false

/-- Drops the entries that nobody waits for. -/
def purge (t : CallTable κ) (handles : AsyncStore) : CallTable κ :=
  { t with entries := t.entries.filter fun e => !t.isDead handles e.2 }

/-- Gives an outcome to the entry of a match id, which leaves the table. -/
def resolve (t : CallTable κ) (handles : AsyncStore) (matchId : Nat) (k : Continuation κ)
    (o : Outcome) : Handled κ :=
  let rest := t.erase matchId
  let result : Resolution := match o with
    | .ok _ => .completed
    | .error _ => .failed
  match k with
  | .callback token => ⟨rest, handles, result, some (token, o)⟩
  | .handle id =>
    let (accepted, handles) := handles.resolve id o
    ⟨rest, handles, if accepted then result else .ignored, none⟩

/-- The outcome that an answer brings. -/
def outcomeOf (t : CallTable κ) (c : Call) : Outcome :=
  match c.kind with
  | .reply => t.convert c.args
  | _ => .error (.ofArgs c.args)

/-- Resolves the entry that an answer belongs to. -/
def handle (t : CallTable κ) (handles : AsyncStore) (c : Call) : Handled κ :=
  let t := t.purge handles
  if !c.isResponse then ⟨t, handles, .ignored, none⟩
  else match t.find? c.matchId with
    | none => ⟨t, handles, .unexpected, none⟩
    | some k => t.resolve handles c.matchId k (t.outcomeOf c)

/-- A match id as it travels in an argument. -/
def idValue (matchId : Nat) : Value := .int (Int64.ofNat matchId)

/-- The match id that an argument stands for. -/
def idOfValue? (v : Value) : Option Nat := v.int?.map fun n => n.toUInt64.toNat

/-- A quiet call that fails the entry of a match id if it is still there at the given time. -/
def scheduleTimeout (l : Ledger) (matchId : Nat) (target : Endpoint) (time : Int64) :
    Call × Ledger :=
  l.quiet target none time [idValue matchId]

/-- Fails the entry that a timeout call names. -/
def handleTimeout (t : CallTable κ) (handles : AsyncStore) (c : Call) : Handled κ :=
  let t := t.purge handles
  match idOfValue? (c.argAt 0) with
  | none => ⟨t, handles, .ignored, none⟩
  | some matchId =>
    match t.find? matchId with
    | none => ⟨t, handles, .ignored, none⟩
    | some k =>
      t.resolve handles matchId k
        (.error (.timeout ("request " ++ Decimal.ofNat matchId ++ " timed out")))

end CallTable

end Switchboard
