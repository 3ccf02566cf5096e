import Switchboard.Fault
import Switchboard.Value

/-!
# Eventual outcomes

Whoever waits for an answer holds a handle. The store keeps, for each handle given out, its outcome
once there is one, whether its owner has given up on it, and whether the owner still holds it.
-/

namespace Switchboard

/-- How a request ends: with the values of a reply or with a fault. -/
abbrev Outcome := Except Fault (List Value)

/-- The number of a handle. -/
abbrev HandleId := Nat

/-- The state of one handle. -/
structure Async where
  outcome : Option Outcome := none
  cancelled : Bool := false
  /-- Whether the owner still holds the handle. -/
  held : Bool := true

namespace Async

/-- A handle that has just been given out. -/
def fresh : Async := {}

/-- Whether an outcome is there to be taken. -/
def isDone (a : Async) : Bool := a.outcome.isSome

/-- Whether nobody waits for the outcome any more. -/
def isDead (a : Async) : Bool := a.cancelled || !a.held

/-- Whether an outcome would be accepted now. -/
def accepts (a : Async) : Bool := !a.cancelled && a.outcome.isNone

/-- The handle after an outcome was offered to it. -/
def resolve (a : Async) (o : Outcome) : Async :=
  if a.accepts then { a with outcome := some o } else a

/-- Gives up waiting. -/
def cancel (a : Async) : Async := { a with cancelled := true }

/-- Leaves the handle without the outcome that it had. -/
def take (a : Async) : Async := { a with outcome := none }

/-- Marks a handle that its holder has let go of. -/
def drop (a : Async) : Async := { a with held := false }

end Async

/-- The handles given out so far, by number. -/
structure AsyncStore where
  handles : List Async := []

namespace AsyncStore

/-- Gives out a handle. -/
def create (s : AsyncStore) : HandleId × AsyncStore :=
  (s.handles.length, ⟨s.handles ++ [.fresh]⟩)

/-- The state of a handle; a number that was never given out counts as fresh. -/
def get (s : AsyncStore) (id : HandleId) : Async := s.handles[id]?.getD .fresh

/-- Changes the state of one handle. -/
def update (s : AsyncStore) (id : HandleId) (f : Async → Async) : AsyncStore :=
  ⟨s.handles.modify id f⟩

/-- Offers an outcome to a handle; the flag says whether it was accepted. -/
def resolve (s : AsyncStore) (id : HandleId) (o : Outcome) : Bool × AsyncStore :=
  ((s.get id).accepts, s.update id fun a => a.resolve o)

/-- Gives up waiting on a handle. -/
def cancel (s : AsyncStore) (id : HandleId) : AsyncStore := s.update id Async.cancel

/-- Lets go of a handle. -/
def drop (s : AsyncStore) (id : HandleId) : AsyncStore := s.update id Async.drop

/-- Takes the outcome out of a handle. -/
def take (s : AsyncStore) (id : HandleId) : Option Outcome × AsyncStore :=
  ((s.get id).outcome, s.update id Async.take)

end AsyncStore

end Switchboard
