import Switchboard.Call
import Switchboard.Clock

/-!
# Calls that wait for their time

Calls dated ahead of the clock, the earliest first; of two for the same time the one that came
first stays in front. Release takes calls from the front for as long as they are due.
-/

namespace Switchboard

/-- The calls that wait, by time. -/
structure Scheduler where
  calls : List Call := []

namespace Scheduler

/-- Puts a call behind all those that are not for a later time. -/
def insertCall (c : Call) : List Call → List Call
  | [] => [c]
  | d :: rest => if c.time < d.time then c :: d :: rest else d :: insertCall c rest

/-- Puts a call among those that wait, behind the calls of its time. -/
def schedule (s : Scheduler) (c : Call) : Scheduler := ⟨insertCall c s.calls⟩

/-- The calls at the front that are due, and the rest. -/
def release (s : Scheduler) (now : Int64) : List Call × Scheduler :=
  (s.calls.takeWhile fun c => isLatest now c.time, ⟨s.calls.dropWhile fun c => isLatest now c.time⟩)

/-- The time of the call in front. -/
def nextDue? (s : Scheduler) : Option Int64 := s.calls.head?.map Call.time

/-- The number of calls that wait. -/
def size (s : Scheduler) : Nat := s.calls.length

end Scheduler

end Switchboard
