/-!
# The logical clock

Time stamps are compared by their wrapping difference, so that the order survives an overflow of
the clock as long as two stamps are less than half of the range apart. The clock of a root carries
its activity, and the units that are told of changes, in the order in which they came.
-/

namespace Switchboard

/-- Whether `time` is not older than `earlier`. -/
def isLatest (time earlier : Int64) : Bool := 0 ≤ time - earlier

/-- Whether `time` is newer than `earlier`. -/
def isAfter (time earlier : Int64) : Bool := 0 < time - earlier

/-- Whether a root has been started and stopped. -/
inductive Activity where
  /-- Never started. -/
  | fresh
  | active
  /-- Stopped after it had been active. -/
  | idle
deriving DecidableEq

namespace Activity

/-- A root becomes active from any other state and idle from the active one. -/
def mayBecome : Activity → Activity → Bool
  | .fresh, .active => true
  | .active, .idle => true
  | .idle, .active => true
  | _, _ => false

end Activity

/-- The clock of a root, with the listeners of type `ι`. -/
structure Clock (ι : Type) where
  activity : Activity
  time : Int64
  listeners : List ι

namespace Clock

variable {ι : Type}

/-- A clock that has never been active. -/
def start (time : Int64) : Clock ι := ⟨.fresh, time, []⟩

/-- Whether the root of the clock runs. -/
def isActive (c : Clock ι) : Bool := c.activity == .active

/-- The clock in another state, if that change is admitted. -/
def become? (c : Clock ι) (a : Activity) : Option (Clock ι) :=
  if c.activity.mayBecome a then some { c with activity := a } else none

/-- The clock at a newer time; there is none for a time that is not newer. -/
def tick? (c : Clock ι) (time : Int64) : Option (Clock ι) :=
  if isAfter time c.time then some { c with time := time } else none

/-- A change of the activity leaves the rest as it is. -/
theorem become?_eq_some {c d : Clock ι} {a : Activity} (h : c.become? a = some d) :
    d = { c with activity := a } := by
  unfold become? at h
  split at h
  · cases h
    rfl
  · contradiction

/-- The activity only changes in ways that are admitted. -/
theorem mayBecome_of_become? {c d : Clock ι} {a : Activity} (h : c.become? a = some d) :
    c.activity.mayBecome a = true := by
  unfold become? at h
  split at h
  · assumption
  · contradiction

/-- A clock that advances comes to the time that it is given, which is newer. -/
theorem tick?_eq_some {c d : Clock ι} {time : Int64} (h : c.tick? time = some d) :
    d = { c with time := time } ∧ isAfter time c.time = true := by
  unfold tick? at h
  split at h
  · rename_i hafter
    cases h
    exact ⟨rfl, hafter⟩
  · contradiction

/-- Adds a listener that is not there yet, behind the others. -/
def attach [DecidableEq ι] (c : Clock ι) (listener : ι) : Clock ι :=
  if listener ∈ c.listeners then c else { c with listeners := c.listeners ++ [listener] }

/-- Removes a listener. -/
def detach [DecidableEq ι] (c : Clock ι) (listener : ι) : Clock ι :=
  { c with listeners := c.listeners.filter fun l => l ≠ listener }

end Clock

end Switchboard
