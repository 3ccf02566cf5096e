/-!
# Faults

A fault is the structured error that travels inside calls: a category that programs look at and a
message that people read.
-/

namespace Switchboard

/-- A structured error. -/
structure Fault where
  category : String
  message : String
deriving DecidableEq, Inhabited

namespace Fault

/-- A destination or an endpoint that does not exist, or an answer that is not admitted. -/
def routing (message : String) : Fault := ⟨"routing", message⟩

/-- A request whose time is over. -/
def timeout (message : String) : Fault := ⟨"timeout", message⟩

/-- A script that failed. -/
def script (message : String) : Fault := ⟨"script", message⟩

/-- Arguments of the wrong form. -/
def argument (message : String) : Fault := ⟨"argument", message⟩

/-- A hook that failed or a unit that went away. -/
def lifecycle (message : String) : Fault := ⟨"lifecycle", message⟩

/-- A behavior that could not be installed. -/
def install (message : String) : Fault := ⟨"install", message⟩

/-- Work given up at somebody's wish. -/
def cancelled (message : String) : Fault := ⟨"cancelled", message⟩

/-- An error of which no more than its message is known. -/
def other (message : String) : Fault := ⟨"unknown", message⟩

/-- An error of which nothing is known. -/
def unknown : Fault := other "unknown error"

/-- A fault in one line. -/
def text (f : Fault) : String := f.category ++ ": " ++ f.message

end Fault

end Switchboard
