import Switchboard.Address
import Switchboard.Fault
import Switchboard.Decimal.Integer
import Switchboard.Duration

/-!
# Errors

What can go wrong in the runtime, by the part of it that refuses. Each error has one message; an
error that has to travel in a call becomes a fault, whose category depends on the part.
-/

namespace Switchboard

/-- Why a call cannot be answered, or an answer not be awaited. -/
inductive CallError where
  | notARequest (matchId : Nat)
  | quietRequest (matchId : Nat)
  | noSource (matchId : Nat)
  | alreadyAnswered (matchId : Nat)
  | duplicateMatchId (matchId : Nat)
deriving DecidableEq

/-- The text of a call fault. -/
def CallError.message : CallError → String
  | .notARequest id => "call " ++ Decimal.ofNat id ++ " is not a request"
  | .quietRequest id =>
    "call " ++ Decimal.ofNat id ++ " is a quiet request and cannot be answered"
  | .noSource id => "call " ++ Decimal.ofNat id ++ " has no source address"
  | .alreadyAnswered id => "call " ++ Decimal.ofNat id ++ " has already been answered"
  | .duplicateMatchId id => "match id " ++ Decimal.ofNat id ++ " is already registered"

/-- Why a behavior cannot be installed on a unit. -/
inductive InstallError where
  | badId (id : String)
  | duplicateId (id : String)
  | reservedId (id : String)
  | declaration (reason : String)
  | compile (reason : String)
  | noCompiler
  | unitNotFound (unit : String)
deriving DecidableEq

/-- The text of an install fault. -/
def InstallError.message : InstallError → String
  | .badId id => "invalid descriptor id '" ++ id ++ "'"
  | .duplicateId id => "duplicate descriptor id '" ++ id ++ "'"
  | .reservedId id => "descriptor id '" ++ id ++ "' is reserved"
  | .declaration reason => "declaration failed: " ++ reason
  | .compile reason => "compile failed: " ++ reason
  | .noCompiler => "no compiler configured"
  | .unitNotFound unit => "unit '" ++ unit ++ "' not found"

/-- Why the tree of units cannot be changed as asked. -/
inductive ContainerError where
  | notAContainer (unit : String)
  | unknownChild (id : String)
  | duplicateChild (id : String)
  | unknownType (name : String)
  | unknownPort (port : String)
  | invalidConnection (text : String)
  | duplicateConnection (text : String)
  | invalidArgument (text : String)
  | install (error : InstallError)
deriving DecidableEq

/-- The text of a container fault. -/
def ContainerError.message : ContainerError → String
  | .notAContainer unit => "'" ++ unit ++ "' is not a container"
  | .unknownChild id => "unknown child '" ++ id ++ "'"
  | .duplicateChild id => "child '" ++ id ++ "' already exists"
  | .unknownType name => "unknown component type '" ++ name ++ "'"
  | .unknownPort port => "unknown port '" ++ port ++ "'"
  | .invalidConnection text => "invalid connection: " ++ text
  | .duplicateConnection text => "connection already exists: " ++ text
  | .invalidArgument text => "invalid argument: " ++ text
  | .install error => error.message

/-- Why a task handed to the thread of a root gave no result. -/
inductive HandOffError where
  | timeout (wait : Duration)
  | closed
  | reentrant
  | spawn (reason : String)
deriving DecidableEq

/-- The text of a hand-off fault. -/
def HandOffError.message : HandOffError → String
  | .timeout wait => "task timed out after " ++ wait.text
  | .closed => "root driver is closed"
  | .reentrant => "re-entrant hand-off on the root thread"
  | .spawn reason => "failed to start root driver: " ++ reason

/-- Why a configuration is refused. -/
inductive ConfigError where
  | unreadable
  | notJson
  | invalid (reason : String)
deriving DecidableEq

/-- Any error of the runtime. -/
inductive RuntimeError where
  | address (error : AddressError)
  | call (error : CallError)
  | install (error : InstallError)
  | container (error : ContainerError)
  | handOff (error : HandOffError)
  | config (error : ConfigError)
deriving DecidableEq

/-- The text of a configuration fault. -/
def ConfigError.message : ConfigError → String
  | .unreadable => "IO error"
  | .notJson => "JSON error"
  | .invalid reason => "invalid configuration: " ++ reason

/-- The text of a fault of the runtime says first which part it came from. -/
def RuntimeError.message : RuntimeError → String
  | .address e => "Address error: " ++ e.message
  | .call e => "Call error: " ++ e.message
  | .install e => "Install error: " ++ e.message
  | .container e => "Container error: " ++ e.message
  | .handOff e => "Hand-off error: " ++ e.message
  | .config e => "Configuration error: " ++ e.message

/-! ## Errors as faults -/

/-- A bad address is a bad argument. -/
def AddressError.fault (e : AddressError) : Fault := .argument e.message

/-- A bad answer is a fault of routing. -/
def CallError.fault (e : CallError) : Fault := .routing e.message

/-- A behavior that cannot be installed is a fault of installation. -/
def InstallError.fault (e : InstallError) : Fault := .install e.message

/-- A container fault is a bad argument, unless an install failed below it. -/
def ContainerError.fault : ContainerError → Fault
  | .install e => e.fault
  | e => .argument e.message

/-- The fault by which a caller learns of a fault of the runtime. -/
def RuntimeError.fault : RuntimeError → Fault
  | .address e => e.fault
  | .call e => e.fault
  | .install e => e.fault
  | .container e => e.fault
  | .handOff (.timeout wait) => .timeout ("no answer within " ++ wait.text)
  | e => .other e.message

end Switchboard
