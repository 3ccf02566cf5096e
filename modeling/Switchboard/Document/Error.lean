import Switchboard.Document.Value

/-!
# Documents of errors

Each error has a name, by which it can be told from the others whatever its message says.
-/

namespace Switchboard

/-- The name of the kind of an address fault. -/
def AddressError.name : AddressError → String
  | .empty => "Empty"
  | .missingSlash _ => "MissingLeadingSlash"
  | .badId _ => "InvalidId"
  | .malformed _ => "Malformed"

/-- The name of the kind of a call fault. -/
def CallError.name : CallError → String
  | .notARequest _ => "NotARequest"
  | .quietRequest _ => "QuietRequest"
  | .noSource _ => "NoSource"
  | .alreadyAnswered _ => "AlreadyAnswered"
  | .duplicateMatchId _ => "DuplicateMatchId"

/-- The name of the kind of an install fault. -/
def InstallError.name : InstallError → String
  | .badId _ => "InvalidId"
  | .duplicateId _ => "DuplicateId"
  | .reservedId _ => "ReservedId"
  | .declaration _ => "Declaration"
  | .compile _ => "Compile"
  | .noCompiler => "NoCompiler"
  | .unitNotFound _ => "UnitNotFound"

/-- The name of the kind of a container fault. -/
def ContainerError.name : ContainerError → String
  | .notAContainer _ => "NotAContainer"
  | .unknownChild _ => "UnknownChild"
  | .duplicateChild _ => "DuplicateChild"
  | .unknownType _ => "UnknownType"
  | .unknownPort _ => "UnknownPort"
  | .invalidConnection _ => "InvalidConnection"
  | .duplicateConnection _ => "DuplicateConnection"
  | .invalidArgument _ => "InvalidArgument"
  | .install _ => "Install"

/-- The name of the kind of a hand-off fault. -/
def HandOffError.name : HandOffError → String
  | .timeout _ => "Timeout"
  | .closed => "Closed"
  | .reentrant => "Reentrant"
  | .spawn _ => "Spawn"

/-- The name of the kind of a configuration fault. -/
def ConfigError.name : ConfigError → String
  | .unreadable => "Io"
  | .notJson => "Json"
  | .invalid _ => "Invalid"

/-- The name of an error, after that of the part of the runtime that it comes from. -/
def RuntimeError.name : RuntimeError → String
  | .address e => "Address." ++ e.name
  | .call e => "Call." ++ e.name
  | .install e => "Install." ++ e.name
  | .container e => "Container." ++ e.name
  | .handOff e => "HandOff." ++ e.name
  | .config e => "Config." ++ e.name

namespace Document

/-- The document of an error; the errors of reading a configuration have a name only. -/
def ofError (e : RuntimeError) : Json :=
  let name := ("error", Json.text e.name)
  match e with
  | .config .notJson => .object [name]
  | .config .unreadable => .object [name]
  | _ => .object [name, ("message", .text e.message), ("perror", ofFault e.fault)]

/-- The document of a result that may be an error. -/
def ofResult {α : Type} (f : α → Json) : Except RuntimeError α → Json
  | .ok a => f a
  | .error e => ofError e

/-- The errors that a text can be the reason of. -/
def textErrors (s : String) : List RuntimeError :=
  [.address .empty, .address (.missingSlash s), .address (.badId s), .address (.malformed s),
    .install (.badId s), .install (.duplicateId s), .install (.reservedId s),
    .install (.declaration s), .install (.compile s), .install .noCompiler,
    .install (.unitNotFound s), .container (.notAContainer s), .container (.unknownChild s),
    .container (.duplicateChild s), .container (.unknownType s), .container (.unknownPort s),
    .container (.invalidConnection s), .container (.duplicateConnection s),
    .container (.invalidArgument s), .container (.install (.compile s)), .handOff .closed,
    .handOff .reentrant, .handOff (.spawn s), .config .unreadable, .config .notJson,
    .config (.invalid s)]

/-- The errors that a number can be the reason of. -/
def numberErrors (n : Nat) : List RuntimeError :=
  [.call (.notARequest n), .call (.quietRequest n), .call (.noSource n),
    .call (.alreadyAnswered n), .call (.duplicateMatchId n), .handOff (.timeout ⟨n⟩)]

/-- The error of a name, with its reason. -/
def error? (name : String) (reason : Json) : Option RuntimeError :=
  (textErrors reason.asText ++ numberErrors reason.asInt.toNat).find? fun e => e.name == name

end Document

end Switchboard
