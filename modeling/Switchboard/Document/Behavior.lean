import Switchboard.Catalog
import Switchboard.Document.Value
import Switchboard.Routine

/-!
# Documents of behaviors

Behaviors can be written down as JSON: a behavior is an array of declarations, a routine an array of
actions. A declaration or an action is an object that has a member of its name.
-/

namespace Switchboard.Document

/-- The first of these names that is the name of a member, with what it stands for. -/
def namedMember? {α : Type} (j : Json) (names : Named α) : Option (String × α) :=
  List.find? (fun e => j.has e.1) names

/-! ## Actions -/

/-- The actions that are written as one word. -/
def actionOfText : String → Action
  | "echo" => .echo
  | "env" => .look
  | _ => .noteResult

/-- The actions that are an object of these members, each with its name. Of several names in one
object the first of this list counts. -/
def namedActions (j : Json) (inner : List Action) : Named Action :=
  let args := values? "args" j
  let text (key : String) := (j.member key).asText
  let level (key : String) := (LogLevel.ofText? (text key)).getD .info
  [("ret", .result (values (j.member "ret"))), ("fail", .fail (fault (j.member "fail"))),
    ("note", .note (text "note") args), ("note_call", .noteCall (text "note_call")),
    ("emit", .emit (text "emit") args), ("log", .log (level "log") (text "text")),
    ("log_at", .logAlways (level "log_at") (text "text")),
    ("request", .request (text "request") (text "from") args),
    ("quiet", .quiet (text "quiet") args),
    ("send", .send (text "send") ((j.member "from").text?) (text "kind" == "request")
      ((time? "dt" j).getD 0) args),
    ("reply", .reply (values? "reply" j)), ("error", .error (fault (j.member "error"))),
    ("error_with", .errorWith (values? "error_with" j)), ("response", .unlessResponse inner),
    ("hold", .hold (text "hold")), ("release", .release (text "release") args),
    ("add", .add (text "add") args), ("get", .get (text "get")),
    ("set_prop", .setProperty (text "set_prop") (time? "time" j) args),
    ("replace_prop", .replaceProperty (text "replace_prop") args),
    ("get_prop", .getProperty (text "get_prop")),
    ("set_cur", .replaceOwn (value (j.member "set_cur")))]

mutual

/-- The action that a document stands for. -/
def action : Json → Action
  | .text name => actionOfText name
  | .object members =>
    let j := Json.object members
    ((namedMember? j (namedActions j (innerActions members))).map Prod.snd).getD .noteResult
  | _ => .noteResult

/-- The actions that an action leads to under a condition. -/
def innerActions : List (String × Json) → List Action
  | [] => []
  | ("else", .array items) :: _ => actions items
  | _ :: rest => innerActions rest

/-- The actions of a list. -/
def actions : List Json → List Action
  | [] => []
  | j :: js => action j :: actions js

end

/-- The routine under a name; it is empty where there is none. -/
def routine (key : String) (j : Json) : Routine := actions (j.member key).items

/-! ## Declarations -/

/-- The members of some category that only observe. -/
def observer (j : Json) : Observer :=
  ⟨(j.member "fails").items.filterMap fun h => Hook.ofName? h.asText⟩

/-- The kind of reference that a word names. -/
def refKind : String → RefKind
  | "int" => .int
  | "text" => .text
  | "list" => .list
  | _ => .calls

/-- The direction that a word names. -/
def direction? : String → Option PortDirection
  | "input" => some .input
  | "output" => some .output
  | _ => none

/-- What happens with the value of a reference at a moment, if anything is declared for it. -/
def hook? (id : String) (j : Json) (h : Hook) : Option (RefValue → Program) :=
  match j.member? ("on_" ++ h.name) with
  | some (.array items) => some (Routine.hook (actions items) id)
  | _ => none

/-- The reference that a member declares. -/
def referenceSpec (id : String) (j : Json) : ReferenceSpec :=
  let kind := refKind (j.member "type").asText
  let init := value (j.member "init")
  { kind := kind
    init := (routine "init_do" j).program [] none
    make := fun result =>
      .ofValue kind (if (j.member "init_from_ret").isTrue then .list result else init)
    hook := hook? id j }

/-- A member that watches its own attachment and removal. -/
def customMember (id : String) (j : Json) : Declaration :=
  match (j.member "category").asText with
  | "port" => .port id (.observer (direction? (j.member "direction").asText) (observer j))
  | "reference" => .reference id (.observer (observer j))
  | _ => .control id (.observer (observer j))

/-- What the members of a document can declare, each by its name. -/
def namedDeclarations : Named (String → Json → Declaration) :=
  [("function", fun id j =>
      let r := routine "do" j
      .control id (.function fun args => r.program args none)),
    ("raw", fun id j =>
      let r := routine "do" j
      .control id (.raw fun c => r.program c.args (some c))),
    ("property", fun id j =>
      let v := value (j.member "value")
      .control id (.property v.shape v)),
    ("typed", fun id j =>
      .control id (.property ((Shape.ofName? (j.member "type").asText).getD .any)
        (value (j.member "value")))),
    ("input", fun id j =>
      let r := routine "do" j
      .port id (.input fun vs => r.program vs none)),
    ("output", fun id _ => .port id .output),
    ("tick", fun _ j => .tick ((routine "tick" j).program [] none)),
    ("reference", fun id j => .reference id (.typed (referenceSpec id j))),
    ("custom", customMember),
    ("bail", fun _ j => .fail ((j.member "bail").items.map Json.asText))]

/-- The declaration that a member makes; a member of no known form fails. -/
def declaration (j : Json) : Declaration :=
  match namedMember? j namedDeclarations with
  | some (key, f) => f (j.member key).asText j
  | none => .fail []

/-- The behavior that a document stands for; that of script units has a name. -/
def behavior : Json → Behavior
  | .array items => items.map declaration
  | .text "core:script" => .scripting
  | _ => []

/-! ## Types and compilers -/

/-- The unit type that a document describes. -/
def unitType (j : Json) : UnitType :=
  ⟨behavior (j.member "behavior"), (j.member "container").isTrue⟩

/-- A catalog with the types that are the members of a document. -/
def catalog (base : Catalog) (j : Json) : Catalog :=
  (Keyed.ofList j.members).foldl (fun c e => c.register e.1 (unitType e.2)) base

/-- A compiler that knows the sources that are the members of a document. -/
def compiler (j : Json) : Compiler :=
  .ofSources (Keyed.ofList (j.members.map fun e => (e.1, behavior e.2)))

end Switchboard.Document
