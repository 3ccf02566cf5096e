import Switchboard.Frame

/-!
# Commands

What the built-in commands make of their arguments: a frame, or a fault where the arguments do not
fit. Setting variables and opening an inner scope happen at once, all else when the frame runs.
-/

namespace Switchboard

/-- What a command comes to: a frame, and the scopes after what it did at once. -/
abbrev CommandResult := Except Fault (Frame × Scopes)

namespace Command

/-- The fault of a command with the wrong arguments. -/
def usage (text : String) : Fault := .argument ("usage: " ++ text)

/-- The script that a value spells. -/
def body (v : Value) : Except Fault Script :=
  match Script.ofText? v.render with
  | .ok s => .ok s
  | .error e => .error (.script e.message)

/-- The fault of a variable that has no value. -/
def noVariable (name : String) : Fault := .script ("no such variable '" ++ name ++ "'")

/-- The texts of values with single spaces between them. -/
def spaced (vs : List Value) : String := Text.join " " (vs.map Value.render)

/-- `set name` looks a variable up, and `set name value` gives it a value in the own scope. -/
def set (s : Scopes) (r : ScopeRef) : List Value → CommandResult
  | [name] =>
    match s.get? r name.render with
    | some v => .ok (.ok [v], s)
    | none => .error (noVariable name.render)
  | [name, v] => .ok (.ok [v], s.set r name.render v)
  | _ => .error (usage "set name ?value?")

/-- The whole number that a variable holds; one that is not set counts as zero. -/
def counter (s : Scopes) (r : ScopeRef) (name : String) : Except Fault Int64 :=
  match s.get? r name with
  | none => .ok 0
  | some v =>
    match v.int? with
    | some n => .ok n
    | none => .error (.argument ("'" ++ name ++ "' is not an integer"))

/-- Adds to a variable, modulo `2 ^ 64`. -/
def add (s : Scopes) (r : ScopeRef) (name : String) (amount : Int64) : CommandResult :=
  match counter s r name with
  | .error f => .error f
  | .ok n => .ok (.ok [.int (n + amount)], s.set r name (.int (n + amount)))

/-- `incr name` adds one to a variable, and `incr name amount` adds that amount. -/
def incr (s : Scopes) (r : ScopeRef) : List Value → CommandResult
  | [name] => add s r name.render 1
  | [name, amount] =>
    match amount.int? with
    | none => .error (.argument ("expected integer, got '" ++ amount.render ++ "'"))
    | some n => add s r name.render n
  | _ => .error (usage "incr name ?increment?")

/-- `error` fails with the fault that it is given, or with its words. -/
def error (s : Scopes) : List Value → CommandResult
  | [.fault f] => .ok (.error f, s)
  | args => .ok (.error (.script (spaced args)), s)

/-- `foreach name items code` runs the code once for each item, with the variable set to it. -/
def foreach (s : Scopes) (r : ScopeRef) : List Value → CommandResult
  | [name, items, code] =>
    match body code with
    | .error f => .error f
    | .ok script => .ok (.loop ⟨r, name.render, items.toList, script, []⟩, s)
  | _ => .error (usage "foreach var list body")

/-- `try code handler` runs the code, and where it fails the handler; without a handler the result
is the fault. -/
def try_ (s : Scopes) (r : ScopeRef) : List Value → CommandResult
  | [code] =>
    match body code with
    | .error f => .error f
    | .ok script => .ok (.onFail (.ofScript script r false) fun f => .ok [.fault f], s)
  | [code, fallback] =>
    match body code, body fallback with
    | .error f, _ => .error f
    | .ok _, .error f => .error f
    | .ok script, .ok handler => .ok (.onFail (.ofScript script r false) (.ofFallback handler r), s)
  | _ => .error (usage "try body ?fallback?")

/-- `eval` runs its words, joined by spaces, as a script in a new inner scope. -/
def eval (s : Scopes) (r : ScopeRef) (args : List Value) : CommandResult :=
  if args.isEmpty then .error (usage "eval script")
  else match body (.text (spaced args)) with
    | .error f => .error f
    | .ok script =>
      let (inner, s) := s.newChild r
      .ok (.ofScript script inner false, s)

/-- The level and the words of a log line: a first word that names a level does so only if another
word follows. -/
def logLine : List Value → LogLevel × List Value
  | first :: second :: rest =>
    match LogLevel.ofText? first.render with
    | some level => (level, second :: rest)
    | none => (.info, first :: second :: rest)
  | args => (.info, args)

/-- `log` writes its words at the level that its first word names, or as information. -/
def log (s : Scopes) (args : List Value) : CommandResult :=
  let (level, words) := logLine args
  .ok (.log level (spaced words), s)

end Command

/-- What a built-in command makes of its arguments in a scope. -/
def Builtin.run (b : Builtin) (s : Scopes) (r : ScopeRef) (args : List Value) : CommandResult :=
  match b with
  | .set => Command.set s r args
  | .list => .ok (.ok [.list args], s)
  | .incr => Command.incr s r args
  | .error => Command.error s args
  | .break => .ok (.done .break [], s)
  | .continue => .ok (.done .continue [], s)
  | .foreach => Command.foreach s r args
  | .try => Command.try_ s r args
  | .eval => Command.eval s r args
  | .log => Command.log s args

/-! ## Command words -/

namespace CommandWord

/-- The parts of a text before and after the last occurrence of a character. -/
def cutLast? (mark : Char) : List Char → Option (List Char × List Char)
  | [] => none
  | c :: rest =>
    match cutLast? mark rest with
    | some (front, back) => some (c :: front, back)
    | none => if c = mark then some ([], rest) else none

/-- A word without the `./` that it may begin with. -/
def unprefixed : List Char → List Char
  | '.' :: '/' :: rest => rest
  | cs => cs

/-- The unit reached from another one along the segments that are not empty. -/
def descend (p : Path) : List (List Char) → Except AddressError Path
  | [] => .ok p
  | segment :: rest =>
    if segment.isEmpty then descend p rest
    else match p.child? (String.ofList segment) with
      | .error e => .error e
      | .ok q => descend q rest

/-- The endpoint that a word such as `.id` or `./child/path.id` names from a unit. -/
def relative (context : Option Path) (word : String) : Except Fault Endpoint :=
  match context with
  | none => .error (.script ("no " ++ contextVariable ++ " for '" ++ word ++ "'"))
  | some context =>
    match cutLast? '.' (unprefixed word.toList) with
    | none => .error (.argument ("bad relative address '" ++ word ++ "'"))
    | some (path, id) =>
      match descend context (Text.cutAt '/' path) with
      | .error e => .error e.fault
      | .ok p =>
        match p.endpoint? (String.ofList id) with
        | .error e => .error e.fault
        | .ok e => .ok e

/-- The endpoint that a word with a slash and a point names. -/
def absolute (word : String) : Except Fault Endpoint :=
  match Endpoint.ofText? word with
  | .ok e => .ok e
  | .error e =>
    .error (.argument ("bad control address '" ++ word ++ "': " ++ e.message))

end CommandWord

/-- What a line comes to once the values of its words are known: its first word is the address of
an endpoint, the name of a command, or the text of an address. -/
def commandFrame (s : Scopes) (r : ScopeRef) : List Value → CommandResult
  | [] => .ok (.ok [], s)
  | .address (.endpoint target) :: args => .ok (.call target args, s)
  | head :: args =>
    let word := head.render
    match s.command? r word with
    | some b => b.run s r args
    | none =>
      let named (e : Except Fault Endpoint) : CommandResult :=
        e.map fun target => (.call target args, s)
      let cs := word.toList
      if cs.head? = some '.' then
        named (CommandWord.relative ((s.get? r contextVariable).bind Value.path?) word)
      else if cs.contains '/' && cs.contains '.' then named (CommandWord.absolute word)
      else .error (.script ("unknown command '" ++ word ++ "'"))

end Switchboard
