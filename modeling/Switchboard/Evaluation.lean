import Switchboard.Command

/-!
# Evaluation of scripts

How a script goes on by one step: the words of a line are evaluated from left to right, a
substitution runs as a frame of its own, and a line whose words are all there runs as a command.
-/

namespace Switchboard

/-- The value of a word without marks: a number where its text is a numeral, and text otherwise. A
floating point numeral has a point or an exponent. -/
def literalValue (text : String) : Value :=
  let cs := text.toList
  match Decimal.readInt64? cs with
  | some n => .int n
  | none =>
    if cs.any (fun c => c == '.' || c == 'e' || c == 'E') && !cs.contains '/' then
      match Decimal.readBinary64? cs with
      | some x => if x.isFinite then .float x else .text text
      | none => .text text
    else .text text

/-- The value of a result: absence for none, the value for one, a list for more. -/
def collapse : List Value → Value
  | [] => .none
  | [v] => v
  | vs => .list vs

/-- What evaluating parts of a word comes to. -/
inductive PartsResult where
  | text (text : String)
  /-- A script has to run before the parts behind it. -/
  | substitution (text : String) (script : Script) (rest : List ScriptPart)
  | failed (f : Fault)

/-- Goes on with a word that is put together from parts. -/
def evalParts (s : Scopes) (r : ScopeRef) (text : String) : List ScriptPart → PartsResult
  | [] => .text text
  | .text t :: rest => evalParts s r (text ++ t) rest
  | .variableRef name :: rest =>
    match s.get? r name with
    | none => .failed (Command.noVariable name)
    | some v => evalParts s r (text ++ v.render) rest
  | .substitution script :: rest => .substitution text script rest

/-- What evaluating the words of a line comes to. -/
inductive WordsResult where
  | words (values : List Value)
  /-- A script has to run before the rest of the line. -/
  | substitution (line : LineRun) (script : Script)
  | failed (f : Fault)

/-- Goes on with the words of a line, given the values of those before them. -/
def evalWords (s : Scopes) (r : ScopeRef) (number : Nat) (ready : List Value) :
    List ScriptWord → WordsResult
  | [] => .words ready
  | .literal text :: rest => evalWords s r number (ready ++ [literalValue text]) rest
  | .block text :: rest => evalWords s r number (ready ++ [.text text]) rest
  | .variableRef name :: rest =>
    match s.get? r name with
    | none => .failed (Command.noVariable name)
    | some v => evalWords s r number (ready ++ [v]) rest
  | .substitution script :: rest => .substitution ⟨number, ready, none, rest⟩ script
  | .quoted parts :: rest =>
    match evalParts s r "" parts with
    | .failed f => .failed f
    | .text text => evalWords s r number (ready ++ [.text text]) rest
    | .substitution text script parts =>
      .substitution ⟨number, ready, some (text, parts), rest⟩ script

/-- Goes on with a line, first with the word that has been begun. -/
def LineRun.eval (l : LineRun) (s : Scopes) (r : ScopeRef) : WordsResult :=
  match l.partial? with
  | none => evalWords s r l.number l.ready l.todo
  | some (text, parts) =>
    match evalParts s r text parts with
    | .failed f => .failed f
    | .text text => evalWords s r l.number (l.ready ++ [.text text]) l.todo
    | .substitution text script parts =>
      .substitution { l with partial? := some (text, parts) } script

/-- The line after a substitution of it has given a result. -/
def LineRun.take (l : LineRun) (result : List Value) : LineRun :=
  let v := collapse result
  match l.partial? with
  | none => { l with ready := l.ready ++ [v] }
  | some (text, parts) => { l with partial? := some (text ++ v.render, parts) }

/-- The line once its words have been handed over to its command. -/
def LineRun.spent (l : LineRun) : LineRun := ⟨l.number, [], none, []⟩

namespace ScriptRun

/-- What a step of a script comes to. -/
inductive Step where
  | goOn (run : ScriptRun)
  /-- A frame runs; its ending is that of a word or of the whole line. -/
  | push (child : Frame) (below : Pending)
  | finish (ending : Ending) (result : List Value)

/-- Leaves the current line. -/
def nextLine (run : ScriptRun) : ScriptRun := { run with current := none }

/-- The current line fails: the script ends, or traps the failure and goes on. -/
def fail (run : ScriptRun) (s : Scopes) (f : Fault) : Step × Scopes :=
  if !run.trap then (.finish .error [.fault f], s)
  else
    let number := (run.current.map LineRun.number).getD 0
    let message := "line " ++ Decimal.ofNat number ++ ": " ++ f.message
    (.goOn { run.nextLine with trapped := run.trapped ++ [message] },
      s.push run.scope errorsVariable (.text message))

/-- How a script ends that has no line left. -/
def complete (run : ScriptRun) : Step :=
  if run.trapped.isEmpty then .finish .ok run.last
  else .finish .error [.fault (.script (Text.join "\n" run.trapped))]

/-- The result of the current line has come. -/
def takeResult (run : ScriptRun) (result : List Value) : ScriptRun :=
  { run.nextLine with last := result }

/-- The result of a substitution in the current line has come. -/
def takeWord (run : ScriptRun) (result : List Value) : ScriptRun :=
  { run with current := run.current.map fun l => l.take result }

/-- One step of a script. -/
def step (run : ScriptRun) (s : Scopes) : Step × Scopes :=
  if !run.entry.isEmpty then
    (.goOn { run with entry := [] }, s.setAll run.scope run.entry)
  else match run.current with
    | none =>
      match run.rest with
      | [] => (run.complete, s)
      | line :: rest =>
        (.goOn { run with current := some ⟨line.number, [], none, line.words⟩, rest := rest }, s)
    | some line =>
      match line.eval s run.scope with
      | .failed f => run.fail s f
      | .substitution line script =>
        (.push (.ofScript script run.scope false) (.word { run with current := some line }), s)
      | .words values =>
        match commandFrame s run.scope values with
        | .error f => run.fail s f
        | .ok (child, s) => (.push child (.command { run with current := some line.spent }), s)

end ScriptRun

end Switchboard
