import Mathlib
import Switchboard.FrameStack

/-!
# Direct evaluation of scripts

A plain recursive evaluator: it works through the lines of a script in order, resolves the words of
a line from left to right, and runs the command that the line comes to, which may evaluate further
scripts.  It never stops half way: the answers to the calls that the script makes are given in
advance and taken in order, and there is no outcome when they do not suffice.

`evaluate` has a bound on the depth to which scripts are nested in scripts, by substitution or
through `foreach`, `try` and `eval`.  Everything else follows the lines, words and items, so
an evaluation finishes when it does at some depth.  That suspendable evaluation does
the same is proved in `Proofs/Suspension`.
-/

namespace Switchboard

/-- An answer to a call of a script: a reply, or an error with any arguments. -/
inductive Answer where
  | reply (args : List Value)
  | error (args : List Value)

/-- What others see of a script while it runs: its calls and its log lines. -/
inductive Effect where
  | call (target : Endpoint) (args : List Value)
  | log (level : LogLevel) (message : String)

/-- Why an evaluation ends without a result of its own. -/
inductive Signal where
  | error (f : Fault)
  | break
  | continue

namespace Direct

/-- What an evaluation works on: the scopes, the answers still to come, and all effects so far. -/
structure World where
  scopes : Scopes
  answers : List Answer
  effects : List Effect := []

/-- An evaluation of type `α`: nothing where it does not finish within the given depth or lacks an
answer, and otherwise a value or a signal, with the world afterwards. -/
def Eval (α : Type) : Type := World → Option (Except Signal α × World)

namespace Eval

variable {α β : Type}

/-- One evaluation after another; a signal of the first passes over the second. -/
def andThen (x : Eval α) (f : α → Eval β) : Eval β := fun w =>
  match x w with
  | none => none
  | some (.error e, w) => some (.error e, w)
  | some (.ok a, w) => f a w

instance : Monad Eval where
  pure a w := some (.ok a, w)
  bind := andThen

/-- Ends with a signal. -/
def signal (e : Signal) : Eval α := fun w => some (.error e, w)

/-- Ends with a fault where there is one. -/
def ofExcept : Except Fault α → Eval α
  | .ok a => pure a
  | .error f => signal (.error f)

/-- An evaluation whose signal is handed on as a value. -/
def attempt (x : Eval α) : Eval (Except Signal α) := fun w =>
  (x w).map fun (a, w) => (.ok a, w)

/-- The scopes as they are. -/
def scopes : Eval Scopes := fun w => some (.ok w.scopes, w)

/-- Changes the scopes. -/
def modifyScopes (f : Scopes → Scopes) : Eval Unit := fun w =>
  some (.ok (), { w with scopes := f w.scopes })

/-- Writes a log line. -/
def log (level : LogLevel) (message : String) : Eval Unit := fun w =>
  some (.ok (), { w with effects := w.effects ++ [.log level message] })

/-- Makes a call and takes the next answer as its result. -/
def call (target : Endpoint) (args : List Value) : Eval (List Value) := fun w =>
  match w.answers with
  | [] => none
  | a :: rest =>
    let w := { w with answers := rest, effects := w.effects ++ [.call target args] }
    match a with
    | .reply args => some (.ok args, w)
    | .error args => some (.error (.error (.ofArgs args)), w)

variable (w : World)

@[simp] lemma pure_apply (a : α) : (pure a : Eval α) w = some (.ok a, w) := rfl

@[simp] lemma signal_apply (e : Signal) : (signal e : Eval α) w = some (.error e, w) := rfl

@[simp] lemma scopes_bind (f : Scopes → Eval β) : (scopes >>= f) w = f w.scopes w := rfl

@[simp] lemma modifyScopes_bind (f : Scopes → Scopes) (g : Unit → Eval β) :
    (modifyScopes f >>= g) w = g () { w with scopes := f w.scopes } := rfl

/-- After a value comes what is made of it. -/
@[simp] lemma pure_bind (a : α) (f : α → Eval β) : (pure a : Eval α) >>= f = f a := rfl

/-- A signal passes over what comes after it. -/
@[simp] lemma signal_bind (e : Signal) (f : α → Eval β) : signal e >>= f = signal e := rfl

/-- One evaluation after another is the second one where the first one has come to a value. -/
lemma bind_eq_of_eq_ok {x : Eval α} {w v : World} {a : α} (h : x w = some (.ok a, v))
    (f : α → Eval β) : (x >>= f) w = f a v := by
  change andThen x f w = _
  rw [andThen, h]

/-- One evaluation after another is the first one where that has come to a signal. -/
lemma bind_eq_of_eq_error {x : Eval α} {w v : World} {e : Signal} (h : x w = some (.error e, v))
    (f : α → Eval β) : (x >>= f) w = some (.error e, v) := by
  change andThen x f w = _
  rw [andThen, h]

end Eval

open Eval

/-- The value of a variable, which must have one. -/
def lookUp (r : ScopeRef) (name : String) : Eval Value := do
  match (← scopes).get? r name with
  | some v => pure v
  | none => signal (.error (Command.noVariable name))

/-- A variable with a value is looked up. -/
lemma lookUp_eq_ok {r : ScopeRef} {name : String} {v : Value} {w : World}
    (h : w.scopes.get? r name = some v) : lookUp r name w = some (.ok v, w) := by
  rw [lookUp, scopes_bind, h]
  rfl

/-- A variable without a value is a fault. -/
lemma lookUp_eq_error {r : ScopeRef} {name : String} {w : World}
    (h : w.scopes.get? r name = none) :
    lookUp r name w = some (.error (.error (Command.noVariable name)), w) := by
  rw [lookUp, scopes_bind, h]
  rfl

/-! ## Words

A script evaluates further ones in some scope by `run`. -/

section Words

variable (run : ScopeRef → Script → Eval (List Value)) (r : ScopeRef)

/-- The text of a part of a word. -/
def part : ScriptPart → Eval String
  | .text text => pure text
  | .variableRef name => do pure (← lookUp r name).render
  | .substitution script => do pure (collapse (← run r script)).render

/-- The texts of parts, put together behind a text. -/
def parts (text : String) : List ScriptPart → Eval String
  | [] => pure text
  | p :: rest => do parts (text ++ (← part run r p)) rest

/-- The value of a word. -/
def word : ScriptWord → Eval Value
  | .literal text => pure (literalValue text)
  | .variableRef name => lookUp r name
  | .substitution script => do pure (collapse (← run r script))
  | .block text => pure (.text text)
  | .quoted ps => do pure (.text (← parts run r "" ps))

/-- The values of words, behind those of the words before them. -/
def words (ready : List Value) : List ScriptWord → Eval (List Value)
  | [] => pure ready
  | x :: rest => do words (ready ++ [← word run r x]) rest

end Words

/-! ## Commands -/

section Commands

variable (run : ScopeRef → Script → Eval (List Value)) (r : ScopeRef)

/-- `set` with a name looks a variable up, and with a value sets it. -/
def set : List Value → Eval (List Value)
  | [name] => do pure [← lookUp r name.render]
  | [name, v] => do
    modifyScopes (·.set r name.render v)
    pure [v]
  | _ => signal (.error (Command.usage "set name ?value?"))

/-- Adds to a variable, modulo `2 ^ 64`. -/
def add (name : String) (amount : Int64) : Eval (List Value) := do
  let n ← ofExcept (Command.counter (← scopes) r name)
  modifyScopes (·.set r name (.int (n + amount)))
  pure [.int (n + amount)]

/-- `incr` adds one, or the amount that it is given. -/
def incr : List Value → Eval (List Value)
  | [name] => add r name.render 1
  | [name, amount] =>
    match amount.int? with
    | none => signal (.error (.argument ("expected integer, got '" ++ amount.render ++ "'")))
    | some n => add r name.render n
  | _ => signal (.error (Command.usage "incr name ?increment?"))

/-- `error` fails with the fault that it is given, or with its words. -/
def error : List Value → Eval (List Value)
  | [.fault f] => signal (.error f)
  | args => signal (.error (.script (Command.spaced args)))

/-- Runs a script once for each item with a variable set to it; the result is that of the last round
that ran to its end. -/
def rounds (name : String) (script : Script) (last : List Value) : List Value → Eval (List Value)
  | [] => pure last
  | item :: items => do
    modifyScopes (·.set r name item)
    match ← attempt (run r script) with
    | .ok result => rounds name script result items
    | .error .continue => rounds name script last items
    | .error .break => pure last
    | .error (.error f) => signal (.error f)

/-- `foreach` runs its body once for each item. -/
def foreach : List Value → Eval (List Value)
  | [name, items, code] => do
    let script ← ofExcept (Command.body code)
    rounds run r name.render script [] items.toList
  | _ => signal (.error (Command.usage "foreach var list body"))

/-- A script and, where it fails, what is made of the fault. -/
def guarded (script : Script) (fallback : Fault → Eval (List Value)) : Eval (List Value) := do
  match ← attempt (run r script) with
  | .error (.error f) => fallback f
  | .error e => signal e
  | .ok result => pure result

/-- `try` runs its body and, should it fail, its handler, which finds the fault in a variable. -/
def try_ : List Value → Eval (List Value)
  | [code] => do
    let script ← ofExcept (Command.body code)
    guarded run r script fun f => pure [.fault f]
  | [code, fallback] => do
    let script ← ofExcept (Command.body code)
    let handler ← ofExcept (Command.body fallback)
    guarded run r script fun f => do
      modifyScopes (·.set r errorVariable (.fault f))
      run r handler
  | _ => signal (.error (Command.usage "try body ?fallback?"))

/-- `eval` runs its words as a script in a new inner scope. -/
def eval (args : List Value) : Eval (List Value) :=
  if args.isEmpty then signal (.error (Command.usage "eval script"))
  else do
    let script ← ofExcept (Command.body (.text (Command.spaced args)))
    let inner := ((← scopes).newChild r).1
    modifyScopes fun s => (s.newChild r).2
    run inner script

/-- `log` writes its words. -/
def writeLog (args : List Value) : Eval (List Value) := do
  Eval.log (Command.logLine args).1 (Command.spaced (Command.logLine args).2)
  pure []

/-- Runs a built-in command. -/
def builtin (b : Builtin) (args : List Value) : Eval (List Value) :=
  match b with
  | .set => set r args
  | .list => pure [.list args]
  | .incr => incr r args
  | .error => error args
  | .break => signal .break
  | .continue => signal .continue
  | .foreach => foreach run r args
  | .try => try_ run r args
  | .eval => eval run r args
  | .log => writeLog args

/-- Runs what a command word that names no command stands for: an endpoint in the neighbourhood of
the context, or one given by its address. -/
def outward (word : String) (args : List Value) : Eval (List Value) := do
  if word.toList.head? = some '.' then
    let context := ((← scopes).get? r contextVariable).bind Value.path?
    call (← ofExcept (CommandWord.relative context word)) args
  else if word.toList.contains '/' && word.toList.contains '.' then
    call (← ofExcept (CommandWord.absolute word)) args
  else signal (.error (.script ("unknown command '" ++ word ++ "'")))

/-- Runs the command that the values of a line come to. -/
def command : List Value → Eval (List Value)
  | [] => pure []
  | .address (.endpoint target) :: args => call target args
  | head :: args => do
    match (← scopes).command? r head.render with
    | some b => builtin run r b args
    | none => outward r head.render args

/-! ## Scripts -/

/-- Runs a line. -/
def line (l : ScriptLine) : Eval (List Value) := do command run r (← words run r [] l.words)

/-- The message under which the failure of a line is noted. -/
def failureText (l : ScriptLine) (f : Fault) : String :=
  "line " ++ Decimal.ofNat l.number ++ ": " ++ f.message

/-- Runs lines in order; where failures are trapped they are noted and the next line is run. -/
def lines (trap : Bool) (trapped : List String) (last : List Value) :
    List ScriptLine → Eval (List Value)
  | [] =>
    if trapped.isEmpty then pure last
    else signal (.error (.script (Text.join "\n" trapped)))
  | l :: rest => do
    match ← attempt (line run r l) with
    | .ok result => lines trap trapped result rest
    | .error (.error f) =>
      if trap then do
        modifyScopes (·.push r errorsVariable (.text (failureText l f)))
        lines trap (trapped ++ [failureText l f]) last rest
      else signal (.error f)
    | .error e => signal e

/-- Runs a script; where it traps, the list of failures is empty at first. -/
def script (trap : Bool) (s : Script) : Eval (List Value) := do
  if trap then modifyScopes (·.set r errorsVariable (.list []))
  lines run r trap [] [] s.lines

end Commands

/-- Evaluates a script in a scope, with scripts inside scripts up to a depth. -/
def evaluate : Nat → ScopeRef → Bool → Script → Eval (List Value)
  | 0, _, _, _ => fun _ => none
  | depth + 1, r, trap, s => script (fun r s => evaluate depth r false s) r trap s

end Direct

end Switchboard
