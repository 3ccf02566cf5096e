import Switchboard.Value

/-!
# Scopes

Variables and commands live in scopes. All scopes are kept in one store and known by number. A
reference to a scope names the scope together with those that enclose it, from the inside out:
reading looks through all of them, writing changes the innermost one only. Main statement: a write
changes no other scope than its own.
-/

namespace Switchboard

/-- The commands that every script can use. -/
inductive Builtin where
  | set
  | list
  | incr
  | error
  | break
  | continue
  | foreach
  | try
  | eval
  | log
deriving DecidableEq

/-- The name under which a built-in command is known at first. -/
def Builtin.name : Builtin → String
  | .set => "set"
  | .list => "list"
  | .incr => "incr"
  | .error => "error"
  | .break => "break"
  | .continue => "continue"
  | .foreach => "foreach"
  | .try => "try"
  | .eval => "eval"
  | .log => "log"

/-- All built-in commands. -/
def Builtin.all : List Builtin :=
  [.set, .list, .incr, .error, .break, .continue, .foreach, .try, .eval, .log]

/-- The variables and commands of one scope. -/
structure Scope where
  bindings : Keyed Value := []
  commands : Keyed Builtin := []

/-- A scope without variables and commands. -/
def Scope.empty : Scope := {}

/-- All scopes, by number. -/
structure Scopes where
  scopes : List Scope := []

/-- A scope and those that enclose it, the innermost first. -/
structure ScopeRef where
  own : Nat
  enclosing : List Nat := []
deriving DecidableEq

namespace ScopeRef

/-- The scopes that reading looks through, in order. -/
def chain (r : ScopeRef) : List Nat := r.own :: r.enclosing

end ScopeRef

namespace Scopes

/-- The scope of a number; a number that was never given out counts as empty. -/
def scope (s : Scopes) (id : Nat) : Scope := s.scopes[id]?.getD .empty

/-- Changes one scope. -/
def update (s : Scopes) (id : Nat) (f : Scope → Scope) : Scopes := ⟨s.scopes.modify id f⟩

/-- A scope that nothing encloses. -/
def newTop (s : Scopes) : ScopeRef × Scopes :=
  (⟨s.scopes.length, []⟩, ⟨s.scopes ++ [.empty]⟩)

/-- A scope inside another one. -/
def newChild (s : Scopes) (r : ScopeRef) : ScopeRef × Scopes :=
  (⟨s.scopes.length, r.chain⟩, ⟨s.scopes ++ [.empty]⟩)

/-- The value of a variable, from the innermost scope that has it. -/
def get? (s : Scopes) (r : ScopeRef) (name : String) : Option Value :=
  r.chain.findSome? fun id => (s.scope id).bindings.find? name

/-- The command of a name, from the innermost scope that has it. -/
def command? (s : Scopes) (r : ScopeRef) (name : String) : Option Builtin :=
  r.chain.findSome? fun id => (s.scope id).commands.find? name

/-- Gives a variable a value in the own scope. -/
def set (s : Scopes) (r : ScopeRef) (name : String) (v : Value) : Scopes :=
  s.update r.own fun scope => { scope with bindings := scope.bindings.insert name v }

/-- Sets variables in turn. -/
def setAll (s : Scopes) (r : ScopeRef) (entries : List (String × Value)) : Scopes :=
  entries.foldl (fun s e => s.set r e.1 e.2) s

/-- Removes a variable from the own scope. -/
def unset (s : Scopes) (r : ScopeRef) (name : String) : Scopes :=
  s.update r.own fun scope => { scope with bindings := scope.bindings.erase name }

/-- Gives a name a command in the own scope. -/
def define (s : Scopes) (r : ScopeRef) (name : String) (command : Builtin) : Scopes :=
  s.update r.own fun scope => { scope with commands := scope.commands.insert name command }

/-- Defines every built-in command under its own name. -/
def defineAll (s : Scopes) (r : ScopeRef) : Scopes :=
  Builtin.all.foldl (fun s b => s.define r b.name b) s

/-- The value of a variable of this scope alone. -/
def own? (s : Scopes) (r : ScopeRef) (name : String) : Option Value :=
  (s.scope r.own).bindings.find? name

/-- Adds a value at the end of a list variable; another value becomes the first item. -/
def push (s : Scopes) (r : ScopeRef) (name : String) (v : Value) : Scopes :=
  let items := match s.own? r name with
    | none => [v]
    | some (.list items) => items ++ [v]
    | some other => [other, v]
  s.set r name (.list items)

/-- A change of one scope leaves the others alone. -/
theorem scope_update_of_ne {s : Scopes} {i j : Nat} (h : i ≠ j) (f : Scope → Scope) :
    (s.update i f).scope j = s.scope j := by
  simp [scope, update, h]

/-- Setting a variable changes no other scope. -/
theorem scope_set_of_ne {s : Scopes} {r : ScopeRef} {id : Nat} (h : r.own ≠ id) (name : String)
    (v : Value) : (s.set r name v).scope id = s.scope id :=
  scope_update_of_ne h _

end Scopes

end Switchboard
