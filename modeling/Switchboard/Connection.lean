import Switchboard.Error
import Switchboard.Value.Views

/-!
# Connections

A connection leads from an output port of one child of a container to an input port of another.
-/

namespace Switchboard

/-- A connection between the ports of two children. -/
structure Connection where
  source : String
  sourcePort : String
  target : String
  targetPort : String
deriving DecidableEq

namespace Connection

/-- Reads a connection from four arguments, or from a list of four as the only argument. -/
def ofArgs (args : List Value) : Except ContainerError Connection :=
  let items := match args with
    | [.list items] => items
    | _ => args
  match items.map Value.render with
  | [source, sourcePort, target, targetPort] => .ok ⟨source, sourcePort, target, targetPort⟩
  | texts =>
    .error (.invalidConnection ("expected 4 arguments, got " ++ Decimal.ofNat texts.length))

/-- The form in which a connection travels in a call. -/
def value (c : Connection) : Value :=
  .list [.text c.source, .text c.sourcePort, .text c.target, .text c.targetPort]

/-- The end at which values leave. -/
def sourceText (c : Connection) : String := c.source ++ "!" ++ c.sourcePort

/-- The end at which values arrive. -/
def targetText (c : Connection) : String := c.target ++ "!" ++ c.targetPort

/-- A connection is written as its two ends with an arrow between them. -/
def text (c : Connection) : String := c.sourceText ++ " -> " ++ c.targetText

/-- The four words of a connection. -/
def fields (c : Connection) : List String := [c.source, c.sourcePort, c.target, c.targetPort]

/-- Whether a connection ends or begins at a child. -/
def touches (c : Connection) (child : String) : Bool := c.source == child || c.target == child

/-- The order of connections: that of their first field that differs. -/
def compare (a b : Connection) : Ordering := compareIds a.fields b.fields

/-- Puts a connection into its place in a sorted list that does not hold it. -/
def insertSorted (c : Connection) : List Connection → List Connection
  | [] => [c]
  | d :: rest => if c.compare d = .lt then c :: d :: rest else d :: insertSorted c rest

/-- A connection reads back from the value that lists its words. -/
theorem ofArgs_value (c : Connection) : ofArgs [c.value] = .ok c := by
  simp [ofArgs, value, Value.render]

end Connection

end Switchboard
