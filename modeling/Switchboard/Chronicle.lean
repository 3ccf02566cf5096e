/-!
# What becomes of members

The members of a behavior act at certain moments of its life, and its references are given values
that somebody has to give up in the end. A chronicle records both, member by member. Nothing
depends on it.
-/

namespace Switchboard

/-- A moment in the life of a behavior at which its members may act. -/
inductive Hook where
  /-- Whenever the unit becomes active. -/
  | init
  /-- When it becomes active for the first time after installation. -/
  | start
  /-- Whenever it is deactivated. -/
  | stop
  /-- After all members have been stopped. -/
  | reset
  /-- When a member is given up. -/
  | dispose
deriving DecidableEq

namespace Hook

/-- The name of a hook. -/
def name : Hook → String
  | .init => "init"
  | .start => "start"
  | .stop => "stop"
  | .reset => "reset"
  | .dispose => "dispose"

/-- The hooks in the order of a full life. -/
def all : List Hook := [.init, .start, .stop, .reset, .dispose]

/-- The hook of a name. -/
def ofName? (name : String) : Option Hook := all.find? fun h => h.name == name

end Hook

/-- What kind of member something is. -/
inductive Category where
  | control
  | port
  | reference
deriving DecidableEq

/-- A member of a behavior in place: behaviors are numbered in the order in which they were put in
place, and no two members of one category have the same name. -/
structure MemberId where
  installation : Nat
  category : Category
  id : String
deriving DecidableEq

/-- That a value was given up. -/
structure Disposal where
  /-- The member that the value was made for. -/
  maker : MemberId
  /-- The member that held it. -/
  holder : MemberId
  /-- Whether the value was handed to the member that held it. -/
  handed : Bool
deriving DecidableEq

/-- What has become of members and of the values of references, the last entries first. -/
structure Chronicle where
  /-- The moments at which members were let act. -/
  moments : List (MemberId × Hook) := []
  /-- The members for which a value was made. -/
  made : List MemberId := []
  disposed : List Disposal := []

namespace Chronicle

/-- Enters that a member is let act. -/
def moment (c : Chronicle) (m : MemberId) (h : Hook) : Chronicle :=
  { c with moments := (m, h) :: c.moments }

/-- Enters that a value was made for a member. -/
def make (c : Chronicle) (m : MemberId) : Chronicle := { c with made := m :: c.made }

/-- Enters that a value was given up. -/
def dispose (c : Chronicle) (d : Disposal) : Chronicle := { c with disposed := d :: c.disposed }

end Chronicle

end Switchboard
