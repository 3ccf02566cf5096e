import Switchboard.Behavior.Scripting

/-!
# Catalogs and compilers

A catalog names the types of units that can be made; a compiler turns a source into a behavior.
-/

namespace Switchboard

/-- A type of units. -/
structure UnitType where
  behavior : Behavior
  /-- Whether its units may have children. -/
  container : Bool := false

/-- The types of units by name. -/
structure Catalog where
  types : Keyed UnitType

namespace Catalog

/-- The name of the type of plain containers. -/
def containerType : String := "core:container"

/-- The name of the type of script units. -/
def scriptType : String := "core:script"

/-- The name of the service that a script unit is known by. -/
def scriptService : String := "script"

/-- The type of root units, which is in no catalog. -/
def rootType : String := "core:root"

/-- The catalog with nothing but empty containers. -/
def base : Catalog := ⟨[(containerType, ⟨.empty, true⟩)]⟩

/-- The catalog with one more type, in the place of one of that name. -/
def register (c : Catalog) (name : String) (t : UnitType) : Catalog := ⟨c.types.insert name t⟩

/-- The catalog with the type of script units. -/
def withScripting (c : Catalog) : Catalog := c.register scriptType ⟨.scripting, false⟩

/-- The type of a name, which must be known. -/
def find? (c : Catalog) (name : String) : Except ContainerError UnitType :=
  match c.types.find? name with
  | some t => .ok t
  | none => .error (.unknownType name)

/-- Whether a type name is known. -/
def has (c : Catalog) (name : String) : Bool := c.types.hasKey name

/-- The known type names, in order. -/
def names (c : Catalog) : List String := c.types.map Prod.fst

end Catalog

/-- Turns a source into a behavior for a unit of a type, or says why not. -/
structure Compiler where
  compile (typeName source : String) : Except String Behavior

/-- A compiler that knows some sources by name and passes over blanks around a name. -/
def Compiler.ofSources (sources : Keyed Behavior) : Compiler where
  compile typeName source :=
    let name := String.ofList (Text.trim source.toList)
    match sources.find? name with
    | some b => .ok b
    | none => .error ("compiling " ++ typeName ++ ": unknown source '" ++ name ++ "'")

end Switchboard
