import Switchboard.Json
import Switchboard.Script

/-!
# Documents of scripts
-/

namespace Switchboard.Document

/-- A document with a type and a content. -/
def ofWordKind (kind : String) (content : Json) : Json :=
  .object [("type", .text kind), ("value", content)]

mutual

/-- The document of a script. -/
def ofScript : Script → Json
  | .mk lines source => .object [("lines", .array (ofLines lines)), ("source", .text source)]

/-- The documents of lines. -/
def ofLines : List ScriptLine → List Json
  | [] => []
  | line :: rest => ofLine line :: ofLines rest

/-- The document of a line. -/
def ofLine : ScriptLine → Json
  | .mk number words => .object [("number", .ofInt number), ("words", .array (ofWords words))]

/-- The documents of words. -/
def ofWords : List ScriptWord → List Json
  | [] => []
  | word :: rest => ofWord word :: ofWords rest

/-- The document of a word. -/
def ofWord : ScriptWord → Json
  | .literal s => ofWordKind "Literal" (.text s)
  | .variableRef name => ofWordKind "Variable" (.text name)
  | .substitution s => ofWordKind "Substitution" (ofScript s)
  | .block s => ofWordKind "Block" (.text s)
  | .quoted parts => ofWordKind "Quoted" (.array (ofParts parts))

/-- The documents of the parts of a word. -/
def ofParts : List ScriptPart → List Json
  | [] => []
  | part :: rest => ofPart part :: ofParts rest

/-- The document of a part of a word. -/
def ofPart : ScriptPart → Json
  | .text s => ofWordKind "Text" (.text s)
  | .variableRef name => ofWordKind "Variable" (.text name)
  | .substitution s => ofWordKind "Substitution" (ofScript s)

end

end Switchboard.Document
