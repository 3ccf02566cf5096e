/-!
# Scripts

A script is a list of command lines, a line a list of words. A word is kept as it was written: as
plain text, as the name of a variable, as a script in brackets whose result it stands for, as a
block in braces, or as several parts put together.
-/

namespace Switchboard

mutual

/-- A script: its lines, and the text that they were read from. -/
inductive Script where
  | mk (lines : List ScriptLine) (source : String)

/-- One command: the number of the text line on which it begins, and its words. -/
inductive ScriptLine where
  | mk (number : Nat) (words : List ScriptWord)

/-- A word of a command. -/
inductive ScriptWord where
  | literal (text : String)
  | variableRef (name : String)
  | substitution (script : Script)
  | block (text : String)
  | quoted (parts : List ScriptPart)

/-- A part of a word that is put together from several. -/
inductive ScriptPart where
  | text (text : String)
  | variableRef (name : String)
  | substitution (script : Script)

end

instance : Inhabited Script := ⟨⟨[], ""⟩⟩

namespace Script

/-- The lines that have a command. -/
def lines : Script → List ScriptLine
  | ⟨lines, _⟩ => lines

/-- The text that was read. -/
def source : Script → String
  | ⟨_, source⟩ => source

/-- Whether a script has no command. -/
def isEmpty (s : Script) : Bool := s.lines.isEmpty

end Script

namespace ScriptLine

/-- The number of the line on which the command begins. -/
def number : ScriptLine → Nat
  | ⟨number, _⟩ => number

/-- The words of a line, the command first. -/
def words : ScriptLine → List ScriptWord
  | ⟨_, words⟩ => words

end ScriptLine

/-- A word of one part is that part alone. -/
def ScriptPart.word : ScriptPart → ScriptWord
  | .text s => .literal s
  | .variableRef name => .variableRef name
  | .substitution script => .substitution script

end Switchboard
