import Switchboard.Script
import Switchboard.Decimal.Integer

/-!
# Reading scripts

The reader goes through a text one character at a time. Its state says where it stands: where a
command may begin, between two words, or inside a word, a name, a block or a comment; and, for each
bracket that is still open, the commands and the word around it. No character is ever refused, so
whether a text is a script is decided by the state at its end alone.
-/

namespace Switchboard

/-- What a text still lacks at its end. -/
inductive ScriptFlaw where
  | openSubstitution
  | openQuote
  | openName
  | openBlock
  | openEscape
deriving DecidableEq

/-- Why a text is not a script: what its end, on the given line, still lacks. -/
structure ScriptError where
  flaw : ScriptFlaw
  line : Nat
deriving DecidableEq

/-- The text of a flaw. -/
def ScriptFlaw.message : ScriptFlaw → String
  | .openSubstitution => "unterminated command substitution"
  | .openQuote => "unterminated quoted word"
  | .openName => "unterminated variable name"
  | .openBlock => "unterminated block"
  | .openEscape => "incomplete escape"

/-- The text of a script that cannot be read, with the line of the flaw. -/
def ScriptError.message (e : ScriptError) : String :=
  "invalid script syntax: " ++ e.flaw.message ++ " at line " ++ Decimal.ofNat e.line

namespace Script.Reader

/-- A word that is being read: whether a quote opened it, the parts that are finished and the text
of the part that is not, both with the newest first. -/
structure Draft where
  quoted : Bool
  parts : List ScriptPart
  text : List Char

namespace Draft

/-- A word of which nothing has been read. -/
def empty (quoted : Bool) : Draft := ⟨quoted, [], []⟩

/-- Adds a character to the text that is being read. -/
def push (d : Draft) (c : Char) : Draft := { d with text := c :: d.text }

/-- Ends the text that is being read, if there is any. -/
def flush (d : Draft) : Draft :=
  if d.text.isEmpty then d
  else { d with parts := .text (String.ofList d.text.reverse) :: d.parts, text := [] }

/-- Adds a part that is not text. -/
def addPart (d : Draft) (p : ScriptPart) : Draft :=
  let f := d.flush
  { f with parts := p :: f.parts }

/-- The word that a draft has become. A quoted word has one part at least; a bare word of one part
is that part. -/
def word (d : Draft) : ScriptWord :=
  let parts := d.flush.parts.reverse
  match d.quoted, parts with
  | true, [] => .quoted [.text ""]
  | true, parts => .quoted parts
  | false, [p] => p.word
  | false, parts => .quoted parts

end Draft

/-- The commands of a script or of a bracket, as far as they have been read; the newest line, word
and character come first. -/
structure Body where
  lines : List ScriptLine
  number : Nat
  words : List ScriptWord
  source : List Char

namespace Body

/-- A script of which nothing has been read. -/
def empty : Body := ⟨[], 1, [], []⟩

/-- Adds a word to the line that is being read. -/
def addWord (b : Body) (w : ScriptWord) : Body := { b with words := w :: b.words }

/-- Ends the line that is being read, if it has a word. -/
def endLine (b : Body) : Body :=
  if b.words.isEmpty then b
  else { b with lines := ⟨b.number, b.words.reverse⟩ :: b.lines, words := [] }

/-- The script that has been read. -/
def script (b : Body) : Script := ⟨b.lines.reverse, String.ofList b.source.reverse⟩

end Body

/-- Where a reader stands. -/
inductive Place where
  /-- Where a command may begin. -/
  | command
  | comment
  /-- Between two words of a command. -/
  | between
  /-- Behind a backslash between two words. -/
  | continued
  | word (draft : Draft)
  /-- Behind a backslash in a word. -/
  | escape (draft : Draft)
  /-- Behind a dollar sign in a word. -/
  | dollar (draft : Draft)
  | name (draft : Draft) (name : List Char)
  | bracedName (draft : Draft) (name : List Char)
  | block (depth : Nat) (text : List Char)
  /-- Behind a backslash in a block. -/
  | blockEscape (depth : Nat) (text : List Char)

/-- The state of a reader: the line it is on, the commands that it is reading, where in them it
stands, and what surrounds each open bracket, the innermost first. -/
structure State where
  line : Nat
  body : Body
  place : Place
  outer : List (Body × Draft)

namespace State

/-- The state before the first character. -/
def start : State := ⟨1, .empty, .command, []⟩

/-- Whether a closing bracket would end a substitution here. -/
def isNested (s : State) : Bool := !s.outer.isEmpty

/-- Goes on at another place. -/
def goTo (s : State) (p : Place) : State := { s with place := p }

/-- Ends a word of the line that is being read. -/
def endWord (s : State) (w : ScriptWord) : State :=
  { s with body := s.body.addWord w, place := .between }

/-- Ends the line and looks for the next command. -/
def endLine (s : State) : State := { s with body := s.body.endLine, place := .command }

/-- Ends the innermost substitution, which becomes a part of the word around it. -/
def closeBracket (s : State) : State :=
  match s.outer with
  | [] => s
  | (around, draft) :: outer =>
    -- the closing bracket belongs to the text around the substitution
    let inner := { s.body.endLine with source := s.body.source.drop 1 }
    { s with
      body := { around with source := s.body.source ++ around.source }
      place := .word (draft.addPart (.substitution inner.script))
      outer := outer }

/-- Begins a substitution inside a word. -/
def openBracket (s : State) (d : Draft) : State :=
  { s with body := .empty, place := .command, outer := (s.body, d.flush) :: s.outer }

end State

/-- The characters between words. -/
def isBlank (c : Char) : Bool := c == ' ' || c == '\t' || c == '\r'

/-- The characters between commands. -/
def isGap (c : Char) : Bool := isBlank c || c == '\n' || c == '\x0c' || c == ';'

/-- The characters of a variable name without braces. -/
def isNameChar (c : Char) : Bool := c.isAlphanum || c == '_'

/-- The character that a backslash makes of the one behind it. -/
def unescape : Char → Char
  | 'n' => '\n'
  | 't' => '\t'
  | 'r' => '\r'
  | '\n' => ' '
  | c => c

/-- Whether a character ends a bare word. -/
def endsBare (s : State) (c : Char) : Bool :=
  isBlank c || c == '\n' || c == ';' || (c == ']' && s.isNested)

/-- A character that goes on a word and does not end it. -/
def inWord (s : State) (d : Draft) (c : Char) : State :=
  match c with
  | '$' => s.goTo (.dollar d)
  | '[' => s.openBracket d
  | '\\' => s.goTo (.escape d)
  | c => s.goTo (.word (d.push c))

/-- A character between two words. -/
def atBetween (s : State) (c : Char) : State :=
  if isBlank c then s.goTo .between
  else if c = '\n' ∨ c = ';' then s.endLine
  else if c = ']' ∧ s.isNested then s.closeBracket
  else match c with
    | '\\' => s.goTo .continued
    | '\x7b' => s.goTo (.block 1 [])
    | '"' => s.goTo (.word (.empty true))
    | c => inWord s (.empty false) c

/-- A character where a command may begin. -/
def atCommand (s : State) (c : Char) : State :=
  if isGap c then s
  else if c = ']' ∧ s.isNested then s.closeBracket
  else if c = '#' then s.goTo .comment
  else atBetween { s with body := { s.body with number := s.line } } c

/-- A character inside a word. -/
def atWord (s : State) (d : Draft) (c : Char) : State :=
  if d.quoted then
    if c = '"' then s.endWord d.word else inWord s d c
  else if endsBare s c then atBetween (s.endWord d.word) c
  else inWord s d c

/-- What a character does where the reader stands. -/
def dispatch (s : State) (c : Char) : State :=
  match s.place with
  | .command => atCommand s c
  | .comment => if c = '\n' then s.goTo .command else s
  | .between => atBetween s c
  | .continued =>
    if c = '\n' then s.goTo .between
    else s.goTo (.word ((Draft.empty false).push (unescape c)))
  | .word d => atWord s d c
  | .escape d => s.goTo (.word (d.push (unescape c)))
  | .dollar d =>
    if c = '\x7b' then s.goTo (.bracedName d [])
    else if isNameChar c then s.goTo (.name d [c])
    else atWord s (d.push '$') c
  | .name d name =>
    if isNameChar c then s.goTo (.name d (c :: name))
    else atWord s (d.addPart (.variableRef (String.ofList name.reverse))) c
  | .bracedName d name =>
    if c = '\x7d' then s.goTo (.word (d.addPart (.variableRef (String.ofList name.reverse))))
    else s.goTo (.bracedName d (c :: name))
  | .block depth text =>
    match c with
    | '\x7b' => s.goTo (.block (depth + 1) (c :: text))
    | '\x7d' =>
      if depth ≤ 1 then s.endWord (.block (String.ofList text.reverse))
      else s.goTo (.block (depth - 1) (c :: text))
    | '\\' => s.goTo (.blockEscape depth (c :: text))
    | c => s.goTo (.block depth (c :: text))
  | .blockEscape depth text => s.goTo (.block depth (c :: text))

/-- One character: it is noted as source, acts where the reader stands and may end a text line. -/
def step (s : State) (c : Char) : State :=
  let t := dispatch { s with body := { s.body with source := c :: s.body.source } } c
  if c = '\n' then { t with line := t.line + 1 } else t

/-- Reads characters one after the other. -/
def run (s : State) (cs : List Char) : State := cs.foldl step s

/-- What is lacking where a text ends. -/
def flaw? (s : State) : Option ScriptFlaw :=
  match s.place with
  | .continued => some .openEscape
  | .escape _ => some .openEscape
  | .bracedName .. => some .openName
  | .block .. => some .openBlock
  | .blockEscape .. => some .openBlock
  | .word d => inWordFlaw d
  | .dollar d => inWordFlaw d
  | .name d _ => inWordFlaw d
  | .command => bodyFlaw
  | .comment => bodyFlaw
  | .between => bodyFlaw
where
  bodyFlaw : Option ScriptFlaw := if s.isNested then some .openSubstitution else none
  inWordFlaw (d : Draft) : Option ScriptFlaw := if d.quoted then some .openQuote else bodyFlaw

/-- The commands read, with the word and the line that the end of the text ends. -/
def finalBody (s : State) : Body :=
  match s.place with
  | .word d => (s.body.addWord d.word).endLine
  | .dollar d => (s.body.addWord (d.push '$').word).endLine
  | .name d name =>
    (s.body.addWord (d.addPart (.variableRef (String.ofList name.reverse))).word).endLine
  | _ => s.body.endLine

/-- The script that has been read when a text ends. -/
def finish (s : State) : Except ScriptError Script :=
  match flaw? s with
  | some flaw => .error ⟨flaw, s.line⟩
  | none => .ok (finalBody s).script

end Script.Reader

/-- Reads a script. -/
def Script.ofText? (text : String) : Except ScriptError Script :=
  Script.Reader.finish (Script.Reader.run .start text.toList)

end Switchboard
