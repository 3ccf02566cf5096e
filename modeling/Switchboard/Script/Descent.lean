import Switchboard.Script.Reader

/-!
# Reading scripts by descent

The other way to read a script keeps an index into the bytes of the text and calls itself for every
bracket that is opened.  It goes on byte by byte, also through characters of several bytes, and cuts
words out of the text by their indices.  So it has two ways to fail that the reader has not: it
could go on for ever, and it could cut a character apart or cut beyond the end of the text.

Calls may only go so deep into each other (the fuel), and where that is not enough there is no
result (`none`): reading that went on for ever would have none for any depth.  A bad cut is an
outcome of its own (`Stop.badCut`).
-/

namespace Switchboard.Script.Descent

/-- Where a reader is: the index of the next byte, and the text line. -/
structure Cursor where
  index : Nat
  line : Nat
deriving DecidableEq

/-- Why a reader stops without a result. -/
inductive Stop where
  /-- The text is no script. -/
  | flaw (e : ScriptError)
  /-- A piece of the text would begin or end inside of a character or beyond the end. -/
  | badCut
deriving DecidableEq

/-- Reading moves a cursor and may stop; where it does not come to an end there is no result. -/
abbrev Reading (α : Type) := StateT Cursor (ExceptT Stop Option) α

/-- Reading that may not go on and has not come to an end. -/
def unfinished {α : Type} : Reading α := fun _ => none

/-- The byte of a character that has one byte only. -/
def code (c : Char) : UInt8 := c.val.toUInt8

/-! ## Bytes and pieces of the text -/

section

variable (text : String)

/-- Stops because of what the text lacks. -/
def fail {α : Type} (flaw : ScriptFlaw) : Reading α := do
  throw (.flaw ⟨flaw, (← get).line⟩)

/-- The next byte, unless the text is at its end. -/
def byte? : Reading (Option UInt8) := do
  return text.toByteArray.data[(← get).index]?

/-- The byte behind the next one. -/
def secondByte? : Reading (Option UInt8) := do
  return text.toByteArray.data[(← get).index + 1]?

/-- Goes on by a byte; at the end of the text there is none. -/
def advance : Reading Unit := do
  match ← byte? text with
  | some b => modify fun c => ⟨c.index + 1, if b = code '\n' then c.line + 1 else c.line⟩
  | none => pure ()

/-- The piece of the text between two indices. -/
def cut (start stop : Nat) : Reading String :=
  if start ≤ stop ∧ String.Pos.Raw.IsValid text ⟨start⟩ ∧ String.Pos.Raw.IsValid text ⟨stop⟩ then
    pure (String.Pos.Raw.extract text ⟨start⟩ ⟨stop⟩)
  else throw .badCut

/-- Goes on by some bytes. -/
def advanceBy : Nat → Reading Unit
  | 0 => pure ()
  | n + 1 => do
    advance text
    advanceBy n

/-- Goes on by a character, or by a byte where there is none. -/
def advanceChar : Reading Unit := do
  let rest ← cut text (← get).index text.utf8ByteSize
  advanceBy text (match rest.toList with
    | [] => 1
    | c :: _ => c.utf8Size)

/-- Reads a character. -/
def readChar : Reading String := do
  let start := (← get).index
  advanceChar text
  cut text start (← get).index

/-- Goes on as long as bytes are of a kind. -/
def skipWhile : Nat → (UInt8 → Bool) → Reading Unit
  | 0, _ => unfinished
  | fuel + 1, p => do
    match ← byte? text with
    | none => pure ()
    | some b =>
      if p b then
        advance text
        skipWhile fuel p
      else pure ()

/-! ## Kinds of bytes -/

/-- The bytes between words. -/
def isBlankByte (b : UInt8) : Bool := b == code ' ' || b == code '\t' || b == code '\r'

/-- The bytes between commands. -/
def isGapByte (b : UInt8) : Bool :=
  isBlankByte b || b == code '\n' || b == code '\x0c' || b == code ';'

/-- The bytes of a variable name without braces. -/
def isNameByte (b : UInt8) : Bool :=
  (code 'a' ≤ b && b ≤ code 'z') || (code 'A' ≤ b && b ≤ code 'Z') || (code '0' ≤ b && b ≤ code '9')
    || b == code '_'

/-- What a backslash makes of a byte that does not stand for itself behind it. -/
def escape? (b : UInt8) : Option Char :=
  if b = code 'n' then some '\n'
  else if b = code 't' then some '\t'
  else if b = code 'r' then some '\r'
  else if b = code '\n' then some ' '
  else none

/-! ## Words -/

/-- Goes on behind the blanks between two words; a line goes on behind a backslash at its end. -/
def skipBlanks : Nat → Reading Unit
  | 0 => unfinished
  | fuel + 1 => do
    match ← byte? text with
    | none => pure ()
    | some b =>
      if isBlankByte b then
        advance text
        skipBlanks fuel
      else if b = code '\\' ∧ (← secondByte? text) = some (code '\n') then
        advance text
        advance text
        skipBlanks fuel
      else pure ()

/-- Reads the name of a variable behind the dollar sign; there need not be one. -/
def readName (fuel : Nat) : Reading (Option String) := do
  advance text
  if (← byte? text) = some (code '\x7b') then
    advance text
    let start := (← get).index
    skipWhile text fuel (· != code '\x7d')
    match ← byte? text with
    | none => fail .openName
    | some _ =>
      let name ← cut text start (← get).index
      advance text
      return some name
  else
    let start := (← get).index
    skipWhile text fuel isNameByte
    if start = (← get).index then return none
    else return some (← cut text start (← get).index)

/-- Reads the rest of a block that began at an index, within so many braces. -/
def readBlock : Nat → Nat → Nat → Reading String
  | 0, _, _ => unfinished
  | fuel + 1, start, depth => do
    match ← byte? text with
    | none => fail .openBlock
    | some b =>
      if b = code '\x7d' ∧ depth - 1 = 0 then
        let block ← cut text start (← get).index
        advance text
        return block
      else
        if b = code '\\' then advance text
        advance text
        readBlock fuel start
          (if b = code '\x7b' then depth + 1 else if b = code '\x7d' then depth - 1 else depth)

/-- The parts of a word with the text that has been read behind them, if there is any. -/
def flushed (parts : List ScriptPart) (buffer : String) : List ScriptPart :=
  if buffer.isEmpty then parts else parts ++ [.text buffer]

/-- The parts of a word that ends; a quoted word has one part at least. -/
def ended (quoted : Bool) (parts : List ScriptPart) (buffer : String) : List ScriptPart :=
  if quoted && (flushed parts buffer).isEmpty then [.text ""] else flushed parts buffer

/-- Whether a byte ends a bare word. -/
def endsBareByte (nested : Bool) (b : UInt8) : Bool :=
  isBlankByte b || b == code '\n' || b == code ';' || (b == code ']' && nested)

/-! ## Commands -/

mutual

/-- Reads commands up to the end of the text, or to the bracket that closes them. -/
def readBody : Nat → Bool → List ScriptLine → Reading (List ScriptLine)
  | 0, _, _ => unfinished
  | fuel + 1, nested, lines => do
    skipWhile text fuel isGapByte
    match ← byte? text with
    | none => if nested then fail .openSubstitution else return lines
    | some b =>
      if b = code ']' ∧ nested then
        advance text
        return lines
      else if b = code '#' then
        skipWhile text fuel (· != code '\n')
        readBody fuel nested lines
      else
        let number := (← get).line
        let words ← readWords fuel nested []
        readBody fuel nested (if words.isEmpty then lines else lines ++ [⟨number, words⟩])

/-- Reads the words of a command. -/
def readWords : Nat → Bool → List ScriptWord → Reading (List ScriptWord)
  | 0, _, _ => unfinished
  | fuel + 1, nested, words => do
    skipBlanks text fuel
    match ← byte? text with
    | none => return words
    | some b =>
      if b = code '\n' ∨ b = code ';' ∨ b = code ']' ∧ nested then return words
      else
        let word ← readWord fuel nested
        readWords fuel nested (words ++ [word])

/-- Reads a word. -/
def readWord : Nat → Bool → Reading ScriptWord
  | 0, _ => unfinished
  | fuel + 1, nested => do
    let b ← byte? text
    if b = some (code '\x7b') then
      advance text
      return .block (← readBlock text fuel (← get).index 1)
    else if b = some (code '"') then
      advance text
      return .quoted (← readParts fuel true nested [] "")
    else
      match ← readParts fuel false nested [] "" with
      | [p] => return p.word
      | parts => return .quoted parts

/-- Reads the rest of a word of which some parts have been read. -/
def readParts : Nat → Bool → Bool → List ScriptPart → String → Reading (List ScriptPart)
  | 0, _, _, _, _ => unfinished
  | fuel + 1, quoted, nested, parts, buffer => do
    match ← byte? text with
    | none => if quoted then fail .openQuote else return ended quoted parts buffer
    | some b =>
      if quoted ∧ b = code '"' then
        advance text
        return ended quoted parts buffer
      else if ¬quoted ∧ endsBareByte nested b then return ended quoted parts buffer
      else if b = code '$' then
        match ← readName text fuel with
        | some name =>
          readParts fuel quoted nested (flushed parts buffer ++ [.variableRef name]) ""
        | none => readParts fuel quoted nested parts (buffer.push '$')
      else if b = code '[' then
        let script ← readSubstitution fuel
        readParts fuel quoted nested (flushed parts buffer ++ [.substitution script]) ""
      else if b = code '\\' then
        advance text
        match ← byte? text with
        | none => fail .openEscape
        | some e =>
          match escape? e with
          | some c =>
            advance text
            readParts fuel quoted nested parts (buffer.push c)
          | none =>
            let char ← readChar text
            readParts fuel quoted nested parts (buffer ++ char)
      else
        let char ← readChar text
        readParts fuel quoted nested parts (buffer ++ char)

/-- Reads the script in brackets. -/
def readSubstitution : Nat → Reading Script
  | 0 => unfinished
  | fuel + 1 => do
    advance text
    let start := (← get).index
    let lines ← readBody fuel true []
    return ⟨lines, ← cut text start ((← get).index - 1)⟩

end

/-- Reads a text as a script. -/
def read? (fuel : Nat) : Option (Except Stop Script) :=
  ((readBody text fuel false []).run ⟨0, 1⟩).run.map fun r => r.map fun p => ⟨p.1, text⟩

end

end Switchboard.Script.Descent
