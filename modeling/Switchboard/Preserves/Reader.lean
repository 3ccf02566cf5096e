import Switchboard.Preserves
import Switchboard.Decimal.Reading

/-!
# Reading Preserves text

The reader of the text form. It reads the first document of a text, leaves out annotations and
comments, and lets any closing bracket close what is open; commas count as blanks between the items
of sequences, sets and dictionaries. A set that holds an item twice is refused, and so is a
dictionary with two entries for one key.
-/

namespace Switchboard.Preserves

/-- What a reader gives: the thing read and the text behind it, or nothing on a fault. -/
abbrev Read (α : Type) := Option (α × List Char)

/-- The characters that may stand between tokens. -/
def isSpace (c : Char) : Bool := c == ' ' || c == '\t' || c == '\r' || c == '\n'

/-- The text behind leading blanks, and behind commas where they count as blanks. -/
def skipSpace (commas : Bool) (cs : List Char) : List Char :=
  cs.dropWhile fun c => isSpace c || (commas && c == ',')

/-- The characters that close a compound. -/
def isClosing (c : Char) : Bool := c == '>' || c == ']' || c == '\x7d'

/-- The value of a hexadecimal digit. -/
def hexValue? (c : Char) : Option Nat :=
  if c.isDigit then some (c.toNat - 48)
  else if 'a' ≤ c ∧ c ≤ 'f' then some (c.toNat - 87)
  else if 'A' ≤ c ∧ c ≤ 'F' then some (c.toNat - 55)
  else none

/-- The number that hexadecimal digits write. -/
def hexNumber? (cs : List Char) : Option Nat :=
  cs.foldlM (fun n c => (hexValue? c).map fun d => n * 16 + d) 0

/-- The character that an escape of one letter stands for between the marks `mark`. -/
def unescape? (mark : Char) : Char → Option Char
  | 'b' => some '\x08'
  | 'f' => some '\x0c'
  | 'n' => some '\n'
  | 'r' => some '\r'
  | 't' => some '\t'
  | '\\' => some '\\'
  | '/' => some '/'
  | c => if c = mark then some c else none

/-- The character with this code, unless the code is half of a surrogate pair. -/
def charOfCode? (n : Nat) : Option Char :=
  if n < 0xD800 ∨ (0xE000 ≤ n ∧ n < 0x110000) then some (Char.ofNat n) else none

/-- Reads the rest of a text up to its closing mark. -/
def readText (mark : Char) : List Char → Read (List Char)
  | [] => none
  | '\\' :: 'u' :: a :: b :: c :: d :: '\\' :: 'u' :: e :: f :: g :: h :: rest =>
    match hexNumber? [a, b, c, d] with
    | none => none
    | some high =>
      if 0xD800 ≤ high ∧ high < 0xDC00 then
        match hexNumber? [e, f, g, h] with
        | none => none
        | some low =>
          if 0xDC00 ≤ low ∧ low < 0xE000 then
            let ch := Char.ofNat ((high - 0xD800) * 1024 + (low - 0xDC00) + 0x10000)
            (readText mark rest).map fun r => (ch :: r.1, r.2)
          else none
      else
        match charOfCode? high with
        | none => none
        | some ch =>
          (readText mark ('\\' :: 'u' :: e :: f :: g :: h :: rest)).map fun r => (ch :: r.1, r.2)
  | '\\' :: 'u' :: a :: b :: c :: d :: rest =>
    match (hexNumber? [a, b, c, d]).bind charOfCode? with
    | none => none
    | some ch => (readText mark rest).map fun r => (ch :: r.1, r.2)
  | '\\' :: e :: rest =>
    match unescape? mark e with
    | none => none
    | some ch => (readText mark rest).map fun r => (ch :: r.1, r.2)
  | c :: rest =>
    if c = mark then some ([], rest) else (readText mark rest).map fun r => (c :: r.1, r.2)

/-- Reads bytes given by characters up to the closing quote; a character stands for its bytes in
UTF-8. -/
def readByteText : List Char → Read (List UInt8)
  | [] => none
  | '"' :: rest => some ([], rest)
  | '\\' :: 'x' :: a :: b :: rest =>
    match hexNumber? [a, b] with
    | none => none
    | some n => (readByteText rest).map fun r => (n.toUInt8 :: r.1, r.2)
  | '\\' :: e :: rest =>
    match unescape? '"' e with
    | none => none
    | some ch => (readByteText rest).map fun r => (ch.toNat.toUInt8 :: r.1, r.2)
  | c :: rest => (readByteText rest).map fun r => (String.utf8EncodeChar c ++ r.1, r.2)

/-- Reads pairs of hexadecimal digits up to the closing quote. -/
def readHexBytes : List Char → Read (List UInt8)
  | [] => none
  | '"' :: rest => some ([], rest)
  | a :: rest =>
    if isSpace a then readHexBytes rest
    else match rest with
      | [] => none
      | b :: rest =>
        match hexNumber? [a, b] with
        | none => none
        | some n => (readHexBytes rest).map fun r => (n.toUInt8 :: r.1, r.2)

/-- The six bits that a character of base 64 stands for. -/
def sixBits? (c : Char) : Option Nat :=
  if 'A' ≤ c ∧ c ≤ 'Z' then some (c.toNat - 65)
  else if 'a' ≤ c ∧ c ≤ 'z' then some (c.toNat - 71)
  else if c.isDigit then some (c.toNat + 4)
  else if c = '+' ∨ c = '-' then some 62
  else if c = '/' ∨ c = '_' then some 63
  else none

/-- The bytes that groups of six bits make up; bits left over at the end must be zero, and there
must be fewer than six. -/
def bytesOfSixes? : List Nat → Option (List UInt8)
  | [] => some []
  | [_] => none
  | [a, b] => if b % 16 = 0 then some [(a * 4 + b / 16).toUInt8] else none
  | [a, b, c] =>
    if c % 4 = 0 then some [(a * 4 + b / 16).toUInt8, (b % 16 * 16 + c / 4).toUInt8] else none
  | a :: b :: c :: d :: rest =>
    (bytesOfSixes? rest).map fun bytes =>
      (a * 4 + b / 16).toUInt8 :: (b % 16 * 16 + c / 4).toUInt8 :: (c % 4 * 64 + d).toUInt8
        :: bytes

/-- Reads bytes in base 64 up to the closing bracket. -/
def readBase64 (cs : List Char) : Read (List UInt8) :=
  match cs.dropWhile (· != ']') with
  | [] => none
  | _ :: rest =>
    let written := (cs.takeWhile (· != ']')).filter fun c => !(isSpace c || c == '=')
    ((written.mapM sixBits?).bind bytesOfSixes?).map fun bytes => (bytes, rest)

/-- Whether a character is cut in a bare word. The word is taken byte by byte, and the bytes `85`
and `A0` end it like the blanks of those codes; inside a character that leaves a piece of it. -/
def isCut (c : Char) : Bool := (String.utf8EncodeChar c).any fun b => b == 0x85 || b == 0xA0

/-- A bare word: a number where it spells one and a symbol otherwise. -/
def ofWord? (cs : List Char) : Option Preserves :=
  if cs.any isCut then none
  else match numberForm? cs with
    | some .whole => (Decimal.readInt? cs).map .int
    | some .float => (Decimal.readBinary64? cs).map .float
    | none => some (.symbol (String.ofList cs))

/-- The characters that no document begins with. -/
def isMisplaced (c : Char) : Bool := isClosing c || c == ',' || c == ':' || c == ';'

/-- Whether a bare word could not go on here. -/
def endsWord : List Char → Bool
  | [] => true
  | c :: _ => isDelimiter c

/-- The number whose bits are these eight bytes. -/
def floatOfBytes? (bs : List UInt8) : Option Binary64 :=
  if bs.length = 8 then some ⟨(bs.foldl (fun (n : Nat) b => n * 256 + b.toNat) 0).toUInt64⟩
  else none

/-- Reads what follows a number sign and is neither a comment nor compound. -/
def readSharp : List Char → Read Preserves
  | 't' :: rest => if endsWord rest then some (.bool true, rest) else none
  | 'f' :: rest => if endsWord rest then some (.bool false, rest) else none
  | '"' :: rest => (readByteText rest).map fun r => (.bytes r.1, r.2)
  | '[' :: rest => (readBase64 rest).map fun r => (.bytes r.1, r.2)
  | 'x' :: '"' :: rest => (readHexBytes rest).map fun r => (.bytes r.1, r.2)
  | 'x' :: 'd' :: '"' :: rest =>
    match readHexBytes rest with
    | none => none
    | some (bs, rest) => (floatOfBytes? bs).map fun x => (.float x, rest)
  | _ => none

/-- Whether a number sign before this text begins a comment. -/
def beginsComment : List Char → Bool
  | [] => false
  | c :: _ => isSpace c || c == '!'

mutual

/-- Reads the first document; every step into a part spends one unit of `fuel`. -/
def readFrom (fuel : Nat) (cs : List Char) : Read Preserves :=
  match fuel with
  | 0 => none
  | fuel + 1 =>
    match skipSpace false cs with
    | [] => none
    | '"' :: rest => (readText '"' rest).map fun r => (.text (String.ofList r.1), r.2)
    | '\'' :: rest => (readText '\'' rest).map fun r => (.symbol (String.ofList r.1), r.2)
    | '@' :: rest =>
      match readFrom fuel rest with
      | none => none
      | some (_, rest) => readFrom fuel rest
    | '<' :: rest =>
      match readFrom fuel rest with
      | none => none
      | some (label, rest) =>
        (readItems fuel false rest).map fun r => (.record label r.1, r.2)
    | '[' :: rest => (readItems fuel true rest).map fun r => (.sequence r.1, r.2)
    | '\x7b' :: rest =>
      match readEntries fuel rest with
      | none => none
      | some (entries, rest) =>
        if areDistinct (entries.map Prod.fst) then some (.dictionary entries, rest) else none
    | '#' :: '\x7b' :: rest =>
      match readItems fuel true rest with
      | none => none
      | some (items, rest) => if areDistinct items then some (.set items, rest) else none
    | '#' :: ':' :: rest => (readFrom fuel rest).map fun r => (.embedded r.1, r.2)
    | '#' :: rest =>
      if beginsComment rest then readFrom fuel (rest.dropWhile fun x => x != '\n' && x != '\r')
      else readSharp rest
    | c :: rest =>
      if isMisplaced c then none
      else
        let word := c :: rest.takeWhile fun x => !isDelimiter x
        (ofWord? word).map fun d => (d, rest.dropWhile fun x => !isDelimiter x)

/-- Reads documents up to a closing bracket. -/
def readItems (fuel : Nat) (commas : Bool) (cs : List Char) : Read (List Preserves) :=
  match fuel with
  | 0 => none
  | fuel + 1 =>
    match skipSpace commas cs with
    | [] => none
    | c :: rest =>
      if isClosing c then some ([], rest)
      else match readFrom fuel (c :: rest) with
        | none => none
        | some (item, rest) => (readItems fuel commas rest).map fun r => (item :: r.1, r.2)

/-- Reads pairs of documents, a colon between the two, up to a closing bracket. -/
def readEntries (fuel : Nat) (cs : List Char) : Read (List (Preserves × Preserves)) :=
  match fuel with
  | 0 => none
  | fuel + 1 =>
    match skipSpace true cs with
    | [] => none
    | c :: rest =>
      if isClosing c then some ([], rest)
      else match readFrom fuel (c :: rest) with
        | none => none
        | some (key, rest) =>
          match skipSpace false rest with
          | ':' :: rest =>
            match readFrom fuel rest with
            | none => none
            | some (value, rest) => (readEntries fuel rest).map fun r => ((key, value) :: r.1, r.2)
          | _ => none

end

/-- The first document of a text; no step is taken without using up a character. -/
def ofText? (text : String) : Option Preserves :=
  (readFrom (2 * text.length + 2) text.toList).map Prod.fst

end Switchboard.Preserves
