import Switchboard.Decimal.Integer

/-!
# JSON

The text form of configurations and of stored values. A number keeps its digits as written, so that
a reader can tell a whole number from one with a point or an exponent. A text whose escapes do not
spell characters (half of a surrogate pair) is kept apart from texts that do, and so is an object
with such a key.
-/

namespace Switchboard

/-- A JSON document; members stay in the order in which they are written. -/
inductive Json where
  | null
  | bool (flag : Bool)
  | number (digits : String)
  | text (content : String)
  /-- A text, or an object with a key, whose escapes do not spell characters. -/
  | broken
  | array (items : List Json)
  | object (members : List (String × Json))

namespace Json

instance : Inhabited Json := ⟨.null⟩

/-- The characters that may stand between tokens. -/
def isSpace (c : Char) : Bool := c == ' ' || c == '\n' || c == '\t' || c == '\r'

/-- The text behind leading blanks. -/
def skipSpace (cs : List Char) : List Char := cs.dropWhile isSpace

/-- The value of a hexadecimal digit. -/
def hexDigit? (c : Char) : Option Nat :=
  if c.isDigit then some (c.toNat - 48)
  else if 'a' ≤ c ∧ c ≤ 'f' then some (c.toNat - 87)
  else if 'A' ≤ c ∧ c ≤ 'F' then some (c.toNat - 55)
  else none

/-- The number that four hexadecimal digits denote. -/
def hex4? (a b c d : Char) : Option Nat := do
  return (((← hexDigit? a) * 16 + (← hexDigit? b)) * 16 + (← hexDigit? c)) * 16 + (← hexDigit? d)

/-- The character that an escape of one letter stands for. -/
def shortEscape? : Char → Option Char
  | '"' => some '"'
  | '\\' => some '\\'
  | '/' => some '/'
  | 'b' => some '\x08'
  | 'f' => some '\x0c'
  | 'n' => some '\n'
  | 'r' => some '\r'
  | 't' => some '\t'
  | _ => none

/-- The units of sixteen bits that a text is written as, up to its closing quote. -/
inductive Unit16 where
  | char (c : Char)
  | escape (code : Nat)

/-- Reads the rest of a text after its opening quote. -/
def readUnits : List Char → Option (List Unit16 × List Char)
  | [] => none
  | '"' :: rest => some ([], rest)
  | '\\' :: 'u' :: a :: b :: c :: d :: rest =>
    match hex4? a b c d with
    | none => none
    | some code => (readUnits rest).map fun r => (.escape code :: r.1, r.2)
  | '\\' :: e :: rest =>
    match shortEscape? e with
    | none => none
    | some c => (readUnits rest).map fun r => (.char c :: r.1, r.2)
  | c :: rest =>
    if c.toNat < 0x20 then none else (readUnits rest).map fun r => (.char c :: r.1, r.2)

/-- The characters that units spell, two escapes of a surrogate pair being one. -/
def spell? : List Unit16 → Option (List Char)
  | [] => some []
  | .char c :: rest => (spell? rest).map (c :: ·)
  | .escape high :: .escape low :: rest =>
    if 0xD800 ≤ high ∧ high < 0xDC00 then
      if 0xDC00 ≤ low ∧ low < 0xE000 then
        (spell? rest).map (Char.ofNat ((high - 0xD800) * 1024 + (low - 0xDC00) + 0x10000) :: ·)
      else none
    else if 0xDC00 ≤ high ∧ high < 0xE000 then none
    else (spell? (.escape low :: rest)).map (Char.ofNat high :: ·)
  | .escape code :: rest =>
    if 0xD800 ≤ code ∧ code < 0xE000 then none
    else (spell? rest).map (Char.ofNat code :: ·)

/-- The number at the front of a text: a whole part without leading zeros, then perhaps a point
with digits and an exponent with digits. -/
def readNumber (cs : List Char) : Option (List Char × List Char) := do
  let (sign, cs) := match cs with
    | '-' :: r => (['-'], r)
    | r => ([], r)
  let (whole, cs) ← match cs with
    | '0' :: r => if (r.head?.map Char.isDigit).getD false then none else some (['0'], r)
    | r =>
      let ds := r.takeWhile Char.isDigit
      if ds.isEmpty then none else some (ds, r.dropWhile Char.isDigit)
  let (fraction, cs) ← match cs with
    | '.' :: r =>
      let ds := r.takeWhile Char.isDigit
      if ds.isEmpty then none else some ('.' :: ds, r.dropWhile Char.isDigit)
    | r => some ([], r)
  let (exponent, cs) ← match cs with
    | c :: r =>
      if c = 'e' ∨ c = 'E' then
        let (s, r) := match r with
          | '-' :: r => (['-'], r)
          | '+' :: r => (['+'], r)
          | r => ([], r)
        let ds := r.takeWhile Char.isDigit
        if ds.isEmpty then none else some (c :: s ++ ds, r.dropWhile Char.isDigit)
      else some ([], c :: r)
    | [] => some ([], [])
  return (sign ++ whole ++ fraction ++ exponent, cs)

/-- What is still open around the place that a reader has reached. -/
inductive Open where
  | array (before : List Json)
  | object (before : List (Option String × Json)) (key : Option String)

/-- Reads a key with the colon after it; the opening quote comes next. There is no key where its
escapes do not spell characters. -/
def readKey : List Char → Option (Option String × List Char)
  | '"' :: rest =>
    match readUnits rest with
    | none => none
    | some (units, rest) =>
      match skipSpace rest with
      | ':' :: rest => some ((spell? units).map String.ofList, rest)
      | _ => none
  | _ => none

/-- The object of these members, if each has a key. -/
def ofMembers (members : List (Option String × Json)) : Json :=
  match members.mapM fun m => m.1.map fun key => (key, m.2) with
  | some members => .object members
  | none => .broken

/-- Reads one part that holds no other part, or opens one that does. -/
def readToken (cs : List Char) : Option ((Json ⊕ Open) × List Char) :=
  match skipSpace cs with
  | 'n' :: 'u' :: 'l' :: 'l' :: rest => some (.inl .null, rest)
  | 't' :: 'r' :: 'u' :: 'e' :: rest => some (.inl (.bool true), rest)
  | 'f' :: 'a' :: 'l' :: 's' :: 'e' :: rest => some (.inl (.bool false), rest)
  | '"' :: rest =>
    (readUnits rest).map fun r =>
      (.inl (match spell? r.1 with
        | some s => .text (String.ofList s)
        | none => .broken), r.2)
  | '[' :: rest =>
    match skipSpace rest with
    | ']' :: rest => some (.inl (.array []), rest)
    | _ => some (.inr (.array []), rest)
  | '\x7b' :: rest =>
    match skipSpace rest with
    | '\x7d' :: rest => some (.inl (.object []), rest)
    | rest => (readKey rest).map fun r => (.inr (.object [] r.1), r.2)
  | rest => (readNumber rest).map fun r => (.inl (.number (String.ofList r.1)), r.2)

/-- Closes what can be closed after a finished part; `fuel` bounds the closing marks. -/
def close (fuel : Nat) (v : Json) (around : List Open) (cs : List Char) :
    Option ((Json ⊕ List Open) × List Char) :=
  match fuel, around, skipSpace cs with
  | _, [], rest => some (.inl v, rest)
  | fuel + 1, .array before :: outer, ']' :: rest =>
    close fuel (.array (v :: before).reverse) outer rest
  | fuel + 1, .object before key :: outer, '\x7d' :: rest =>
    close fuel (ofMembers ((key, v) :: before).reverse) outer rest
  | _, .array before :: outer, ',' :: rest => some (.inr (.array (v :: before) :: outer), rest)
  | _, .object before key :: outer, ',' :: rest =>
    (readKey (skipSpace rest)).map fun r =>
      (.inr (.object ((key, v) :: before) r.1 :: outer), r.2)
  | _, _, _ => none

/-- Reads the parts of a document in turn; every part takes a character at least. -/
def readAll (fuel : Nat) (around : List Open) (cs : List Char) : Option (Json × List Char) :=
  match fuel with
  | 0 => none
  | fuel + 1 =>
    match readToken cs with
    | none => none
    | some (.inr inner, rest) => readAll fuel (inner :: around) rest
    | some (.inl v, rest) =>
      match close (around.length + 1) v around rest with
      | none => none
      | some (.inl document, rest) => some (document, rest)
      | some (.inr around, rest) => readAll fuel around rest

/-- Reads a document that takes up the whole text. -/
def ofText? (text : String) : Option Json :=
  match readAll (text.length + 1) [] text.toList with
  | some (v, rest) => if rest.isEmpty then some v else none
  | none => none

/-! ## Writing -/

/-- The lower-case hexadecimal digit of a value below sixteen. -/
def hexChar (n : Nat) : Char := if n < 10 then Char.ofNat (48 + n) else Char.ofNat (87 + n)

/-- A character of a text as it is written between quotes. -/
def escaped (c : Char) : List Char :=
  match c with
  | '"' => ['\\', '"']
  | '\\' => ['\\', '\\']
  | '\n' => ['\\', 'n']
  | '\r' => ['\\', 'r']
  | '\t' => ['\\', 't']
  | '\x08' => ['\\', 'b']
  | '\x0c' => ['\\', 'f']
  | c =>
    if c.toNat < 0x20 then
      ['\\', 'u', '0', '0', hexChar (c.toNat / 16), hexChar (c.toNat % 16)]
    else [c]

/-- A text between quotes. -/
def quoted (s : String) : String := String.ofList ('"' :: s.toList.flatMap escaped ++ ['"'])

mutual

/-- The text of a document in one line. -/
def compact : Json → String
  | .null => "null"
  | .bool flag => if flag then "true" else "false"
  | .number digits => digits
  | .text s => quoted s
  | .broken => "null"
  | .array items => "[" ++ ",".intercalate (compactItems items) ++ "]"
  | .object members => "\x7b" ++ ",".intercalate (compactMembers members) ++ "\x7d"

/-- The items of an array, written one by one. -/
def compactItems : List Json → List String
  | [] => []
  | v :: vs => compact v :: compactItems vs

/-- The members of an object, written one by one. -/
def compactMembers : List (String × Json) → List String
  | [] => []
  | (key, v) :: ms => (quoted key ++ ":" ++ compact v) :: compactMembers ms

end

/-- The text of an object of plain members, one member a line. -/
def indentedObject (members : List (String × Json)) : String :=
  let line (m : String × Json) := "  " ++ quoted m.1 ++ ": " ++ m.2.compact
  "\x7b\n" ++ ",\n".intercalate (members.map line) ++ "\n\x7d"

/-! ## Numbers -/

/-- The document of a whole number. -/
def ofInt (n : Int) : Json := .number (Decimal.ofInt n)

/-- The value of a number written without point and exponent; minus zero is not whole. -/
def int? : Json → Option Int
  | .number digits => if digits = "-0" then none else Decimal.readInt? digits.toList
  | _ => none

/-! ## Views -/

/-- The text of a document that is one. -/
def text? : Json → Option String
  | .text s => some s
  | _ => none

/-- The text that a document is; empty for any other document. -/
def asText (j : Json) : String := j.text?.getD ""

/-- The number that a document is; zero for any other document. -/
def asInt (j : Json) : Int := j.int?.getD 0

/-- Whether a document is the truth value that says so. -/
def isTrue : Json → Bool
  | .bool flag => flag
  | _ => false

/-- The items of an array; another document has none. -/
def items : Json → List Json
  | .array items => items
  | _ => []

/-- The members of an object; another document has none. -/
def members : Json → List (String × Json)
  | .object members => members
  | _ => []

/-- The member of this name, the first of several. -/
def member? (key : String) (j : Json) : Option Json :=
  (j.members.find? fun m => m.1 == key).map Prod.snd

/-- The member of this name; absence where there is none. -/
def member (key : String) (j : Json) : Json := (j.member? key).getD .null

/-- Whether an object has a member of that name. -/
def has (key : String) (j : Json) : Bool := (j.member? key).isSome

/-- A document that may be absent. -/
def optional {α : Type} (f : α → Json) (a : Option α) : Json := (a.map f).getD .null

end Json

end Switchboard
