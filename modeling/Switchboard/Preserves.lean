import Switchboard.Decimal.Grisu
import Switchboard.Text.DecimalDigit

/-!
# Preserves documents

The data model of the Preserves text form: atoms, sequences, sets, dictionaries and records, with
the printer of its text. A sequence has commas between its items, a record single spaces.
-/

namespace Switchboard

/-- A Preserves document without annotations. -/
inductive Preserves where
  | bool (flag : Bool)
  | float (number : Binary64)
  | int (number : Int)
  | text (content : String)
  | bytes (content : List UInt8)
  | symbol (name : String)
  | record (label : Preserves) (fields : List Preserves)
  | sequence (items : List Preserves)
  | set (items : List Preserves)
  | dictionary (entries : List (Preserves × Preserves))
  | embedded (inner : Preserves)

namespace Preserves

instance : Inhabited Preserves := ⟨.bool false⟩

/-- Floating point numbers are positional where the point stands at most five places before the
first digit or at most twenty-one behind it. -/
def floatLayout : Decimal.Layout := ⟨some (-6, 21), true⟩

/-- The lower-case hexadecimal digit of a value below sixteen. -/
def hexChar (n : Nat) : Char := if n < 10 then Char.ofNat (48 + n) else Char.ofNat (87 + n)

/-- A number below `16 ^ size` in hexadecimal digits. -/
def hexDigits : Nat → Nat → List Char
  | 0, _ => []
  | size + 1, n => hexDigits size (n / 16) ++ [hexChar (n % 16)]

/-- Numbers that are not finite are written by their bits. -/
def renderFloat (x : Binary64) : String :=
  match x.magnitude with
  | .finite m q => floatLayout.text x.isNegative (Decimal.grisu m q)
  | _ => "#xd\"" ++ String.ofList (hexDigits 16 x.bits.toNat) ++ "\""

/-- A character between the marks `mark`. -/
def escaped (mark c : Char) : List Char :=
  match c with
  | '\\' => ['\\', '\\']
  | '\x08' => ['\\', 'b']
  | '\x0c' => ['\\', 'f']
  | '\n' => ['\\', 'n']
  | '\r' => ['\\', 'r']
  | '\t' => ['\\', 't']
  | c => if c = mark then ['\\', c] else [c]

/-- A text between two marks. -/
def quoted (mark : Char) (s : String) : String :=
  String.ofList (mark :: s.toList.flatMap (escaped mark) ++ [mark])

/-- The characters that end a symbol or a number. -/
def isDelimiter (c : Char) : Bool :=
  "()\x7b\x7d[]<>\"';,@#: \t\r\n\x0b\x0c".toList.contains c

/-- The parts of a numeral: whether it has a fraction or an exponent. -/
inductive NumberForm where
  | whole
  | float
deriving DecidableEq

/-- What follows one digit or more, of any script. -/
def digitsThen (cs : List Char) : Option (List Char) :=
  if (cs.takeWhile Text.isDecimalDigit).isEmpty then none
  else some (cs.dropWhile Text.isDecimalDigit)

/-- The text behind a sign, if there is one. -/
def dropSign : List Char → List Char
  | '-' :: cs => cs
  | '+' :: cs => cs
  | cs => cs

/-- Whether the text is an exponent with its letter. -/
def isExponent : List Char → Bool
  | c :: cs => (c == 'e' || c == 'E') && (digitsThen (dropSign cs) == some [])
  | [] => false

/-- The form of the number that a text spells, if it spells one. Digits of any script make a number,
but only one in ASCII digits can be read. -/
def numberForm? (cs : List Char) : Option NumberForm :=
  match digitsThen (dropSign cs) with
  | none => none
  | some [] => some .whole
  | some ('.' :: rest) =>
    match digitsThen rest with
    | none => none
    | some [] => some .float
    | some rest => if isExponent rest then some .float else none
  | some rest => if isExponent rest then some .float else none

/-- A symbol is written bare where that reads as the symbol again. -/
def renderSymbol (name : String) : String :=
  let cs := name.toList
  if cs.isEmpty || cs.any isDelimiter || (numberForm? cs).isSome then quoted '\'' name else name

mutual

/-- The text of a document. -/
def render : Preserves → String
  | .bool flag => if flag then "#t" else "#f"
  | .float x => renderFloat x
  | .int n => Decimal.ofInt n
  | .text s => quoted '"' s
  | .bytes bs => "#x\"" ++ String.ofList (bs.flatMap fun b => hexDigits 2 b.toNat) ++ "\""
  | .symbol name => renderSymbol name
  | .record label fields => "<" ++ " ".intercalate (render label :: renderAll fields) ++ ">"
  | .sequence items => "[" ++ ", ".intercalate (renderAll items) ++ "]"
  | .set items => "#\x7b" ++ ", ".intercalate (renderAll items) ++ "\x7d"
  | .dictionary entries => "\x7b" ++ ", ".intercalate (renderEntries entries) ++ "\x7d"
  | .embedded inner => "#:" ++ render inner

/-- Documents, written one by one. -/
def renderAll : List Preserves → List String
  | [] => []
  | d :: ds => render d :: renderAll ds

/-- Entries of a dictionary, written one by one. -/
def renderEntries : List (Preserves × Preserves) → List String
  | [] => []
  | (k, v) :: es => (render k ++ ": " ++ render v) :: renderEntries es

end

/-! ## Equality -/

mutual

/-- Whether two documents are the same: floating point numbers by their bits, sets and dictionaries
whatever the order. -/
def same : Preserves → Preserves → Bool
  | .bool a, .bool b => a == b
  | .float x, .float y => x.bits == y.bits
  | .int m, .int n => m == n
  | .text s, .text t => s == t
  | .bytes a, .bytes b => a == b
  | .symbol s, .symbol t => s == t
  | .record a as, .record b bs => same a b && sameItems as bs
  | .sequence as, .sequence bs => sameItems as bs
  | .set as, .set bs => as.length == bs.length && itemsIn as bs
  | .dictionary as, .dictionary bs => as.length == bs.length && entriesIn as bs
  | .embedded a, .embedded b => same a b
  | _, _ => false

/-- Whether documents are the same one by one. -/
def sameItems : List Preserves → List Preserves → Bool
  | [], [] => true
  | a :: as, b :: bs => same a b && sameItems as bs
  | _, _ => false

/-- Whether each document is the same as one of the others. -/
def itemsIn : List Preserves → List Preserves → Bool
  | [], _ => true
  | a :: as, bs => bs.any (fun b => same a b) && itemsIn as bs

/-- Whether each entry is the same as one of the others. -/
def entriesIn : List (Preserves × Preserves) → List (Preserves × Preserves) → Bool
  | [], _ => true
  | (k, v) :: as, bs => bs.any (fun b => same k b.1 && same v b.2) && entriesIn as bs

end

/-- Whether no document is the same as a later one. -/
def areDistinct : List Preserves → Bool
  | [] => true
  | d :: ds => !ds.any (same d) && areDistinct ds

end Preserves

end Switchboard
