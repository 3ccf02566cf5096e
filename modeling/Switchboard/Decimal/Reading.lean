import Switchboard.Decimal.Binary64

/-!
# Floating point numerals

A floating point numeral is an optional sign followed by `inf`, `infinity` or `nan` in any case of
letters, or by digits with an optional point, at least one digit standing before or after it, and
an optional exponent of ten.
-/

namespace Switchboard.Decimal

/-- An unsigned decimal numeral: its digits before and after the point and its exponent. -/
structure Numeral where
  whole : List Char
  fraction : List Char
  exponent : Int

/-- The number nearest to a numeral. -/
def Numeral.toBinary64 (x : Numeral) (negative : Bool) : Binary64 :=
  .ofDecimal negative (ofDigits (x.whole ++ x.fraction)) (x.exponent - x.fraction.length)

/-- The exponent after an `e`, or zero at the end of the numeral. -/
def readExponent? : List Char → Option Int
  | [] => some 0
  | c :: cs => if c = 'e' ∨ c = 'E' then readInt? cs else none

/-- Reads digits, a point and an exponent, all of the text. -/
def readNumeral? (cs : List Char) : Option Numeral :=
  let whole := cs.takeWhile Char.isDigit
  let rest := cs.dropWhile Char.isDigit
  let (fraction, rest) := match rest with
    | '.' :: r => (r.takeWhile Char.isDigit, r.dropWhile Char.isDigit)
    | r => ([], r)
  if whole.isEmpty && fraction.isEmpty then none
  else (readExponent? rest).map fun e => ⟨whole, fraction, e⟩

/-- Reads a floating point numeral without sign. -/
def readUnsigned? (negative : Bool) (cs : List Char) : Option Binary64 :=
  let word := cs.map Char.toLower
  if word = ['i', 'n', 'f'] ∨ word = ['i', 'n', 'f', 'i', 'n', 'i', 't', 'y'] then
    some (.infinity negative)
  else if word = ['n', 'a', 'n'] then some .nan
  else (readNumeral? cs).map fun x => x.toBinary64 negative

/-- Reads a floating point numeral. -/
def readBinary64? : List Char → Option Binary64
  | '-' :: cs => readUnsigned? true cs
  | '+' :: cs => readUnsigned? false cs
  | cs => readUnsigned? false cs

end Switchboard.Decimal
