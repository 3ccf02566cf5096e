/-!
# Whole numbers in decimal

Reading of signed decimal numerals and of those that fit sixty-four bits. A numeral is a sign that
may be absent followed by at least one digit.
-/

namespace Switchboard.Decimal

/-- The number that a run of digits denotes. -/
def ofDigits (cs : List Char) : Nat :=
  cs.foldl (fun n c => n * 10 + (c.toNat - '0'.toNat)) 0

/-- The digits of a number, most significant first. -/
def digits (n : Nat) : List Char := Nat.toDigits 10 n

/-- Reads a nonempty run of digits. -/
def readNat? (cs : List Char) : Option Nat :=
  if cs.isEmpty || !cs.all Char.isDigit then none else some (ofDigits cs)

/-- Reads a numeral; either sign may stand in front. -/
def readInt? : List Char → Option Int
  | '-' :: cs => (readNat? cs).map fun n => -(n : Int)
  | '+' :: cs => (readNat? cs).map Int.ofNat
  | cs => (readNat? cs).map Int.ofNat

/-- The signed sixty-four bit number of the same value, if there is one. -/
def int64? (n : Int) : Option Int64 :=
  if Int64.minValue.toInt ≤ n ∧ n ≤ Int64.maxValue.toInt then some (Int64.ofInt n) else none

/-- Reads a numeral whose value fits sixty-four signed bits. -/
def readInt64? (cs : List Char) : Option Int64 := (readInt? cs).bind int64?

/-- The decimal text of a number, with a minus sign below zero. -/
def ofInt (n : Int) : String :=
  match n with
  | .ofNat m => String.ofList (digits m)
  | .negSucc m => String.ofList ('-' :: digits (m + 1))

/-- The decimal text of a natural number. -/
def ofNat (n : Nat) : String := String.ofList (digits n)

end Switchboard.Decimal
