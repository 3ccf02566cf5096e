import Switchboard.Decimal.Reading

/-!
# Decimals read in steps

A way to read decimals that rounds more than once. The digits are taken for as long as they fit one
word of sixty-four bits; that word is rounded to a floating point number, which is then multiplied
with a power of ten, or divided by it, and rounded again. Short numerals give the nearest number,
long ones may be off by a few units in the last place.
-/

namespace Switchboard

namespace Binary64

/-- The number nearest to `num / den * 2 ^ q`. -/
def ofScaledRatio (negative : Bool) (num den : Nat) (q : Int) : Binary64 :=
  ofRatio negative (num * Nat.pow 2 q.toNat) (den * Nat.pow 2 (-q).toNat)

/-- The number nearest to the product of two numbers that are finite and not negative. -/
def mul (x y : Binary64) : Binary64 :=
  match x.magnitude, y.magnitude with
  | .finite m p, .finite n q => ofScaledRatio false (m * n) 1 (p + q)
  | _, _ => infinity false

/-- The number nearest to the quotient of two numbers that are finite and positive. -/
def div (x y : Binary64) : Binary64 :=
  match x.magnitude, y.magnitude with
  | .finite m p, .finite n q => ofScaledRatio false m n (p - q)
  | _, _ => infinity false

/-- The number nearest to a power of ten. -/
def powerOfTen (k : Nat) : Binary64 := ofDecimal false 1 k

/-- The greatest exponent of a power of ten that is finite. -/
def maxPowerOfTen : Nat := 308

/-- A number that is not negative times a power of ten. A power beyond the greatest finite one is
too large to multiply with, and is divided by in steps; three steps leave nothing of any number. -/
def timesPowerOfTen? (x : Binary64) (exponent : Int) : Option Binary64 :=
  if x.magnitude = .finite 0 (-1074) then some x
  else match exponent with
    | .ofNat k => if k ≤ maxPowerOfTen then finite? (x.mul (powerOfTen k)) else none
    | .negSucc k => some (down 3 x (k + 1))
where
  finite? (y : Binary64) : Option Binary64 := if y.isFinite then some y else none
  down : Nat → Binary64 → Nat → Binary64
    | 0, _, _ => ofSignAndBits false 0
    | steps + 1, y, k =>
      if k ≤ maxPowerOfTen then y.div (powerOfTen k)
      else down steps (y.div (powerOfTen maxPowerOfTen)) (k - maxPowerOfTen)

end Binary64

namespace Decimal

/-- Appends digits to a number for as long as the result fits sixty-four bits, and leaves the
others. -/
def appendDigits (n : Nat) : List Char → Nat × List Char
  | [] => (n, [])
  | c :: cs =>
    let next := n * 10 + (c.toNat - '0'.toNat)
    if next < UInt64.size then appendDigits next cs else (n, c :: cs)

/-- The number that a numeral gives in steps, unless it is too large. -/
def Numeral.stepwise? (x : Numeral) (negative : Bool) : Option Binary64 :=
  let (significand, dropped) := appendDigits 0 x.whole
  let (significand, ignored) := appendDigits significand x.fraction
  let places : Int := x.fraction.length - ignored.length
  let rounded := Binary64.ofInt significand
  (rounded.timesPowerOfTen? (x.exponent + dropped.length - places)).map fun y =>
    Binary64.ofSignAndBits negative y.bits.toNat

/-- Reads a floating point numeral in steps. -/
def readStepwise? : List Char → Option Binary64
  | '-' :: cs => (readNumeral? cs).bind fun x => x.stepwise? true
  | cs => (readNumeral? cs).bind fun x => x.stepwise? false

end Decimal

end Switchboard
