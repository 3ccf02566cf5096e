import Switchboard.Decimal.Integer

/-!
# Binary floating point numbers

A floating point number is its sixty-four bits: a sign, eleven bits of exponent and fifty-two bits
of fraction. Every operation here is exact arithmetic on natural numbers followed by one rounding
to the nearest number, a tie going to the even neighbour.
-/

namespace Switchboard

/-- A floating point number, given by its bits. -/
structure Binary64 where
  bits : UInt64
deriving DecidableEq

namespace Binary64

/-- What the bits below the sign stand for; `finite m q` is the number `m * 2 ^ q`. -/
inductive Magnitude where
  | nan
  | infinite
  | finite (significand : Nat) (exponent : Int)
deriving DecidableEq

/-- Whether the sign bit is set. -/
def isNegative (x : Binary64) : Bool := x.bits.toNat / Nat.pow 2 63 == 1

/-- The eleven bits of the exponent. -/
def exponentField (x : Binary64) : Nat := x.bits.toNat / Nat.pow 2 52 % 2048

/-- The fifty-two bits of the fraction. -/
def fraction (x : Binary64) : Nat := x.bits.toNat % Nat.pow 2 52

/-- What the bits without the sign stand for. -/
def magnitude (x : Binary64) : Magnitude :=
  if x.exponentField = 2047 then
    if x.fraction = 0 then .infinite else .nan
  else if x.exponentField = 0 then .finite x.fraction (-1074)
  else .finite (x.fraction + Nat.pow 2 52) (x.exponentField - 1075)

/-- Whether the bits stand for no number. -/
def isNaN (x : Binary64) : Bool := x.magnitude == .nan

/-- Whether the bits stand for a real number. -/
def isFinite (x : Binary64) : Bool :=
  match x.magnitude with
  | .finite .. => true
  | _ => false

/-- The number with the given sign whose lower sixty-three bits are `low`. -/
def ofSignAndBits (negative : Bool) (low : Nat) : Binary64 :=
  ⟨(low + if negative then Nat.pow 2 63 else 0).toUInt64⟩

/-- The bits of positive infinity. -/
def infinityBits : Nat := 2047 * Nat.pow 2 52

/-- The infinity of a sign. -/
def infinity (negative : Bool) : Binary64 := ofSignAndBits negative infinityBits

/-- The quiet number that stands for "not a number". -/
def nan : Binary64 := ⟨0x7ff8000000000000⟩

/-- All numbers that are not a number are one. -/
def canonical (x : Binary64) : Binary64 := if x.isNaN then nan else x

/-- The quotient rounded to the nearest whole number, a tie to the even one. -/
def roundDiv (num den : Nat) : Nat :=
  let q := num / den
  let r := num % den
  if 2 * r < den then q
  else if den < 2 * r then q + 1
  else if q % 2 = 0 then q else q + 1

/-- `num / den` in units of `2 ^ q`, as a quotient of natural numbers. -/
def scaled (num den : Nat) (q : Int) : Nat × Nat :=
  match q with
  | .ofNat k => (num, den * Nat.pow 2 k)
  | .negSucc k => (num * Nat.pow 2 (k + 1), den)

/-- The number nearest to `num / den`; beyond the greatest finite number it is infinite. -/
def ofRatio (negative : Bool) (num den : Nat) : Binary64 :=
  if num = 0 ∨ den = 0 then ofSignAndBits negative 0
  else
    let guess : Int := (num.log2 : Int) - den.log2 - 52
    let exact := scaled num den guess
    let q := max (if exact.1 / exact.2 < Nat.pow 2 52 then guess - 1 else guess) (-1074)
    let unit := scaled num den q
    let low := (q + 1074).toNat * Nat.pow 2 52 + roundDiv unit.1 unit.2
    ofSignAndBits negative (min low infinityBits)

/-- The number nearest to a whole number. -/
def ofInt (n : Int) : Binary64 := ofRatio (n < 0) n.natAbs 1

/-- The number nearest to `digits * 10 ^ exponent`. -/
def ofDecimal (negative : Bool) (digits : Nat) (exponent : Int) : Binary64 :=
  let size : Int := (Decimal.digits digits).length
  if digits = 0 ∨ exponent + size < -400 then ofSignAndBits negative 0
  else if 400 < exponent + size then infinity negative
  else match exponent with
    | .ofNat k => ofRatio negative (digits * Nat.pow 10 k) 1
    | .negSucc k => ofRatio negative digits (Nat.pow 10 (k + 1))

/-- The value of a finite number that is whole. -/
def toInt? (x : Binary64) : Option Int :=
  match x.magnitude with
  | .finite m (.ofNat k) => some (signed (m * Nat.pow 2 k))
  | .finite m (.negSucc k) =>
    if m % Nat.pow 2 (k + 1) = 0 then some (signed (m / Nat.pow 2 (k + 1))) else none
  | _ => none
where
  signed (n : Nat) : Int := if x.isNegative then -(n : Int) else n

/-- The value of a whole number that fits sixty-four signed bits. -/
def toInt64? (x : Binary64) : Option Int64 := x.toInt?.bind Decimal.int64?

end Binary64

end Switchboard
