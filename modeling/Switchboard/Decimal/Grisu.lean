import Switchboard.Decimal.Binary64
import Switchboard.Decimal.Layout

/-!
# Decimals by sixty-four bit arithmetic

The second algorithm of the Grisu family. A floating point number and the two ends of the interval
of the reals that round to it are scaled by a power of ten that is known to sixty-four bits, so that
their whole parts have at most ten digits. Digits of the upper end are then written out until what
is left is smaller than the interval, and the last digit is lowered towards the number itself. The
result reads back as the number; it is mostly as short as can be, and mostly the nearest of its
length, but not always, since scaling loses bits and lowering stops early.
-/

namespace Switchboard.Decimal

/-- The number `significand * 2 ^ exponent`, the significand having sixty-four bits. -/
structure Wide where
  significand : Nat
  exponent : Int
deriving DecidableEq

namespace Wide

/-- The number `m * 2 ^ q` with the significand moved up to sixty-four bits. -/
def normalized (m : Nat) (q : Int) : Wide :=
  ⟨m * Nat.pow 2 (63 - m.log2), q - (63 - m.log2 : Nat)⟩

/-- The number nearest to `num / den`. -/
def ofRatio (num den : Nat) : Wide :=
  let guess : Int := (num.log2 : Int) - den.log2 - 63
  let exact := Binary64.scaled num den guess
  let q := if exact.1 / exact.2 < Nat.pow 2 63 then guess - 1 else guess
  let unit := Binary64.scaled num den q
  ⟨Binary64.roundDiv unit.1 unit.2, q⟩

/-- The number nearest to a power of ten. -/
def powerOfTen : Int → Wide
  | .ofNat k => ofRatio (Nat.pow 10 k) 1
  | .negSucc k => ofRatio 1 (Nat.pow 10 (k + 1))

/-- The upper sixty-four bits of the product, rounded to nearest with a tie going up. -/
def mul (a b : Wide) : Wide :=
  ⟨(a.significand * b.significand + Nat.pow 2 63) / Nat.pow 2 64, a.exponent + b.exponent + 64⟩

end Wide

/-- The exponent of the power of ten that a number with the binary exponent `q` is scaled by. Only
every eighth power is used; this one leaves a binary exponent between `-60` and `-32`. -/
def scalingExponent (q : Int) : Int :=
  -- The factor is the decimal logarithm of two.
  let k := 347 - (61 + q) * 30102999566398114 / 100000000000000000
  8 * (k / 8 + 1) - 348

/-- The interval in which digits are looked for, in units of `2 ^ -shift`. -/
structure Target where
  shift : Nat
  /-- The upper end. -/
  upper : Nat
  /-- How far the lower end lies below the upper one. -/
  width : Nat
  /-- How far the number itself lies below the upper end. -/
  gap : Nat
  /-- The decimal exponent of the unit digit. -/
  exponent : Int

namespace Target

/-- The interval of `m * 2 ^ q`, made smaller by one unit at either end since scaling is not
exact. -/
def ofMagnitude (m : Nat) (q : Int) : Target :=
  let upper := Wide.normalized (2 * m + 1) (q - 1)
  let lower : Wide :=
    if m = Nat.pow 2 52 then ⟨4 * m - 1, q - 2⟩ else ⟨2 * m - 1, q - 1⟩
  let lower : Wide :=
    ⟨lower.significand * Nat.pow 2 (lower.exponent - upper.exponent).toNat, upper.exponent⟩
  let k := scalingExponent upper.exponent
  let power := Wide.powerOfTen k
  let high := (upper.mul power).significand - 1
  let low := (lower.mul power).significand + 1
  { shift := (-(upper.mul power).exponent).toNat
    upper := high
    width := high - low
    gap := high - ((Wide.normalized m q).mul power).significand
    exponent := -k }

/-- Lowers a last digit worth `ten` as long as that brings the decimal, which lies `rest` below the
upper end, closer to the number, which lies `gap` below it. -/
def lowered (width gap ten : Nat) : Nat → Nat → Nat → Nat
  | 0, _, ds => ds
  | steps + 1, rest, ds =>
    if rest < gap ∧ ten ≤ width - rest ∧ (rest + ten < gap ∨ rest + ten - gap < gap - rest) then
      lowered width gap ten steps (rest + ten) (ds - 1)
    else ds

/-- Digits behind the point, `places` of them so far, from the fraction `rest`. The interval grows
tenfold with every digit, so `t.shift` digits are enough. The number itself is not aimed at from the
ninth digit on. -/
def fractionDigits (t : Target) : Nat → Nat → Nat → Nat → Nat → Scientific
  | 0, places, _, _, ds => ⟨ds, t.exponent - places⟩
  | fuel + 1, places, width, rest, ds =>
    let one := Nat.pow 2 t.shift
    let ds := ds * 10 + rest * 10 / one
    let rest := rest * 10 % one
    let width := width * 10
    let places := places + 1
    if rest < width then
      let gap := if places < 9 then t.gap * Nat.pow 10 places else 0
      ⟨lowered width gap one (width / one) rest ds, t.exponent - places⟩
    else fractionDigits t fuel places width rest ds

/-- Digits before the point, as many as are left to write for `whole`. -/
def wholeDigits (t : Target) : Nat → Nat → Nat → Scientific
  | 0, _, ds => fractionDigits t t.shift 0 t.width (t.upper % Nat.pow 2 t.shift) ds
  | places + 1, whole, ds =>
    let one := Nat.pow 2 t.shift
    let ten := Nat.pow 10 places
    let ds := ds * 10 + whole / ten
    let whole := whole % ten
    let rest := whole * one + t.upper % one
    if rest ≤ t.width then
      ⟨lowered t.width t.gap (ten * one) (t.width / (ten * one)) rest ds, t.exponent + places⟩
    else wholeDigits t places whole ds

end Target

/-- A short decimal that reads back as `m * 2 ^ q`. -/
def grisu (m : Nat) (q : Int) : Scientific :=
  if m = 0 then ⟨0, 0⟩
  else
    let t := Target.ofMagnitude m q
    let whole := t.upper / Nat.pow 2 t.shift
    t.wholeDigits (digits whole).length whole 0

end Switchboard.Decimal
