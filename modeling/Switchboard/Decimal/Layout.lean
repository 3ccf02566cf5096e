import Switchboard.Decimal.Integer

/-!
# The layout of decimals

The text of a number has two stages: which digits it has, and how they are laid out. This module is
the second one. A decimal is its digits and a power of ten; a layout says where the point may stand
before the number is written with an exponent.
-/

namespace Switchboard.Decimal

/-- The decimal `digits * 10 ^ exponent`. -/
structure Scientific where
  digits : Nat
  exponent : Int
deriving DecidableEq

/-- Moves the zeros at the end of the digits into the exponent. -/
def Scientific.trimmed (x : Scientific) : Scientific :=
  let ds := Decimal.digits x.digits
  let zeros := (ds.reverse.takeWhile (· == '0')).length
  ⟨x.digits / Nat.pow 10 zeros, x.exponent + zeros⟩

/-- How the digits of a number are laid out as text. -/
structure Layout where
  /-- Positional where the point stands after the first place and not after the second one;
  always, if absent. -/
  range : Option (Int × Int)
  /-- Whether a whole number written positionally ends in a point and a zero. -/
  pointZero : Bool

/-- Whether a number is written without an exponent. -/
def Layout.isPositional (s : Layout) (point : Int) : Bool :=
  s.range.all fun r => r.1 < point && point ≤ r.2

/-- The digits `ds` with the point after the first `point` of them. -/
def positional (pointZero : Bool) (ds : List Char) (point : Int) : List Char :=
  let size : Int := ds.length
  if size ≤ point then
    ds ++ List.replicate (point - size).toNat '0' ++ if pointZero then ['.', '0'] else []
  else if 0 < point then ds.take point.toNat ++ '.' :: ds.drop point.toNat
  else '0' :: '.' :: List.replicate (-point).toNat '0' ++ ds

/-- One digit before the point and the exponent of ten after an `e`. -/
def exponential (ds : List Char) (point : Int) : List Char :=
  let mantissa := match ds with
    | [] => []
    | [d] => [d]
    | d :: rest => d :: '.' :: rest
  mantissa ++ 'e' :: (ofInt (point - 1)).toList

/-- The text of a decimal, with a minus sign for a negative one. -/
def Layout.text (s : Layout) (negative : Bool) (x : Scientific) : String :=
  let ds := digits x.digits
  let point := x.exponent + ds.length
  let body := if s.isPositional point then positional s.pointZero ds point else exponential ds point
  String.ofList (if negative then '-' :: body else body)

end Switchboard.Decimal
