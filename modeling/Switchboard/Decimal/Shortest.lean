import Switchboard.Decimal.Binary64
import Switchboard.Decimal.Layout

/-!
# Shortest decimals

The shortest decimal that reads back as a given floating point number. The reals that round to the
number `m * 2 ^ q` form an interval, whose ends belong to it where `m` is even; the decimals with
`n` significant digits form a grid, and if some point of the grid lies in the interval, then so
does one of the two neighbours of the number itself. The first grid with a hit wins, of two hits
the nearer, and the upper one on a tie.
-/

namespace Switchboard.Decimal

/-- The `p` with `10 ^ (p - 1) ≤ m * 2 ^ q < 10 ^ p`. -/
def pointPosition (m : Nat) (q : Int) : Int :=
  match q with
  | .ofNat k => (digits (m * Nat.pow 2 k)).length
  | .negSucc k =>
    let den := Nat.pow 2 (k + 1)
    if den ≤ m then (digits (m / den)).length
    else 1 - (digits ((den - 1) / m)).length

/-- The factors `a` and `b` such that `d * 10 ^ k` and `x * 2 ^ e` compare as `d * a` and
`x * b`. -/
def commonScale (k e : Int) : Nat × Nat :=
  (Nat.pow 10 k.toNat * Nat.pow 2 (-e).toNat, Nat.pow 10 (-k).toNat * Nat.pow 2 e.toNat)

/-- The neighbour of `m * 2 ^ q` on the grid of multiples of `10 ^ k` that lies in its interval. -/
def hitOnGrid (m : Nat) (q k : Int) : Option Nat :=
  let s := commonScale k (q - 2)
  let value := 4 * m * s.2
  let low := (4 * m - if m = Nat.pow 2 52 ∧ -1074 < q then 1 else 2) * s.2
  let high := (4 * m + 2) * s.2
  let below := value / s.1
  let above := below + 1
  let closed := m % 2 == 0
  let downHits := low < below * s.1 || (closed && low == below * s.1)
  let upHits := above * s.1 < high || (closed && above * s.1 == high)
  match downHits, upHits with
  | true, true => some (if value - below * s.1 < above * s.1 - value then below else above)
  | true, false => some below
  | false, true => some above
  | false, false => none

/-- The shortest decimal in the interval of `m * 2 ^ q`. -/
def shortest (m : Nat) (q : Int) : Scientific :=
  if m = 0 then ⟨0, 0⟩
  else
    let p := pointPosition m q
    let candidate (n : Nat) : Option Scientific :=
      (hitOnGrid m q (p - n)).map fun d => Scientific.trimmed ⟨d, p - n⟩
    ((List.range' 1 17).findSome? candidate).getD ⟨m, q⟩

end Switchboard.Decimal
