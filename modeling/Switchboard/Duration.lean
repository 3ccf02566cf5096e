import Switchboard.Decimal.Integer

/-!
# Durations

A span of time in whole milliseconds and its text: seconds with up to three decimal places from one
second on, milliseconds below.
-/

namespace Switchboard

/-- A span of time. -/
structure Duration where
  millis : Nat
deriving DecidableEq

/-- Three decimal places without the zeros at their end. -/
def Duration.places (millis : Nat) : List Char :=
  let padded := List.replicate (3 - (Decimal.digits millis).length) '0' ++ Decimal.digits millis
  (padded.reverse.dropWhile (· == '0')).reverse

/-- A duration is written in seconds from one second on, and in milliseconds below. -/
def Duration.text (d : Duration) : String :=
  let seconds := Decimal.ofNat (d.millis / 1000)
  let rest := d.millis % 1000
  if d.millis = 0 then "0ns"
  else if d.millis < 1000 then Decimal.ofNat d.millis ++ "ms"
  else if rest = 0 then seconds ++ "s"
  else seconds ++ "." ++ String.ofList (Duration.places rest) ++ "s"

end Switchboard
