/-!
# Durations

A span of time in whole nanoseconds, written in the largest unit of which there is at least one.
-/

namespace OrderCluster

structure Duration where
  nanos : Nat
  deriving DecidableEq, Repr

namespace Duration

def millis (n : Nat) : Duration := ⟨n * 1000000⟩

/-- The digits of a fraction with so many places, without trailing zeros. -/
def fractionDigits (places n : Nat) : List Char :=
  let written := (toString n).toList
  let padded := List.replicate (places - written.length) '0' ++ written
  (padded.reverse.dropWhile (· = '0')).reverse

/-- A count of units of 10 ^ `places` nanoseconds each. -/
def inUnits (places : Nat) (unit : String) (nanos : Nat) : String :=
  let whole := toString (nanos / Nat.pow 10 places)
  match fractionDigits places (nanos % Nat.pow 10 places) with
  | [] => whole ++ unit
  | fraction => whole ++ "." ++ String.ofList fraction ++ unit

/-- The text of a duration, such as `1.5s` or `200ms`. -/
def text (d : Duration) : String :=
  if 1000000000 ≤ d.nanos then inUnits 9 "s" d.nanos
  else if 1000000 ≤ d.nanos then inUnits 6 "ms" d.nanos
  else if 1000 ≤ d.nanos then inUnits 3 "µs" d.nanos
  else inUnits 0 "ns" d.nanos

end Duration

end OrderCluster
