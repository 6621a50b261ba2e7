/-!
# Whole numbers as doubles

A double has 53 significant bits. A whole number that needs more is rounded, and is written with
the fewest digits that round to the same double, padded with zeros.
-/

namespace OrderCluster.Double

/-- A natural number rounded to 53 significant bits, a half to the even neighbour. -/
def round (n : Nat) : Nat :=
  let excess := n.log2 + 1 - 53
  let unit := Nat.pow 2 excess
  let low := n % unit
  let floor := n - low
  if 2 * low < unit then floor
  else if unit < 2 * low then floor + unit
  else if floor / unit % 2 = 0 then floor
  else floor + unit

/-- The multiple of 10 ^ `places` next to a double that rounds to it, the nearer one if both do. -/
def onGrid? (places double : Nat) : Option Nat :=
  let step := Nat.pow 10 places
  let below := double / step * step
  let above := below + step
  let near := if 2 * (double - below) ≤ step then [below, above] else [above, below]
  near.find? fun n => round n = double

/-- The number with the fewest significant digits that rounds to a double, looked for on the grids
up to 10 ^ `places`. -/
def shortest (double : Nat) : Nat → Nat
  | 0 => double
  | places + 1 => (onGrid? (places + 1) double).getD (shortest double places)

def text (i : Int) : String :=
  let digits := toString (shortest (round i.natAbs) 20)
  if i < 0 then "-" ++ digits else digits

end OrderCluster.Double
