/-!
# Order numbers

Signed 64-bit keys. The greatest key stands for "nothing left": it can be held by a log, but is
never minted.
-/

namespace OrderCluster

/-- The key under which an order is kept. -/
abbrev OrderNumber := Int64

namespace OrderNumber

def last : OrderNumber := Int64.maxValue

/-- The successor, which stays at `last` instead of wrapping. -/
def above (n : OrderNumber) : OrderNumber :=
  if n = last then last else n + 1

end OrderNumber

end OrderCluster
