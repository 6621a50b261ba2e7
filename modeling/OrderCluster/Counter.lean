import OrderCluster.Number

/-!
# The order number counter

A node mints its order numbers from a counter of its own, which only moves upwards. A counter that
stands at the greatest number is exhausted and mints nothing more.
-/

namespace OrderCluster

/-- The number that is minted next, or `OrderNumber.last` when none is left. -/
structure Counter where
  next : OrderNumber
  deriving DecidableEq, Repr

namespace Counter

/-- A counter whose first number lies just above `seen`. -/
def startingAbove (seen : OrderNumber) : Counter := ⟨seen.above⟩

def exhausted (c : Counter) : Bool := c.next = OrderNumber.last

def mint (c : Counter) : Option OrderNumber × Counter :=
  if c.exhausted then (none, c) else (some c.next, ⟨c.next + 1⟩)

/-- Moves the counter above `seen`, and never backwards. -/
def resetAbove (c : Counter) (seen : OrderNumber) : Counter := ⟨max c.next seen.above⟩

end Counter

end OrderCluster
