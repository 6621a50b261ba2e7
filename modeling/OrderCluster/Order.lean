import OrderCluster.Number

/-!
# Orders

One committed order: its number, the product bought and how many of it.
-/

namespace OrderCluster

/-- A record of the order log. -/
structure Order where
  number : OrderNumber
  product : String
  quantity : Int32
  deriving DecidableEq, Repr, Inhabited

end OrderCluster
