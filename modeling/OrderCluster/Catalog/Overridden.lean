import OrderCluster.Catalog.Stock

/-!
# A catalog that can be made to fail

Stock whose answers to takings and to restockings can each be replaced by a fixed one. A replaced
answer leaves the stock alone.
-/

namespace OrderCluster

/-- Stock with fixed answers in front of it. -/
structure OverriddenCatalog where
  stock : Stock
  onTake : Option (Except Failure StockChange) := none
  onRestock : Option (Except Failure StockChange) := none

instance : Catalog OverriddenCatalog where
  change catalog request :=
    match if request.isIncrement then catalog.onRestock else catalog.onTake with
    | some answer => (answer, catalog)
    | none =>
      let (answer, stock) := catalog.stock.change request
      (.ok answer, { catalog with stock })

end OrderCluster
