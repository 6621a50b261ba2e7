import OrderCluster.Catalog.Basic
import Std.Data.TreeMap

/-!
# Stock kept in the process

How many of each product are left. Products are never added or removed, and a request to take more
than there is changes nothing.
-/

namespace OrderCluster

structure Stock where
  products : Std.TreeMap String Int64 := {}

namespace Stock

/-- Stock from a list; a product listed twice has the last count. -/
def ofList (counts : List (String × Int64)) : Stock := ⟨.ofList counts⟩

/-- What is left of a product, if it is sold here. -/
def of? (stock : Stock) (name : String) : Option Int64 := stock.products[name]?

def change (stock : Stock) (request : StockRequest) : StockChange × Stock :=
  match stock.of? request.name with
  | none => (.refused (request.name ++ " does not exist in catalog."), stock)
  | some available =>
    let quantity := request.quantity.toInt64
    if request.isIncrement then
      (.applied, ⟨stock.products.insert request.name (available + quantity)⟩)
    else if available < quantity then
      (.refused (request.name ++ "'s stock is less than desired quantity."), stock)
    else
      (.applied, ⟨stock.products.insert request.name (available - quantity)⟩)

instance : Catalog Stock where
  change stock request := let (answer, stock) := stock.change request; (.ok answer, stock)

end Stock

end OrderCluster
