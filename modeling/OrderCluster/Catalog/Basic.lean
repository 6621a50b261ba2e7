import OrderCluster.Failure

/-!
# The catalog

The keeper of stock. A refusal is an answer (the product is unknown, or too few are left); a failure
means that the catalog could not be asked.
-/

namespace OrderCluster

/-- A wish to take stock, or to give it back. -/
structure StockRequest where
  name : String
  quantity : Int32
  isIncrement : Bool
  deriving DecidableEq, Repr

/-- What the catalog answers; the message is meant for the buyer. -/
structure StockChange where
  success : Bool
  errorMessage : Option String := none
  deriving DecidableEq, Repr

namespace StockChange

def applied : StockChange := ⟨true, none⟩

def refused (message : String) : StockChange := ⟨false, some message⟩

end StockChange

/-- Anything that keeps stock. -/
class Catalog (κ : Type) where
  change : κ → StockRequest → Except Failure StockChange × κ

end OrderCluster
