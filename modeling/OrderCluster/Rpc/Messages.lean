import OrderCluster.Member
import OrderCluster.Order

/-!
# Messages between nodes and clients

The bodies of the six calls that a node answers. A refusal for business reasons (an unknown order,
too little stock) travels in the normal answer, with `success` false.
-/

namespace OrderCluster

structure BuyRequest where
  name : String
  quantity : Int32
  deriving DecidableEq, Repr

structure BuyResponse where
  success : Bool
  orderNumber : Option OrderNumber := none
  errorMessage : Option String := none
  deriving DecidableEq, Repr

structure QueryRequest where
  orderNumber : OrderNumber
  deriving DecidableEq, Repr

structure QueryResponse where
  success : Bool
  order : Option Order := none
  errorMessage : Option String := none
  deriving DecidableEq, Repr

structure HealthRequest where
  message : String
  deriving DecidableEq, Repr

structure HealthResponse where
  message : String
  deriving DecidableEq, Repr

/-- The coordinator's choice of leader. -/
structure LeaderAssignment where
  id : NodeId
  host : String
  port : UInt16
  deriving DecidableEq, Repr

structure AssignmentResponse where
  message : String
  deriving DecidableEq, Repr

/-- A node that catches up asks for the orders above a number. -/
structure FetchRequest where
  requester : NodeId
  after : OrderNumber
  deriving DecidableEq, Repr

structure FetchResponse where
  orders : List Order
  after : OrderNumber
  deriving DecidableEq, Repr

/-- A fresh order, pushed to a peer. -/
structure AcceptRequest where
  order : Order
  requester : NodeId
  deriving DecidableEq, Repr

/-- Whether the peer stored the order; it does not when it holds that number already. -/
structure AcceptResponse where
  success : Bool
  deriving DecidableEq, Repr

namespace BuyResponse

def placed (number : OrderNumber) : BuyResponse := ⟨true, some number, none⟩

def rejected (message : String) : BuyResponse := ⟨false, none, some message⟩

end BuyResponse

namespace QueryResponse

/-- The answer for a number that may or may not be held. -/
def ofOrder? : Option Order → QueryResponse
  | some order => ⟨true, some order, none⟩
  | none => ⟨false, none, some "No records found with the given order number"⟩

end QueryResponse

def HealthRequest.probe : HealthRequest := ⟨"Are you online?"⟩

def HealthResponse.online : HealthResponse := ⟨"I am online!"⟩

namespace BuyRequest

inductive Problem where
  | emptyName
  | quantityBelowOne
  deriving DecidableEq, Repr

def Problem.line : Problem → String
  | .emptyName => "name: length is lower than 1\n"
  | .quantityBelowOne => "quantity: lower than 1\n"

/-- What is wrong with a wish, in the order of its fields. -/
def problems (r : BuyRequest) : List Problem :=
  (if r.name.isEmpty then [.emptyName] else []) ++
    (if r.quantity < 1 then [.quantityBelowOne] else [])

end BuyRequest

end OrderCluster
