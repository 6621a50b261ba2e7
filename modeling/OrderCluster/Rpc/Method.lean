import OrderCluster.Rpc.Messages

/-!
# The calls

Each call has a request type, a response type and the path it is posted to.
-/

namespace OrderCluster

/-- The calls that a node answers. -/
inductive Method where
  | buy
  | query
  | health
  | assign
  | fetch
  | accept
  deriving DecidableEq, Repr

namespace Method

abbrev Request : Method → Type
  | .buy => BuyRequest
  | .query => QueryRequest
  | .health => HealthRequest
  | .assign => LeaderAssignment
  | .fetch => FetchRequest
  | .accept => AcceptRequest

abbrev Response : Method → Type
  | .buy => BuyResponse
  | .query => QueryResponse
  | .health => HealthResponse
  | .assign => AssignmentResponse
  | .fetch => FetchResponse
  | .accept => AcceptResponse

def all : List Method := [.buy, .query, .health, .assign, .fetch, .accept]

def path : Method → String
  | .buy => "/rpc/buy"
  | .query => "/rpc/query-order-number"
  | .health => "/rpc/check-health"
  | .assign => "/rpc/assign-leader"
  | .fetch => "/rpc/fetch-all-orders-from"
  | .accept => "/rpc/accept-orders-from-leader"

end Method

end OrderCluster
