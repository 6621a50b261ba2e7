import OrderCluster.Service.Answers
import OrderCluster.Service.Buy

/-!
# Serving a call

One entry for the six calls. A placed buy also gives the order that is owed to the peers.
-/

namespace OrderCluster.Service

def serve (strict : Bool) : (method : Method) → method.Request →
    Work (Except ServiceError method.Response × Option Order)
  | .buy, (request : BuyRequest) => do
    let outcome ← buy strict request
    return (outcome.response, outcome.owed?)
  | .query, (request : QueryRequest) => do return (← query request, none)
  | .health, (request : HealthRequest) => return (.ok (health request), none)
  | .assign, (request : LeaderAssignment) => do return (← assign request, none)
  | .fetch, (request : FetchRequest) => do return (← fetch request, none)
  | .accept, (request : AcceptRequest) => do return (← accept request, none)

end OrderCluster.Service
