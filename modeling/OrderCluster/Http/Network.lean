import OrderCluster.Http.Message

/-!
# The network

What becomes of a request that is sent to an endpoint. Whether an endpoint can be reached at all is
a matter of the network and not of the nodes.
-/

namespace OrderCluster.Http

/-- What becomes of a request. -/
inductive Delivery where
  | refused (reason : String)
  /-- There was no answer before the deadline. -/
  | silent
  | answered (response : Response)
  deriving DecidableEq, Repr

def Delivery.severed : Delivery := .refused "error sending request"

/-- Anything that carries requests to endpoints. -/
class Network (σ : Type) where
  deliver : σ → Address → Request → Delivery × σ

end OrderCluster.Http
