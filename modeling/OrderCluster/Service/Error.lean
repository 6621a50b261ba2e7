import OrderCluster.Failure
import OrderCluster.Json.Tree
import OrderCluster.Rpc.Messages

/-!
# Errors of the service

What a node answers when it neither does a thing nor refuses it for business reasons. The cause of
an internal error is for the node's operator and never shown to the client.
-/

namespace OrderCluster

/-- Why a node could not do what it was asked. -/
inductive ServiceError where
  | invalidArgument (message : String)
  /-- Only a leader takes buys here, and this node does not believe itself to be one. -/
  | notLeader (self : NodeId) (leader : Option NodeId)
  | catalogUnavailable (message : String)
  /-- Something failed that the client cannot mend. -/
  | internal (cause : Failure)
  deriving DecidableEq, Repr

namespace ServiceError

/-- The error that reports what is wrong with a wish to buy, one line for each problem. -/
def ofProblems (problems : List BuyRequest.Problem) : ServiceError :=
  .invalidArgument (String.join (problems.map BuyRequest.Problem.line))

def code : ServiceError → String
  | .invalidArgument _ => "InvalidArgument"
  | .notLeader .. => "NotLeader"
  | .catalogUnavailable _ => "CatalogUnavailable"
  | .internal _ => "InternalError"

def status : ServiceError → Nat
  | .invalidArgument _ => 400
  | .notLeader .. => 409
  | .catalogUnavailable _ => 503
  | .internal _ => 500

def message : ServiceError → String
  | .invalidArgument message => message
  | .notLeader self leader =>
    let leader := (leader.map fun id => toString id.toNat).getD "unknown"
    "node " ++ toString self.toNat ++ " is not the leader (current leader: " ++ leader ++ ")"
  | .catalogUnavailable message => "catalog unavailable: " ++ message
  | .internal _ => "We encountered an internal error, please try again."

def body (e : ServiceError) (requestId : String) : Json :=
  .object [("error", .object [("code", .string e.code), ("message", .string e.message),
    ("requestId", .string requestId)])]

end ServiceError

end OrderCluster
