import OrderCluster.Node
import OrderCluster.Rpc.Wire
import OrderCluster.Service.Error

/-!
# The other calls a node answers

Looking an order up, the health probe, the assignment of a leader, serving a peer that catches up,
taking an order from a leader, and the status report.
-/

namespace OrderCluster

structure StatusReport where
  selfId : NodeId
  mode : Mode
  leader : Option NodeId
  maxNumber : OrderNumber
  nextNumber : OrderNumber
  members : List MemberView
  deriving DecidableEq, Repr

/-- The report as JSON; a leader that is not known is null. -/
def StatusReport.toJson (r : StatusReport) : Json :=
  .object [("selfId", Wire.toJson r.selfId), ("mode", Wire.toJson r.mode),
    ("currentLeader", (r.leader.map Wire.toJson).getD .null),
    ("maxOrderNumber", Wire.toJson r.maxNumber), ("nextOrderNumber", Wire.toJson r.nextNumber),
    ("nodes", Wire.toJson r.members)]

namespace Service

/-- Ends with an internal error where a log call failed. -/
def orInternal (answer : Except Failure α) (next : α → Work (Except ServiceError β)) :
    Work (Except ServiceError β) :=
  match answer with
  | .ok a => next a
  | .error cause => .done (.error (.internal cause))

def query (request : QueryRequest) : Work (Except ServiceError QueryResponse) := do
  orInternal (← Work.find request.orderNumber) fun order? => return .ok (.ofOrder? order?)

def health (_ : HealthRequest) : HealthResponse := .online

/-- Notes the leader. A node that is told to lead moves its counter above all that it holds. -/
def assign (request : LeaderAssignment) : Work (Except ServiceError AssignmentResponse) := do
  Work.assignLeader request.id
  let message := "Received the leader id: " ++ toString request.id.toNat
  let registry ← Work.registry
  if request.id = registry.selfId then
    orInternal (← Work.maxNumber) fun n => do
      Work.resetAbove n
      return .ok ⟨message ++ ", I am the leader!"⟩
  else return .ok ⟨message⟩

/-- Serves a peer that catches up; a peer that asks is evidently alive. -/
def fetch (request : FetchRequest) : Work (Except ServiceError FetchResponse) := do
  let _ ← Work.mark request.requester .active
  orInternal (← Work.after request.after) fun orders => return .ok ⟨orders, request.after⟩

/-- Takes an order from a leader. The counter stays above it, in case this node takes buys. -/
def accept (request : AcceptRequest) : Work (Except ServiceError AcceptResponse) := do
  orInternal (← Work.insert request.order) fun fresh => do
    Work.resetAbove request.order.number
    if fresh then
      orInternal (← Work.maxNumber) fun n => do
        Work.publishMax n
        return .ok ⟨true⟩
    else return .ok ⟨false⟩

def status : Work (Except ServiceError StatusReport) := do
  orInternal (← Work.maxNumber) fun maxNumber => do
    let registry ← Work.registry
    let nextNumber ← Work.peek
    return .ok ⟨registry.selfId, registry.selfMode, registry.leader, maxNumber, nextNumber,
      registry.members.map Member.view⟩

/-- Opens a node on a log: the counter starts above all that the log holds. -/
def openNode (storage : Storage) (registry : Registry) : Except Failure Node :=
  match storage.read .maxNumber fun log => log.maxNumber with
  | .error cause => .error (cause.within "failed to read order log max key")
  | .ok n => .ok { storage, counter := .startingAbove n, registry, metrics := { maxNumber := n } }

end Service

end OrderCluster
