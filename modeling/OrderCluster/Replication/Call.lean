import OrderCluster.Node
import OrderCluster.Rpc.Method
import OrderCluster.Rpc.PeerError

/-!
# Replication calls

A node asks peers for orders, or pushes an order to them. Every call is made once. A peer whose
call failed is believed offline from then on; an answer changes nothing.
-/

namespace OrderCluster.Replication

/-- What a peer is called for. -/
inductive Errand where
  | fetch (request : FetchRequest)
  | accept (request : AcceptRequest)
  deriving DecidableEq, Repr

/-- What became of a call. -/
inductive Verdict where
  | failed (error : PeerError)
  | sent (orders : List Order)
  | stored
  | held
  deriving DecidableEq, Repr

namespace Verdict

def ofFetch : Except PeerError FetchResponse → Verdict
  | .error e => .failed e
  | .ok response => .sent response.orders

def ofAccept : Except PeerError AcceptResponse → Verdict
  | .error e => .failed e
  | .ok response => if response.success then .stored else .held

def isFailed : Verdict → Bool
  | .failed _ => true
  | _ => false

def orders : Verdict → List Order
  | .sent orders => orders
  | _ => []

def outcome : Verdict → CallOutcome
  | .failed _ => .failed
  | .held => .duplicate
  | .sent _ | .stored => .ok

end Verdict

/-- A call that ended, and the peer that was called. -/
abbrev Ended := NodeId × Verdict

/-- The peers whose calls ended in a certain way, ascending. -/
def peersWhere (p : Verdict → Bool) (ended : List Ended) : List NodeId :=
  ((ended.filter fun (_, verdict) => p verdict).map Prod.fst).mergeSort (· ≤ ·)

/-- Counts a call that ended, and notes a failed peer as offline. -/
def settle (kind : CallKind) (peer : NodeId) (verdict : Verdict) : Work Unit := do
  Work.tally (.replicationCalls kind verdict.outcome)
  if verdict.isFailed then let _ ← Work.mark peer .offline

end OrderCluster.Replication
