import OrderCluster.Replication.Call

/-!
# Pushing a fresh order

A placed order is pushed to every peer that is active when the push begins. The local commit
stands, whatever the peers answer.
-/

namespace OrderCluster.Replication

/-- A push whose calls may be made. -/
structure FanOut where
  selfId : NodeId
  peers : List Member
  order : Order
  deriving DecidableEq, Repr

/-- Which peers stored the order, which had its number already, and which failed. -/
structure FanOutReport where
  accepted : List NodeId
  duplicates : List NodeId
  failed : List NodeId
  deriving DecidableEq, Repr

namespace FanOut

def begin (order : Order) : Work FanOut := do
  let registry ← Work.registry
  return ⟨registry.selfId, registry.activePeers, order⟩

def errand (f : FanOut) : Errand := .accept ⟨f.order, f.selfId⟩

def report (ended : List Ended) : FanOutReport :=
  ⟨peersWhere (· = .stored) ended, peersWhere (· = .held) ended, peersWhere (·.isFailed) ended⟩

end FanOut

end OrderCluster.Replication
