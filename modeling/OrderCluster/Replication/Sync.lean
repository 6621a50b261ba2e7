import OrderCluster.Replication.Call
import OrderCluster.Replication.Merge

/-!
# Catching up

A node asks every active peer for the orders above its own greatest number, merges what they send
and writes what is missing. Afterwards its counter lies above all that it holds.
-/

namespace OrderCluster.Replication

/-- A sync whose calls may be made: whom to ask, and for orders above which number. -/
structure Sync where
  selfId : NodeId
  peers : List Member
  after : OrderNumber
  deriving DecidableEq, Repr

structure SyncReport where
  contacted : Nat
  responded : List NodeId
  failed : List NodeId
  received : Nat
  inserted : Nat
  conflicts : Nat
  maxNumber : OrderNumber
  deriving DecidableEq, Repr

namespace Sync

def begin : Work (Except Failure Sync) := do
  let registry ← Work.registry
  match ← Work.maxNumber with
  | .error cause => return .error cause
  | .ok after => return .ok ⟨registry.selfId, registry.activePeers, after⟩

def errand (s : Sync) : Errand := .fetch ⟨s.selfId, s.after⟩

def answers (ended : List Ended) : List (NodeId × List Order) :=
  ended.filterMap fun (peer, verdict) =>
    match verdict with
    | .sent orders => some (peer, orders)
    | _ => none

/-- Writes what the peers sent, once every call has ended. -/
def conclude (s : Sync) (ended : List Ended) : Work (Except Failure SyncReport) := do
  if s.peers.isEmpty then return .ok ⟨0, [], [], 0, 0, 0, s.after⟩
  let merged := merge (answers ended)
  match ← Work.insertAll merged.orders with
  | .error cause => return .error cause
  | .ok inserted =>
    match ← Work.maxNumber with
    | .error cause => return .error cause
    | .ok maxNumber => do
      Work.resetAbove maxNumber
      Work.tally .syncInserted inserted
      Work.publishMax maxNumber
      return .ok {
        contacted := s.peers.length
        responded := peersWhere (!·.isFailed) ended
        failed := peersWhere (·.isFailed) ended
        received := (ended.flatMap fun (_, verdict) => verdict.orders).length
        inserted
        conflicts := merged.conflicts
        maxNumber }

end Sync

end OrderCluster.Replication
