import OrderCluster.Catalog.Basic
import OrderCluster.Counter
import OrderCluster.Log.Basic
import OrderCluster.Metrics
import OrderCluster.Program
import OrderCluster.Registry

/-!
# A node and the actions on it

All that a node does is made of a few atomic actions on its order log, its counter, its registry,
its counts and its catalog. The catalog may be shared with other nodes.
-/

namespace OrderCluster

structure Node where
  storage : Storage
  counter : Counter
  registry : Registry
  metrics : Metrics := {}

def Node.series (n : Node) : List Series :=
  n.metrics.counts ++ [.activePeers n.registry.publishedActive, .maxNumber n.metrics.maxNumber]

/-- A node at work: what it owns, and the catalog it asks. -/
structure Desk (κ : Type) where
  node : Node
  catalog : κ

/-- The atomic actions of a node. -/
inductive Action where
  | changeStock (request : StockRequest)
  | mint
  | resetAbove (n : OrderNumber)
  | peek
  | insert (order : Order)
  | insertAll (orders : List Order)
  | find (n : OrderNumber)
  | after (n : OrderNumber)
  | maxNumber
  | registry
  | mark (id : NodeId) (status : Status)
  | assignLeader (id : NodeId)
  | tally (what : Tally) (n : Nat)
  | publishMax (n : OrderNumber)

namespace Action

abbrev Answer : Action → Type
  | .changeStock _ => Except Failure StockChange
  | .mint => Option OrderNumber
  | .peek => OrderNumber
  | .insert _ => Except Failure Bool
  | .insertAll _ => Except Failure Nat
  | .find _ => Except Failure (Option Order)
  | .after _ => Except Failure (List Order)
  | .maxNumber => Except Failure OrderNumber
  | .registry => Registry
  | .mark .. => Bool
  | .resetAbove _ | .assignLeader _ | .tally .. | .publishMax _ => Unit

instance : Interface Action where
  Answer := Answer

def perform [Catalog κ] : (action : Action) → Desk κ → action.Answer × Desk κ
  | .changeStock request, d =>
    let (answer, catalog) := Catalog.change d.catalog request
    (answer, { d with catalog })
  | .mint, d =>
    let (n, counter) := d.node.counter.mint
    (n, { d with node := { d.node with counter } })
  | .resetAbove n, d =>
    ((), { d with node := { d.node with counter := d.node.counter.resetAbove n } })
  | .peek, d => (d.node.counter.next, d)
  | .insert order, d =>
    let (answer, storage) := d.node.storage.write .insert fun log => log.insert order
    (answer, { d with node := { d.node with storage } })
  | .insertAll orders, d =>
    let (answer, storage) := d.node.storage.write .insertAll fun log => log.insertAll orders
    (answer, { d with node := { d.node with storage } })
  | .find n, d => (d.node.storage.read .get fun log => log.get? n, d)
  | .after n, d => (d.node.storage.read .after fun log => log.after n, d)
  | .maxNumber, d => (d.node.storage.read .maxNumber fun log => log.maxNumber, d)
  | .registry, d => (d.node.registry, d)
  | .mark id status, d =>
    let (changed, noted) := d.node.registry.mark id status
    (changed, { d with node := { d.node with registry := noted } })
  | .assignLeader id, d =>
    ((), { d with node := { d.node with registry := d.node.registry.assignLeader id } })
  | .tally what n, d =>
    ((), { d with node := { d.node with metrics := d.node.metrics.add what n } })
  | .publishMax n, d =>
    ((), { d with node := { d.node with metrics := { d.node.metrics with maxNumber := n } } })

end Action

/-- What a node does, one action after the other. -/
abbrev Work (α : Type) := Program Action α

namespace Work

/-- Does a task at a desk, with nothing in between. -/
def perform [Catalog κ] (task : Work α) (d : Desk κ) : α × Desk κ := task.run Action.perform d

def changeStock (request : StockRequest) : Work (Except Failure StockChange) :=
  .act (.changeStock request) .done

def mint : Work (Option OrderNumber) := .act .mint .done

def resetAbove (n : OrderNumber) : Work Unit := .act (.resetAbove n) .done

def peek : Work OrderNumber := .act .peek .done

def insert (order : Order) : Work (Except Failure Bool) := .act (.insert order) .done

def insertAll (orders : List Order) : Work (Except Failure Nat) := .act (.insertAll orders) .done

def find (n : OrderNumber) : Work (Except Failure (Option Order)) := .act (.find n) .done

def after (n : OrderNumber) : Work (Except Failure (List Order)) := .act (.after n) .done

def maxNumber : Work (Except Failure OrderNumber) := .act .maxNumber .done

def registry : Work Registry := .act .registry .done

def mark (id : NodeId) (status : Status) : Work Bool := .act (.mark id status) .done

def assignLeader (id : NodeId) : Work Unit := .act (.assignLeader id) .done

def tally (what : Tally) (n : Nat := 1) : Work Unit := .act (.tally what n) .done

def publishMax (n : OrderNumber) : Work Unit := .act (.publishMax n) .done

end Work

end OrderCluster
