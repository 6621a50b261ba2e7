import OrderCluster.Member
import OrderCluster.Order
import Std.Data.TreeMap

/-!
# Merging what the peers sent

The answers of several peers become one list, ascending by order number. Where two peers differ
about a number, the record of the lowest peer id stays and the clash is counted.
-/

namespace OrderCluster.Replication

/-- The records kept so far, and the number of those that differed from a kept one. -/
structure Merged where
  kept : Std.TreeMap OrderNumber Order := {}
  conflicts : Nat := 0

namespace Merged

/-- Takes one more record: the first of a number is kept, a later one is compared with it. -/
def add (m : Merged) (order : Order) : Merged :=
  match m.kept[order.number]? with
  | none => { m with kept := m.kept.insert order.number order }
  | some held => if held = order then m else { m with conflicts := m.conflicts + 1 }

def orders (m : Merged) : List Order := m.kept.values

end Merged

/-- The order in which records are read: by ascending peer, each answer from its front. -/
def readingOrder (answers : List (NodeId × List Order)) : List Order :=
  (answers.mergeSort (fun a b => a.1 ≤ b.1)).flatMap Prod.snd

/-- One record for each number that any peer sent. -/
def merge (answers : List (NodeId × List Order)) : Merged :=
  (readingOrder answers).foldl Merged.add {}

end OrderCluster.Replication
