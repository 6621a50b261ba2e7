import OrderCluster.Order
import Std.Data.TreeMap

/-!
# The order log in memory

Orders in an ordered map. The first write of a number stands for ever.
-/

namespace OrderCluster

structure MemoryLog where
  orders : Std.TreeMap OrderNumber Order := {}

namespace MemoryLog

def get? (log : MemoryLog) (n : OrderNumber) : Option Order := log.orders[n]?

def insert (log : MemoryLog) (order : Order) : Bool × MemoryLog :=
  if log.orders.contains order.number then (false, log)
  else (true, ⟨log.orders.insert order.number order⟩)

def after (log : MemoryLog) (n : OrderNumber) : List Order :=
  log.orders.values.filter (fun order => n < order.number)

def maxNumber (log : MemoryLog) : OrderNumber := log.orders.maxKey?.getD 0

end MemoryLog

end OrderCluster
