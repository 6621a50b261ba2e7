import OrderCluster.Failure
import OrderCluster.Log.Memory
import OrderCluster.Log.Table

/-!
# The order log

One interface over the two engines, and a log whose calls can be made to fail. Both engines keep
the first write of each number; they differ only in what survives being reopened.
-/

namespace OrderCluster

inductive OrderLog where
  | memory (log : MemoryLog)
  | table (log : Table)

namespace OrderLog

def get? : OrderLog → OrderNumber → Option Order
  | .memory log, n => log.get? n
  | .table log, n => log.get? n

/-- Adds an order unless its number is taken, and says whether it did. -/
def insert : OrderLog → Order → Bool × OrderLog
  | .memory log, order => let (fresh, log) := log.insert order; (fresh, .memory log)
  | .table log, order => let (fresh, log) := log.insert order; (fresh, .table log)

/-- Adds orders one after the other and counts those that were new. -/
def insertAll (log : OrderLog) : List Order → Nat × OrderLog
  | [] => (0, log)
  | order :: rest =>
    let (fresh, log) := log.insert order
    let (count, log) := log.insertAll rest
    (count + fresh.toNat, log)

def after : OrderLog → OrderNumber → List Order
  | .memory log, n => log.after n
  | .table log, n => log.after n

def all : OrderLog → List Order
  | .memory log => log.orders.values
  | .table log => log.rows.mergeSort (fun a b => a.number ≤ b.number)

/-- The greatest number held, or 0 when there is none. -/
def maxNumber : OrderLog → OrderNumber
  | .memory log => log.maxNumber
  | .table log => log.maxNumber

/-- The log as the next process finds it. -/
def reopen : OrderLog → OrderLog
  | .memory _ => .memory {}
  | .table log => .table log.reopen

end OrderLog

inductive LogCall where
  | insert
  | insertAll
  | get
  | after
  | maxNumber
  deriving DecidableEq, Repr

/-- A log together with the calls that fail at the moment. -/
structure Storage where
  log : OrderLog
  outage : LogCall → Option Failure := fun _ => none

namespace Storage

/-- Reads from the log, unless that call fails. -/
def read (s : Storage) (call : LogCall) (f : OrderLog → α) : Except Failure α :=
  match s.outage call with
  | some failure => .error failure
  | none => .ok (f s.log)

def write (s : Storage) (call : LogCall) (f : OrderLog → α × OrderLog) :
    Except Failure α × Storage :=
  match s.outage call with
  | some failure => (.error failure, s)
  | none => let (a, log) := f s.log; (.ok a, { s with log })

end Storage

end OrderCluster
