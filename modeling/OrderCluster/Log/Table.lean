import OrderCluster.Order

/-!
# The order log as a table

Rows in the order they were written, with a primary key. A write whose key is taken is ignored;
reads select, sort and aggregate. The medium decides what a reopened table still holds, and
nothing else: every read connection sees what was written.
-/

namespace OrderCluster

inductive Medium where
  | inMemory
  | onFile (readConnections : Nat)
  deriving DecidableEq, Repr

/-- Rows, the oldest first. -/
structure Table where
  medium : Medium
  rows : List Order := []
  deriving DecidableEq, Repr

namespace Table

def get? (t : Table) (n : OrderNumber) : Option Order :=
  t.rows.find? (fun row => row.number = n)

/-- Writes a row or, when its key is taken, ignores it; says whether a row was written. -/
def insert (t : Table) (row : Order) : Bool × Table :=
  if t.rows.any (fun held => held.number = row.number) then (false, t)
  else (true, { t with rows := t.rows ++ [row] })

def after (t : Table) (n : OrderNumber) : List Order :=
  (t.rows.filter (fun row => n < row.number)).mergeSort (fun a b => a.number ≤ b.number)

def maxNumber (t : Table) : OrderNumber :=
  ((t.rows.map Order.number).max?).getD 0

/-- The table as the next process finds it. -/
def reopen (t : Table) : Table :=
  match t.medium with
  | .inMemory => { t with rows := [] }
  | .onFile _ => t

end Table

end OrderCluster
