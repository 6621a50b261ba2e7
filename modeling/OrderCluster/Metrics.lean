import OrderCluster.Double
import OrderCluster.Number

/-!
# Metrics

What a node counts, and the names under which the counts are published. A count of zero is not
published.
-/

namespace OrderCluster

/-- Why a buy did not place an order. -/
inductive BuyFailure where
  | invalid
  | notLeader
  | catalogUnavailable
  | stock
  | exhausted
  | storage
  deriving DecidableEq, Repr

inductive CallKind where
  | fetch
  | accept
  deriving DecidableEq, Repr

inductive CallOutcome where
  | ok
  | duplicate
  | failed
  deriving DecidableEq, Repr

inductive Tally where
  | ordersCreated
  | buyFailures (reason : BuyFailure)
  | replicationCalls (kind : CallKind) (outcome : CallOutcome)
  | syncInserted
  deriving DecidableEq, Repr

/-- The counts, and the greatest number last published for the order log. -/
structure Metrics where
  total : Tally → Nat := fun _ => 0
  maxNumber : OrderNumber := 0

namespace Metrics

def add (m : Metrics) (tally : Tally) (n : Nat) : Metrics :=
  { m with total := fun t => if t = tally then m.total t + n else m.total t }

end Metrics

def BuyFailure.label : BuyFailure → String
  | .invalid => "invalid"
  | .notLeader => "not_leader"
  | .catalogUnavailable => "catalog_unavailable"
  | .stock => "stock"
  | .exhausted => "exhausted"
  | .storage => "storage"

def CallKind.label : CallKind → String
  | .fetch => "fetch"
  | .accept => "accept"

def CallOutcome.label : CallOutcome → String
  | .ok => "ok"
  | .duplicate => "duplicate"
  | .failed => "failed"

/-- A count grows only; a gauge goes up and down. -/
inductive SeriesKind where
  | counter
  | gauge
  deriving DecidableEq, Repr

/-- A published value, under its name and labels. -/
structure Series where
  kind : SeriesKind
  name : String
  labels : List (String × String) := []
  value : String
  deriving DecidableEq, Repr

namespace Series

/-- The name with its labels in braces, as it stands in front of the value. -/
def key (s : Series) : String :=
  match s.labels with
  | [] => s.name
  | labels =>
    let pairs := labels.map fun (label, value) => label ++ "=\"" ++ value ++ "\""
    s.name ++ "\x7b" ++ ",".intercalate pairs ++ "\x7d"

/-- A count, unless it is zero. -/
def count? (name : String) (labels : List (String × String)) (n : Nat) : Option Series :=
  if n = 0 then none else some ⟨.counter, name, labels, toString n⟩

def gauge (name : String) (value : Int) : Series := ⟨.gauge, name, [], Double.text value⟩

def activePeers (n : Nat) : Series := gauge "orderstore_peers_active" n

def maxNumber (n : OrderNumber) : Series := gauge "orderstore_order_log_max_key" n.toInt

end Series

namespace Tally

def all : List Tally :=
  [.ordersCreated, .buyFailures .invalid, .buyFailures .notLeader,
    .buyFailures .catalogUnavailable, .buyFailures .stock, .buyFailures .exhausted,
    .buyFailures .storage, .replicationCalls .fetch .ok, .replicationCalls .fetch .duplicate,
    .replicationCalls .fetch .failed, .replicationCalls .accept .ok,
    .replicationCalls .accept .duplicate, .replicationCalls .accept .failed, .syncInserted]

def name : Tally → String
  | .ordersCreated => "orderstore_orders_created_total"
  | .buyFailures _ => "orderstore_buy_failures_total"
  | .replicationCalls .. => "orderstore_replication_rpcs_total"
  | .syncInserted => "orderstore_sync_records_inserted_total"

def labels : Tally → List (String × String)
  | .ordersCreated | .syncInserted => []
  | .buyFailures reason => [("reason", reason.label)]
  | .replicationCalls kind outcome => [("kind", kind.label), ("outcome", outcome.label)]

end Tally

namespace Metrics

def counts (m : Metrics) : List Series :=
  Tally.all.filterMap fun t => Series.count? t.name t.labels (m.total t)

end Metrics

def SeriesKind.name : SeriesKind → String
  | .counter => "counter"
  | .gauge => "gauge"

/-- The lines of series, each new name announced with its kind. -/
def expositionLines (announced : Option String) : List Series → List String
  | [] => []
  | s :: rest =>
    let line := s.key ++ " " ++ s.value
    let lines := line :: expositionLines (some s.name) rest
    if announced = some s.name then lines
    else ("# TYPE " ++ s.name ++ " " ++ s.kind.name) :: lines

def exposition (series : List Series) : String :=
  String.join ((expositionLines none series).map (· ++ "\n"))

end OrderCluster
