import OrderCluster.Member

/-!
# Configuration

What a node and the coordinator are set up with. Every setting but those of a peer has a default.
-/

namespace OrderCluster

/-- Where the server listens and how much it takes on. -/
structure ServerSection where
  host : String := "0.0.0.0"
  port : UInt16 := 1766
  shutdownSeconds : UInt64 := 30
  maxConcurrent : UInt64 := 50
  deriving DecidableEq, Repr

structure LogSection where
  engine : String := "sqlite"
  path? : Option String := none
  readConnections : UInt64 := 4
  deriving DecidableEq, Repr

/-- The file of the order log of a node. -/
def LogSection.pathFor (s : LogSection) (id : NodeId) : String :=
  s.path?.getD ("./data/orderlog_" ++ toString id.toNat ++ ".db")

structure CatalogSection where
  backend : String := "http"
  url : String := "http://127.0.0.1:1765"
  timeoutMillis : UInt64 := 5000
  products : List (String × Int64) := []
  deriving DecidableEq, Repr

structure ReplicationSection where
  rpcMillis : UInt64 := 5000
  healthMillis : UInt64 := 1000
  maxParallel : UInt64 := 16
  syncsAtStart : Bool := true
  deriving DecidableEq, Repr

structure LoggingSection where
  level : String := "info"
  format : String := "text"
  deriving DecidableEq, Repr

structure Peer where
  id : NodeId
  address : Address
  deriving DecidableEq, Repr

structure Config where
  server : ServerSection := {}
  nodeId : NodeId := 1
  peers : List Peer := []
  log : LogSection := {}
  catalog : CatalogSection := {}
  replication : ReplicationSection := {}
  /-- Whether only a leader takes buys. -/
  strictBuy : Bool := false
  logging : LoggingSection := {}
  /-- Whether there is a metrics page. -/
  metricsPage : Bool := true
  /-- Whether readiness waits for the first sync. -/
  awaitsSync : Bool := true
  deriving DecidableEq, Repr

/-- A listed node as it is believed to be at first. -/
def Peer.member (p : Peer) : Member := { id := p.id, address := p.address }

def Config.members (c : Config) : List Member := c.peers.map Peer.member

end OrderCluster
