import OrderCluster.Catalog.Choice
import OrderCluster.Coordinator
import OrderCluster.Http.Client
import OrderCluster.Http.Server
import OrderCluster.Replication.Site

/-!
# A fleet of nodes

Whole nodes that call each other over one network. A request is served at once; the pushes that it
leaves owed are run afterwards, the oldest first. A stopped node is not reached, and what it finds
when it starts again is what its order log keeps.
-/

namespace OrderCluster

open Http (Server Settings Stamp Delivery Network RemotePeers Deadlines)

structure Host where
  id : NodeId
  address : Address
  /-- The stock that a fresh start begins with. -/
  stock : Stock
  server : Server CatalogChoice
  running : Bool

/-- The nodes, what their requests are bounded by, and the pushes that are owed. -/
structure Fleet where
  hosts : List Host
  /-- Whether the network carries requests at all. -/
  connected : Bool
  deadlines : Deadlines
  parallel : Nat
  stamp : Stamp
  owed : List (NodeId × Order) := []

namespace Fleet

def running? (f : Fleet) (id : NodeId) : Option Host :=
  f.hosts.find? fun h => h.id = id && h.running

def modify (f : Fleet) (id : NodeId) (change : Host → Host) : Fleet :=
  { f with hosts := f.hosts.map fun h => if h.id = id then change h else h }

/-- Hands a request to a node, whatever the network does. -/
def visit (f : Fleet) (h : Host) (request : Http.Request) : Http.Response × Fleet :=
  let (response, owed?, server) := h.server.handle f.stamp request
  let f := f.modify h.id ({ · with server })
  (response, { f with owed := f.owed ++ (owed?.map ((h.id, ·))).toList })

def deliver (f : Fleet) (address : Address) (request : Http.Request) : Delivery × Fleet :=
  match f.hosts.find? fun h => h.address = address && h.running && f.connected with
  | none => (.severed, f)
  | some h =>
    let (response, f) := f.visit h request
    (.answered response, f)

instance : Network Fleet where
  deliver := Fleet.deliver

/-- Lets a node work among the others, which it calls over the network. -/
def among (f : Fleet) (h : Host)
    (work : Replication.Site CatalogChoice (RemotePeers Fleet) →
      α × Replication.Site CatalogChoice (RemotePeers Fleet)) : α × Fleet :=
  let lanes := .ofWidth f.parallel f.deadlines.rpc ⟨f, f.deadlines⟩
  let (a, site) := work { desk := h.server.desk, lanes }
  let f := site.lanes.peers.network
  (a, f.modify h.id fun h => { h with server := { h.server with desk := site.desk } })

/-- Runs a push that is owed. A node that was stopped meanwhile owes nothing any more. -/
def push (f : Fleet) (id : NodeId) (order : Order) : Fleet :=
  match f.running? id with
  | none => f
  | some h => (f.among h fun site => site.fanOut order).2

def settle (f : Fleet) : Fleet :=
  f.owed.foldl (fun f (id, order) => f.push id order) { f with owed := [] }

def call (f : Fleet) (address : Address) (method : Method) (request : method.Request) :
    Except PeerError method.Response × Fleet :=
  let (answer, f) := Http.callOver f address (f.deadlines.of method) method request
  (answer, f.settle)

def coordinate (f : Fleet) (program : Program Question α) : α × Fleet :=
  let (a, peers) := program.run Question.perform (⟨f, f.deadlines⟩ : RemotePeers Fleet)
  (a, peers.network.settle)

/-- Catches up, if the settings ask for it, and is ready whether or not that succeeds. -/
def startSync (f : Fleet) (id : NodeId) : Fleet :=
  match f.running? id with
  | none => f
  | some h =>
    let f := if h.server.settings.syncsAtStart then (f.among h fun site => site.sync).2 else f
    f.modify id fun h => { h with server := { h.server with ready := true } }

def stop (f : Fleet) (id : NodeId) : Fleet := f.modify id ({ · with running := false })

/-- Starts a node anew: with what its log keeps, with fresh stock, and without beliefs. -/
def start (f : Fleet) (id : NodeId) (sync : Bool) : Fleet :=
  let members := f.hosts.map fun h => { id := h.id, address := h.address : Member }
  let restart (h : Host) : Host :=
    let storage : Storage := ⟨h.server.desk.node.storage.log.reopen, fun _ => none⟩
    match Service.openNode storage (.ofMembers h.id members) with
    | .error _ => h
    | .ok node =>
      { h with
        running := true
        server := {
          settings := { h.server.settings with syncsAtStart := sync }
          desk := ⟨node, .stock h.stock⟩ } }
  ((f.modify id restart).startSync id).settle

end Fleet

end OrderCluster
