import OrderCluster.Catalog.Choice
import OrderCluster.Config.Basic
import OrderCluster.Http.Client
import OrderCluster.Http.Server
import OrderCluster.Service.Answers

/-!
# Setting a node up

The order log, the catalog, the server and the deadlines that a configuration asks for. Engines and
backends are known by their exact names.
-/

namespace OrderCluster

inductive SetupError where
  | unknownEngine (name : String)
  | unknownBackend (name : String)
  deriving DecidableEq, Repr

def SetupError.text : SetupError → String
  | .unknownEngine name =>
    "unknown order_log.engine '" ++ name ++ "' (expected sqlite or memory)"
  | .unknownBackend name =>
    "unknown catalog.backend '" ++ name ++ "' (expected http or memory)"

namespace Config

def newLog (c : Config) : Except SetupError OrderLog :=
  match c.log.engine with
  | "memory" => .ok (.memory {})
  | "sqlite" => .ok (.table { medium := .onFile c.log.readConnections.toNat })
  | name => .error (.unknownEngine name)

/-- The catalog; a remote one is asked over the given connection. -/
def newCatalog (c : Config) (deliver : Http.Request → Http.Delivery) :
    Except SetupError CatalogChoice :=
  match c.catalog.backend with
  | "memory" => .ok (.stock (.ofList c.catalog.products))
  | "http" => .ok (.remote (.ofBase c.catalog.url deliver))
  | name => .error (.unknownBackend name)

def settings (c : Config) : Http.Settings where
  strict := c.strictBuy
  metricsPage := c.metricsPage
  awaitsSync := c.awaitsSync
  syncsAtStart := c.replication.syncsAtStart

def openServer (c : Config) (log : OrderLog) (catalog : CatalogChoice) :
    Except Failure (Http.Server CatalogChoice) := do
  let node ← Service.openNode { log } (.ofMembers c.nodeId c.members)
  return { settings := c.settings, desk := ⟨node, catalog⟩ }

def deadlines (c : Config) : Http.Deadlines :=
  ⟨c.replication.rpcMillis.toNat, c.replication.healthMillis.toNat⟩

end Config

end OrderCluster
