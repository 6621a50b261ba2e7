import OrderCluster.Config.Basic
import OrderCluster.Json.Bytes
import OrderCluster.Yaml.Value

/-!
# Reading a configuration

A configuration file is a YAML document with a section for each concern. What is left out takes its
default; keys that are not known do not matter. A product that is listed twice has the last stock.
-/

namespace OrderCluster

open Yaml (Form Node Reader readText readOptionalText readUInt16 readUInt32 readUInt64 readInt64
  readBool readList readMap readSection)

inductive ConfigError where
  /-- There is no file, or it does not hold text. -/
  | unreadable
  /-- The text is no YAML document, or not one of this form. -/
  | malformed
  deriving DecidableEq, Repr

namespace Config

def serverForm : Form := .scalars ["host", "port", "shutdown_timeout", "max_concurrent_requests"]

def readServer : Reader ServerSection := fun document node => do
  let s ← readSection serverForm document node
  let d : ServerSection := {}
  some {
    host := ← s.setting "host" readText d.host
    port := ← s.setting "port" readUInt16 d.port
    shutdownSeconds := ← s.setting "shutdown_timeout" readUInt64 d.shutdownSeconds
    maxConcurrent := ← s.setting "max_concurrent_requests" readUInt64 d.maxConcurrent }

def nodeForm : Form := .scalars ["id"]

def readNode : Reader NodeId := fun document node => do
  let s ← readSection nodeForm document node
  s.setting "id" readUInt32 1

def peerForm : Form := .scalars ["id", "host", "port"]

def readPeer : Reader Peer := fun document node => do
  let s ← readSection peerForm document node
  some {
    id := ← s.required "id" readUInt32
    address := ⟨← s.required "host" readText, ← s.required "port" readUInt16⟩ }

def databaseForm : Form := .scalars ["path", "read_connections"]

def readDatabase : Reader (Option String × UInt64) := fun document node => do
  let s ← readSection databaseForm document node
  let d : LogSection := {}
  some (← s.setting "path" readOptionalText d.path?,
    ← s.setting "read_connections" readUInt64 d.readConnections)

def logForm : Form := .keyed fun
  | "engine" => .scalar
  | "sqlite" => databaseForm
  | _ => .ignored

def readLog : Reader LogSection := fun document node => do
  let s ← readSection logForm document node
  let d : LogSection := {}
  let engine ← s.setting "engine" readText d.engine
  let (path?, readConnections) ← s.setting "sqlite" readDatabase (d.path?, d.readConnections)
  some { engine, path?, readConnections }

def remoteForm : Form := .scalars ["url", "timeout_ms"]

def readRemoteCatalog : Reader (String × UInt64) := fun document node => do
  let s ← readSection remoteForm document node
  let d : CatalogSection := {}
  some (← s.setting "url" readText d.url, ← s.setting "timeout_ms" readUInt64 d.timeoutMillis)

/-- A list in which of the entries with one key only the last stays. -/
def lastOfEach : List (String × α) → List (String × α)
  | [] => []
  | (key, a) :: rest =>
    if rest.any (·.1 = key) then lastOfEach rest else (key, a) :: lastOfEach rest

/-- A key has the last of its values. -/
theorem lookup_lastOfEach (listed : List (String × α)) (key : String) :
    (lastOfEach listed).lookup key = listed.reverse.lookup key := by
  induction listed with
  | nil => rfl
  | cons entry rest ih =>
    obtain ⟨first, a⟩ := entry
    rw [lastOfEach, List.reverse_cons, List.lookup_append]
    by_cases same : key = first
    · subst same
      -- the value of the entry counts only where the key does not come again
      have again : rest.any (·.1 = key) = (rest.reverse.lookup key).isSome := by
        rw [Bool.eq_iff_iff, Option.isSome_iff_ne_none, ne_eq, List.lookup_eq_none_iff]
        simp
      rw [again]
      cases found : rest.reverse.lookup key <;> simp [ih, found]
    · have skip : ∀ entries, List.lookup key ((first, a) :: entries) = entries.lookup key :=
        fun entries => by simp [List.lookup_cons, beq_false_of_ne same]
      split <;> simp [skip, ih]

def stockForm : Form := .keyed fun
  | "products" => .map .scalar
  | _ => .ignored

def readProducts : Reader (List (String × Int64)) := fun document node => do
  let s ← readSection stockForm document node
  let products ← s.setting "products" (readMap readInt64) []
  some (lastOfEach products)

def catalogForm : Form := .keyed fun
  | "backend" => .scalar
  | "http" => remoteForm
  | "memory" => stockForm
  | _ => .ignored

def readCatalog : Reader CatalogSection := fun document node => do
  let s ← readSection catalogForm document node
  let d : CatalogSection := {}
  let backend ← s.setting "backend" readText d.backend
  let (url, timeoutMillis) ← s.setting "http" readRemoteCatalog (d.url, d.timeoutMillis)
  let products ← s.setting "memory" readProducts d.products
  some { backend, url, timeoutMillis, products }

def replicationForm : Form :=
  .scalars ["rpc_timeout_ms", "health_timeout_ms", "max_parallel_rpcs", "bootstrap_sync"]

def readReplication : Reader ReplicationSection := fun document node => do
  let s ← readSection replicationForm document node
  let d : ReplicationSection := {}
  some {
    rpcMillis := ← s.setting "rpc_timeout_ms" readUInt64 d.rpcMillis
    healthMillis := ← s.setting "health_timeout_ms" readUInt64 d.healthMillis
    maxParallel := ← s.setting "max_parallel_rpcs" readUInt64 d.maxParallel
    syncsAtStart := ← s.setting "bootstrap_sync" readBool d.syncsAtStart }

def leaderForm : Form := .scalars ["strict_buy"]

def readLeader : Reader Bool := fun document node => do
  let s ← readSection leaderForm document node
  s.setting "strict_buy" readBool false

def loggingForm : Form := .scalars ["level", "format"]

def readLogging : Reader LoggingSection := fun document node => do
  let s ← readSection loggingForm document node
  let d : LoggingSection := {}
  some {
    level := ← s.setting "level" readText d.level
    format := ← s.setting "format" readText d.format }

def observabilityForm : Form := .scalars ["metrics", "health_check"]

/-- Whether there is a metrics page, and whether readiness waits for the first sync. -/
def readObservability : Reader (Bool × Bool) := fun document node => do
  let s ← readSection observabilityForm document node
  some (← s.setting "metrics" readBool true, ← s.setting "health_check" readBool true)

def form : Form := .keyed fun
  | "server" => serverForm
  | "node" => nodeForm
  | "peers" => .list peerForm
  | "order_log" => logForm
  | "catalog" => catalogForm
  | "replication" => replicationForm
  | "leader" => leaderForm
  | "logging" => loggingForm
  | "observability" => observabilityForm
  | _ => .ignored

def read : Reader Config := fun document node => do
  let s ← readSection form document node
  let d : Config := {}
  let (metricsPage, awaitsSync) ←
    s.setting "observability" readObservability (d.metricsPage, d.awaitsSync)
  some {
    server := ← s.setting "server" readServer d.server
    nodeId := ← s.setting "node" readNode d.nodeId
    peers := ← s.setting "peers" (readList readPeer) d.peers
    log := ← s.setting "order_log" readLog d.log
    catalog := ← s.setting "catalog" readCatalog d.catalog
    replication := ← s.setting "replication" readReplication d.replication
    strictBuy := ← s.setting "leader" readLeader d.strictBuy
    logging := ← s.setting "logging" readLogging d.logging
    metricsPage, awaitsSync }

/-- The configuration that a text stands for; a text without a document stands for the defaults. A
document that makes its reader follow too many aliases stands for none. -/
def ofText? (text : String) : Option Config := do
  let document := (← Node.ofText? text).getD .empty
  if form.isOvergrown document then none else read document document

def ofFile (content? : Option Json.Bytes) : Except ConfigError Config :=
  match content?.bind Json.text? with
  | none => .error .unreadable
  | some text =>
    match ofText? text with
    | none => .error .malformed
    | some config => .ok config

end Config

end OrderCluster
