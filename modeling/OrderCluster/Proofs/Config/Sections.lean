import OrderCluster.Proofs.Config.Setting

/-!
# The settings of each section

Every section of a configuration is laid out in its settings: what is read of it depends on the
values that stand under its keys, and what is missing has one default, wherever it is missing
from.
-/

namespace OrderCluster.Config

open Yaml (Form Reader Section readSection)

theorem isSome_bind {α β : Type} {o : Option α} {f : α → Option β} (given : o.isSome)
    (next : ∀ a, (f a).isSome) : (o.bind f).isSome := by
  obtain ⟨a, rfl⟩ := Option.isSome_iff_exists.mp given
  exact next a

theorem covers_scalars {names : List String} (key : String)
    (known : (Form.scalars names).knows key = true) : key ∈ names := by
  simp only [Form.scalars, Form.knows] at known
  split at known
  · rename_i listed
    simpa using listed
  · cases known

/-! ## Sections of settings -/

def serverParts : List (Part ServerSection serverForm) := [
  .setting "host" .text (some "0.0.0.0") ServerSection.host rfl rfl,
  .setting "port" .uint16 (some 1766) ServerSection.port rfl rfl,
  .setting "shutdown_timeout" .uint64 (some 30) ServerSection.shutdownSeconds rfl rfl,
  .setting "max_concurrent_requests" .uint64 (some 50) ServerSection.maxConcurrent rfl rfl]

theorem layout_server :
    Layout serverForm readServer (some {}) (serverParts.flatMap Part.settings) := by
  refine .of_parts serverParts rfl covers_scalars (fun _ _ => rfl) ?_ ?_ ?_ (List.cons_ne_nil _ _)
  · intro rows s h
    simp only [Option.bind_eq_bind, Option.bind_eq_some_iff, Option.some.injEq] at h
    obtain ⟨host, h_host, port, h_port, shutdown, h_shutdown, most, h_most, rfl⟩ := h
    simp only [serverParts, List.forall_mem_cons]
    exact ⟨h_host, h_port, h_shutdown, h_most, nofun⟩
  · intro rows given
    simp only [serverParts, List.forall_mem_cons] at given
    obtain ⟨host, port, shutdown, most, -⟩ := given
    exact isSome_bind host fun _ => isSome_bind port fun _ => isSome_bind shutdown fun _ =>
      isSome_bind most fun _ => rfl
  · simp only [serverParts, List.forall_mem_cons]
    exact ⟨rfl, rfl, rfl, rfl, nofun⟩

def nodeParts : List (Part NodeId nodeForm) := [.setting "id" .uint32 (some 1) id rfl rfl]

theorem layout_node : Layout nodeForm readNode (some 1) (nodeParts.flatMap Part.settings) := by
  refine .of_parts nodeParts rfl covers_scalars (fun _ _ => rfl) ?_ ?_ ?_ (List.cons_ne_nil _ _)
  · intro rows s h
    simp only [nodeParts, List.forall_mem_cons]
    exact ⟨h, nofun⟩
  · intro rows given
    simp only [nodeParts, List.forall_mem_cons] at given
    exact given.1
  · simp only [nodeParts, List.forall_mem_cons]
    exact ⟨rfl, nofun⟩

/-- What is required is a setting without a default. -/
theorem find?_required {S : Type} {form : Form} {key : String} {kind : Kind} {get : S → kind.Value}
    {shaped : form.entry key = kind.form} {known : form.knows key = true} (rows : Section) :
    (Part.setting key kind none get shaped known).find? rows = rows.required key kind.read := by
  simp only [Part.find?, Section.required, Part.setting]
  cases rows.entries.lookup key <;> rfl

def peerParts : List (Part Peer peerForm) := [
  .setting "id" .uint32 none Peer.id rfl rfl,
  .setting "host" .text none (fun p => p.address.host) rfl rfl,
  .setting "port" .uint16 none (fun p => p.address.port) rfl rfl]

theorem layout_peer : Layout peerForm readPeer none (peerParts.flatMap Part.settings) := by
  refine .of_parts peerParts rfl covers_scalars (fun _ _ => rfl) ?_ ?_ ?_ (List.cons_ne_nil _ _)
  · intro rows s h
    simp only [Option.bind_eq_bind, Option.bind_eq_some_iff, Option.some.injEq] at h
    obtain ⟨id, h_id, host, h_host, port, h_port, rfl⟩ := h
    simp only [peerParts, List.forall_mem_cons]
    exact ⟨(find?_required rows).trans h_id, (find?_required rows).trans h_host,
      (find?_required rows).trans h_port, nofun⟩
  · intro rows given
    simp only [peerParts, List.forall_mem_cons] at given
    obtain ⟨id, host, port, -⟩ := given
    refine isSome_bind ?_ fun _ => isSome_bind ?_ fun _ => isSome_bind ?_ fun _ => rfl
    · exact (congrArg Option.isSome (find?_required rows)).symm.trans id
    · exact (congrArg Option.isSome (find?_required rows)).symm.trans host
    · exact (congrArg Option.isSome (find?_required rows)).symm.trans port
  · simp only [peerParts, List.forall_mem_cons]
    exact ⟨rfl, rfl, rfl, nofun⟩

def databaseParts : List (Part (Option String × UInt64) databaseForm) := [
  .setting "path" .optionalText (some none) Prod.fst rfl rfl,
  .setting "read_connections" .uint64 (some 4) Prod.snd rfl rfl]

theorem layout_database :
    Layout databaseForm readDatabase (some (none, 4)) (databaseParts.flatMap Part.settings) := by
  refine .of_parts databaseParts rfl covers_scalars (fun _ _ => rfl) ?_ ?_ ?_ (List.cons_ne_nil _ _)
  · intro rows s h
    simp only [Option.bind_eq_bind, Option.bind_eq_some_iff, Option.some.injEq] at h
    obtain ⟨path, h_path, connections, h_connections, rfl⟩ := h
    simp only [databaseParts, List.forall_mem_cons]
    exact ⟨h_path, h_connections, nofun⟩
  · intro rows given
    simp only [databaseParts, List.forall_mem_cons] at given
    obtain ⟨path, connections, -⟩ := given
    exact isSome_bind path fun _ => isSome_bind connections fun _ => rfl
  · simp only [databaseParts, List.forall_mem_cons]
    exact ⟨rfl, rfl, nofun⟩

def remoteParts : List (Part (String × UInt64) remoteForm) := [
  .setting "url" .text (some "http://127.0.0.1:1765") Prod.fst rfl rfl,
  .setting "timeout_ms" .uint64 (some 5000) Prod.snd rfl rfl]

theorem layout_remote :
    Layout remoteForm readRemoteCatalog (some ("http://127.0.0.1:1765", 5000))
      (remoteParts.flatMap Part.settings) := by
  refine .of_parts remoteParts rfl covers_scalars (fun _ _ => rfl) ?_ ?_ ?_ (List.cons_ne_nil _ _)
  · intro rows s h
    simp only [Option.bind_eq_bind, Option.bind_eq_some_iff, Option.some.injEq] at h
    obtain ⟨url, h_url, timeout, h_timeout, rfl⟩ := h
    simp only [remoteParts, List.forall_mem_cons]
    exact ⟨h_url, h_timeout, nofun⟩
  · intro rows given
    simp only [remoteParts, List.forall_mem_cons] at given
    obtain ⟨url, timeout, -⟩ := given
    exact isSome_bind url fun _ => isSome_bind timeout fun _ => rfl
  · simp only [remoteParts, List.forall_mem_cons]
    exact ⟨rfl, rfl, nofun⟩

def replicationParts : List (Part ReplicationSection replicationForm) := [
  .setting "rpc_timeout_ms" .uint64 (some 5000) ReplicationSection.rpcMillis rfl rfl,
  .setting "health_timeout_ms" .uint64 (some 1000) ReplicationSection.healthMillis rfl rfl,
  .setting "max_parallel_rpcs" .uint64 (some 16) ReplicationSection.maxParallel rfl rfl,
  .setting "bootstrap_sync" .flag (some true) ReplicationSection.syncsAtStart rfl rfl]

theorem layout_replication :
    Layout replicationForm readReplication (some {}) (replicationParts.flatMap Part.settings) := by
  refine .of_parts replicationParts rfl covers_scalars (fun _ _ => rfl) ?_ ?_ ?_
    (List.cons_ne_nil _ _)
  · intro rows s h
    simp only [Option.bind_eq_bind, Option.bind_eq_some_iff, Option.some.injEq] at h
    obtain ⟨rpc, h_rpc, health, h_health, most, h_most, syncs, h_syncs, rfl⟩ := h
    simp only [replicationParts, List.forall_mem_cons]
    exact ⟨h_rpc, h_health, h_most, h_syncs, nofun⟩
  · intro rows given
    simp only [replicationParts, List.forall_mem_cons] at given
    obtain ⟨rpc, health, most, syncs, -⟩ := given
    exact isSome_bind rpc fun _ => isSome_bind health fun _ => isSome_bind most fun _ =>
      isSome_bind syncs fun _ => rfl
  · simp only [replicationParts, List.forall_mem_cons]
    exact ⟨rfl, rfl, rfl, rfl, nofun⟩

def leaderParts : List (Part Bool leaderForm) :=
  [.setting "strict_buy" .flag (some false) id rfl rfl]

theorem layout_leader :
    Layout leaderForm readLeader (some false) (leaderParts.flatMap Part.settings) := by
  refine .of_parts leaderParts rfl covers_scalars (fun _ _ => rfl) ?_ ?_ ?_ (List.cons_ne_nil _ _)
  · intro rows s h
    simp only [leaderParts, List.forall_mem_cons]
    exact ⟨h, nofun⟩
  · intro rows given
    simp only [leaderParts, List.forall_mem_cons] at given
    exact given.1
  · simp only [leaderParts, List.forall_mem_cons]
    exact ⟨rfl, nofun⟩

def loggingParts : List (Part LoggingSection loggingForm) := [
  .setting "level" .text (some "info") LoggingSection.level rfl rfl,
  .setting "format" .text (some "text") LoggingSection.format rfl rfl]

theorem layout_logging :
    Layout loggingForm readLogging (some {}) (loggingParts.flatMap Part.settings) := by
  refine .of_parts loggingParts rfl covers_scalars (fun _ _ => rfl) ?_ ?_ ?_ (List.cons_ne_nil _ _)
  · intro rows s h
    simp only [Option.bind_eq_bind, Option.bind_eq_some_iff, Option.some.injEq] at h
    obtain ⟨level, h_level, format, h_format, rfl⟩ := h
    simp only [loggingParts, List.forall_mem_cons]
    exact ⟨h_level, h_format, nofun⟩
  · intro rows given
    simp only [loggingParts, List.forall_mem_cons] at given
    obtain ⟨level, format, -⟩ := given
    exact isSome_bind level fun _ => isSome_bind format fun _ => rfl
  · simp only [loggingParts, List.forall_mem_cons]
    exact ⟨rfl, rfl, nofun⟩

def observabilityParts : List (Part (Bool × Bool) observabilityForm) := [
  .setting "metrics" .flag (some true) Prod.fst rfl rfl,
  .setting "health_check" .flag (some true) Prod.snd rfl rfl]

theorem layout_observability :
    Layout observabilityForm readObservability (some (true, true))
      (observabilityParts.flatMap Part.settings) := by
  refine .of_parts observabilityParts rfl covers_scalars (fun _ _ => rfl) ?_ ?_ ?_
    (List.cons_ne_nil _ _)
  · intro rows s h
    simp only [Option.bind_eq_bind, Option.bind_eq_some_iff, Option.some.injEq] at h
    obtain ⟨metrics, h_metrics, health, h_health, rfl⟩ := h
    simp only [observabilityParts, List.forall_mem_cons]
    exact ⟨h_metrics, h_health, nofun⟩
  · intro rows given
    simp only [observabilityParts, List.forall_mem_cons] at given
    obtain ⟨metrics, health, -⟩ := given
    exact isSome_bind metrics fun _ => isSome_bind health fun _ => rfl
  · simp only [observabilityParts, List.forall_mem_cons]
    exact ⟨rfl, rfl, nofun⟩

/-! ## Sections around sections -/

def stockParts : List (Part (List (String × Int64)) stockForm) := [
  .setting "products" .products (some []) id rfl rfl]

/-- Of a product that is listed twice the last stock is kept as soon as the list is read. -/
theorem find?_products {form : Form} {get : List (String × Int64) → List (String × Int64)}
    {shaped : form.entry "products" = Kind.products.form} {known : form.knows "products" = true}
    (rows : Section) :
    (Part.setting "products" .products (some []) get shaped known).find? rows =
      (rows.setting "products" (Yaml.readMap Yaml.readInt64) []).bind
        fun products => some (lastOfEach products) := by
  simp only [Part.find?, Section.setting, Part.setting]
  cases rows.entries.lookup "products" with
  | none => rfl
  | some node => exact Option.map_eq_bind

theorem covers_stock (key : String) (known : stockForm.knows key = true) :
    key ∈ stockParts.map Part.key := by
  simp only [stockForm, Form.knows] at known
  split at known
  · exact List.mem_cons_self
  · cases known

theorem layout_stock :
    Layout stockForm readProducts (some []) (stockParts.flatMap Part.settings) := by
  refine .of_parts stockParts rfl covers_stock (fun _ _ => rfl) ?_ ?_ ?_ (List.cons_ne_nil _ _)
  · intro rows s h
    simp only [stockParts, List.forall_mem_cons]
    exact ⟨(find?_products rows).trans h, nofun⟩
  · intro rows given
    simp only [stockParts, List.forall_mem_cons] at given
    exact (congrArg Option.isSome (find?_products rows)).symm.trans given.1
  · simp only [stockParts, List.forall_mem_cons]
    exact ⟨rfl, nofun⟩

def logParts : List (Part LogSection logForm) := [
  .setting "engine" .text (some "sqlite") LogSection.engine rfl rfl,
  ⟨"sqlite", readDatabase, some (none, 4), fun s => (s.path?, s.readConnections), _, rfl,
    layout_database⟩]

theorem covers_log (key : String) (known : logForm.knows key = true) :
    key ∈ logParts.map Part.key := by
  simp only [logForm, Form.knows] at known
  split at known
  · simp [logParts, Part.setting]
  · simp [logParts]
  · cases known

theorem layout_log : Layout logForm readLog (some {}) (logParts.flatMap Part.settings) := by
  refine .of_parts logParts rfl covers_log (fun _ _ => rfl) ?_ ?_ ?_ (List.cons_ne_nil _ _)
  · intro rows s h
    simp only [Option.bind_eq_bind, Option.bind_eq_some_iff, Option.some.injEq] at h
    obtain ⟨engine, h_engine, database, h_database, rfl⟩ := h
    simp only [logParts, List.forall_mem_cons]
    exact ⟨h_engine, h_database, nofun⟩
  · intro rows given
    simp only [logParts, List.forall_mem_cons] at given
    obtain ⟨engine, database, -⟩ := given
    exact isSome_bind engine fun _ => isSome_bind database fun _ => rfl
  · simp only [logParts, List.forall_mem_cons]
    exact ⟨rfl, rfl, nofun⟩

def catalogParts : List (Part CatalogSection catalogForm) := [
  .setting "backend" .text (some "http") CatalogSection.backend rfl rfl,
  ⟨"http", readRemoteCatalog, some ("http://127.0.0.1:1765", 5000),
    fun s => (s.url, s.timeoutMillis), _, rfl, layout_remote⟩,
  ⟨"memory", readProducts, some [], CatalogSection.products, _, rfl, layout_stock⟩]

theorem covers_catalog (key : String) (known : catalogForm.knows key = true) :
    key ∈ catalogParts.map Part.key := by
  simp only [catalogForm, Form.knows] at known
  split at known
  · simp [catalogParts, Part.setting]
  · simp [catalogParts]
  · simp [catalogParts]
  · cases known

theorem layout_catalog :
    Layout catalogForm readCatalog (some {}) (catalogParts.flatMap Part.settings) := by
  refine .of_parts catalogParts rfl covers_catalog (fun _ _ => rfl) ?_ ?_ ?_ (List.cons_ne_nil _ _)
  · intro rows s h
    simp only [Option.bind_eq_bind, Option.bind_eq_some_iff, Option.some.injEq] at h
    obtain ⟨backend, h_backend, remote, h_remote, products, h_products, rfl⟩ := h
    simp only [catalogParts, List.forall_mem_cons]
    exact ⟨h_backend, h_remote, h_products, nofun⟩
  · intro rows given
    simp only [catalogParts, List.forall_mem_cons] at given
    obtain ⟨backend, remote, products, -⟩ := given
    exact isSome_bind backend fun _ => isSome_bind remote fun _ => isSome_bind products fun _ => rfl
  · simp only [catalogParts, List.forall_mem_cons]
    exact ⟨rfl, rfl, rfl, nofun⟩

end OrderCluster.Config
