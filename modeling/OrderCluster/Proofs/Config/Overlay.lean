import OrderCluster.Proofs.Config.Sections

/-!
# A configuration is laid over one set of defaults

A document gives some of the settings, in any order and beside anything else, and every other
setting has its default. There are two places at which a default can be taken, where a whole section
is missing and where a key of it is; they agree for each setting, so it never matters at which of
them it is missing, and a key can be taken out without a trace in any other setting.
-/

namespace OrderCluster.Config

open Yaml (Form Reader Section IsSection Edit child? at? readText readOptionalText readUInt16
  readUInt32 readUInt64 readInt64 readBool readList readMap readNamed)

variable {document node x y : Yaml.Node}

/-! ## Readers -/

theorem lastOfEach_sublist {α : Type} (listed : List (String × α)) :
    (lastOfEach listed).Sublist listed := by
  induction listed with
  | nil => exact .slnil
  | cons first rest ih =>
    rw [lastOfEach]
    split
    · exact ih.cons first
    · exact ih.cons_cons first

/-- No product is kept twice. -/
theorem nodup_lastOfEach {α : Type} (listed : List (String × α)) :
    ((lastOfEach listed).map Prod.fst).Nodup := by
  induction listed with
  | nil => exact List.nodup_nil
  | cons first rest ih =>
    rw [lastOfEach]
    split
    · exact ih
    · rename_i alone
      refine List.nodup_cons.mpr ⟨fun again => alone ?_, ih⟩
      obtain ⟨other, among, same⟩ := List.mem_map.mp again
      exact List.any_eq_true.mpr ⟨other, (lastOfEach_sublist rest).mem among, by simpa using same⟩

/-- A product that is listed elsewhere changes places with its neighbour. -/
theorem lastOfEach_swap {α : Type} {a b : String × α} (differs : a.1 ≠ b.1)
    (before after : List (String × α)) :
    (lastOfEach (before ++ a :: b :: after)).Perm (lastOfEach (before ++ b :: a :: after)) := by
  induction before with
  | nil =>
    simp only [List.nil_append, lastOfEach, List.any_cons, differs, differs.symm, decide_false,
      Bool.false_or]
    split <;> split
    · rfl
    · rfl
    · rfl
    · exact .swap b a _
  | cons first before ih =>
    simp only [List.cons_append, lastOfEach, List.any_append, List.any_cons,
      Bool.or_left_comm (decide (a.1 = first.1))]
    split
    · exact ih
    · exact ih.cons first

/-- Whatever is read of neighbours is read of them in turned order too. -/
theorem mapM_swap {α β : Type} {f : α → Option β} {before after : List α} {a b : α} {read : List β}
    (h : (before ++ a :: b :: after).mapM f = some read) :
    ∃ front c d back, read = front ++ c :: d :: back ∧ f a = some c ∧ f b = some d ∧
      (before ++ b :: a :: after).mapM f = some (front ++ d :: c :: back) := by
  simp only [List.mapM_append, List.mapM_cons, Option.bind_eq_bind, Option.bind_eq_some_iff,
    Option.pure_def, Option.some.injEq] at h
  obtain ⟨front, h_front, _, ⟨c, h_c, _, ⟨d, h_d, back, h_back, rfl⟩, rfl⟩, rfl⟩ := h
  refine ⟨front, c, d, back, rfl, h_c, h_d, ?_⟩
  simp [List.mapM_append, List.mapM_cons, h_front, h_c, h_d, h_back]

theorem readMap_swap {α : Type} {read : Reader α} {anchor : Option Nat}
    {before after : List (Yaml.Node × Yaml.Node)} {name other : Yaml.Node}
    {text other_text : String}
    (named : name.text? = some text) (other_named : other.text? = some other_text)
    (differs : text ≠ other_text) {listed : List (String × α)}
    (h : readMap read document (.mapping anchor (before ++ (name, x) :: (other, y) :: after)) =
      some listed) :
    ∃ turned, readMap read document (.mapping anchor (before ++ (other, y) :: (name, x) :: after)) =
      some turned ∧ (lastOfEach listed).Perm (lastOfEach turned) := by
  have key : readText document name = some text :=
    ((Yaml.Node.IsTree.of_text? named).readText document).trans named
  have other_key : readText document other = some other_text :=
    ((Yaml.Node.IsTree.of_text? other_named).readText document).trans other_named
  simp only [readMap, readNamed, Yaml.Node.resolve?, Yaml.Node.entries?, Option.bind_eq_bind,
    Option.bind_some] at h ⊢
  obtain ⟨rows, h_rows, h_listed⟩ := Option.bind_eq_some_iff.mp h
  obtain ⟨front, row, other_row, back, rfl, h_row, h_other_row, h_turned⟩ := mapM_swap h_rows
  obtain ⟨front, a, b, back, rfl, h_a, h_b, h_values⟩ := mapM_swap h_listed
  simp only [key, Option.bind_some, Option.some.injEq] at h_row
  simp only [other_key, Option.bind_some, Option.some.injEq] at h_other_row
  subst h_row h_other_row
  obtain ⟨_, -, same⟩ := Option.bind_eq_some_iff.mp h_a
  obtain ⟨_, -, other_same⟩ := Option.bind_eq_some_iff.mp h_b
  obtain rfl := Option.some.inj same
  obtain rfl := Option.some.inj other_same
  rw [h_turned]
  exact ⟨_, h_values, lastOfEach_swap differs front back⟩

theorem readMap_edited {α : Type} {read : Reader α} {value : Form} (edit : Edit (.map value) x y) :
    Option.Rel List.Perm ((readMap read document x).map lastOfEach)
      ((readMap read document y).map lastOfEach) := by
  generalize same : Form.map value = form at edit
  induction edit with
  | refl => exact Yaml.rel_refl List.Perm.refl
  | symm _ ih => exact Yaml.rel_symm List.Perm.symm (ih same)
  | trans _ _ ih_first ih_second =>
    exact Yaml.rel_trans List.Perm.trans (ih_first same) (ih_second same)
  | order | stranger | blank | entry | item => cases same
  | @swap _ anchor before after name other x y text other_text named other_named differs =>
    cases listed : readMap read document
        (.mapping anchor (before ++ (name, x) :: (other, y) :: after)) with
    | some rows =>
      obtain ⟨turned, read_turned, perm⟩ := readMap_swap named other_named differs listed
      rw [read_turned]
      exact .some perm
    | none =>
      cases back : readMap read document
          (.mapping anchor (before ++ (other, y) :: (name, x) :: after)) with
      | none => exact .none
      | some rows =>
        obtain ⟨_, read_back, -⟩ := readMap_swap other_named named differs.symm back
        simp [listed] at read_back

/-- Single settings are read from their scalar alone. -/
theorem Kind.Steady.of_scalar {kind : Kind} (scalar : kind.form = .scalar)
    (moved : ∀ {node : Yaml.Node}, node.IsTree → ∀ document other,
      kind.read document node = kind.read other node) : kind.Steady where
  edited edit := by
    rw [scalar] at edit
    rw [edit.eq_of_scalar]
    exact Yaml.rel_refl kind.same_refl
  moved := moved

theorem steady_products : Kind.products.Steady where
  edited edit := readMap_edited edit
  moved {node} tree document other := by
    have rows : readNamed document node = readNamed other node := by
      rw [tree.readNamed, tree.readNamed]
    have values : readMap readInt64 document node = readMap readInt64 other node := by
      simp only [readMap, rows, Option.bind_eq_bind]
      refine Option.bind_congr fun listed h => Yaml.mapM_congr_mem fun row among => ?_
      have part := tree.of_mem_readNamed h among
      simp [readInt64, part.resolve?]
    simp only [Kind.read, values]

/-- The settings of a listed node, none of which has a default. -/
def peerSettings : List (Setting Peer) := [
  ⟨["id"], .uint32, none, Peer.id⟩,
  ⟨["host"], .text, none, fun p => p.address.host⟩,
  ⟨["port"], .uint16, none, fun p => p.address.port⟩]

theorem layout_peerSettings : Layout peerForm readPeer none peerSettings := layout_peer

theorem steady_text : Kind.text.Steady :=
  .of_scalar rfl fun tree _ _ => by simp [Kind.read, readText, tree.resolve?]

theorem steady_uint16 : Kind.uint16.Steady :=
  .of_scalar rfl fun tree _ _ => by simp [Kind.read, readUInt16, Yaml.readNat, tree.resolve?]

theorem steady_uint32 : Kind.uint32.Steady :=
  .of_scalar rfl fun tree _ _ => by simp [Kind.read, readUInt32, Yaml.readNat, tree.resolve?]

theorem steady_peerSettings : ∀ v ∈ peerSettings, v.kind.Steady := by
  simp [peerSettings, steady_text, steady_uint16, steady_uint32]

theorem shaped_peerSettings : ∀ v ∈ peerSettings, peerForm.at v.path = v.kind.form := by
  simp only [peerSettings, List.forall_mem_cons]
  exact ⟨rfl, rfl, rfl, List.forall_mem_nil _⟩

theorem eq_of_peerSettings {p q : Peer}
    (same : ∀ v ∈ peerSettings, v.kind.Same (v.get p) (v.get q)) :
    p = q := by
  obtain ⟨id, host, port⟩ := p
  obtain ⟨other_id, other_host, other_port⟩ := q
  simpa [peerSettings, Kind.Same] using same

theorem readPeer_of_edit (edit : Edit peerForm x y) {p : Peer} (h : readPeer document x = some p) :
    readPeer document y = some p := by
  obtain ⟨q, read, same⟩ :=
    layout_peerSettings.edited steady_peerSettings shaped_peerSettings edit h
  rwa [eq_of_peerSettings same]

theorem readPeer_of_isTree (tree : node.IsTree) (other : Yaml.Node) {p : Peer}
    (h : readPeer document node = some p) : readPeer other node = some p := by
  obtain ⟨q, read, same⟩ := layout_peerSettings.moved steady_peerSettings tree other h
  have alike : ∀ v ∈ peerSettings, v.kind.Same (v.get p) (v.get q) := by
    intro v among
    rw [same v among]
    exact v.kind.same_refl _
  rwa [eq_of_peerSettings alike]

theorem steady_peers : Kind.peers.Steady where
  edited {document x y} edit := by
    have same : ∀ x y, Edit peerForm x y → readPeer document x = readPeer document y :=
      fun x y edit => Option.ext fun p => ⟨readPeer_of_edit edit, readPeer_of_edit edit.symm⟩
    rw [Kind.read, Edit.readList same edit]
    exact Yaml.rel_refl Kind.peers.same_refl
  moved {node} tree document other := by
    simp only [Kind.read, readList, tree.resolve?, Option.bind_eq_bind, Option.bind_some]
    refine Option.bind_congr fun items listed => Yaml.mapM_congr_mem fun part among => ?_
    have part_tree := tree.of_mem_items listed among
    exact Option.ext fun p =>
      ⟨readPeer_of_isTree part_tree other, readPeer_of_isTree part_tree document⟩

theorem Kind.steady : (kind : Kind) → kind.Steady
  | .text => steady_text
  | .uint16 => steady_uint16
  | .uint32 => steady_uint32
  | .optionalText =>
    .of_scalar rfl fun tree _ _ => by simp [Kind.read, readOptionalText, tree.resolve?]
  | .uint64 =>
    .of_scalar rfl fun tree _ _ => by simp [Kind.read, readUInt64, Yaml.readNat, tree.resolve?]
  | .flag => .of_scalar rfl fun tree _ _ => by simp [Kind.read, readBool, tree.resolve?]
  | .peers => steady_peers
  | .products => steady_products

/-! ## All settings -/

def parts : List (Part Config form) := [
  ⟨"server", readServer, some {}, Config.server, _, rfl, layout_server⟩,
  ⟨"node", readNode, some 1, Config.nodeId, _, rfl, layout_node⟩,
  .setting "peers" .peers (some []) Config.peers rfl rfl,
  ⟨"order_log", readLog, some {}, Config.log, _, rfl, layout_log⟩,
  ⟨"catalog", readCatalog, some {}, Config.catalog, _, rfl, layout_catalog⟩,
  ⟨"replication", readReplication, some {}, Config.replication, _, rfl, layout_replication⟩,
  ⟨"leader", readLeader, some false, Config.strictBuy, _, rfl, layout_leader⟩,
  ⟨"logging", readLogging, some {}, Config.logging, _, rfl, layout_logging⟩,
  ⟨"observability", readObservability, some (true, true), fun c => (c.metricsPage, c.awaitsSync), _,
    rfl, layout_observability⟩]

theorem covers_parts (key : String) (known : form.knows key = true) : key ∈ parts.map Part.key := by
  simp only [form, Form.knows] at known
  split at known
  all_goals first | (simp [parts, Part.setting]; done) | cases known

theorem layout_parts : Layout form read (some {}) (parts.flatMap Part.settings) := by
  refine .of_parts parts rfl covers_parts (fun _ _ => rfl) ?_ ?_ ?_ (List.cons_ne_nil _ _)
  · intro rows s h
    simp only [Option.bind_eq_bind, Option.bind_eq_some_iff, Option.some.injEq] at h
    obtain ⟨shown, h_shown, server, h_server, id, h_id, peers, h_peers, log, h_log, catalog,
      h_catalog, replication, h_replication, strict, h_strict, logging, h_logging, rfl⟩ := h
    simp only [parts, List.forall_mem_cons]
    exact ⟨h_server, h_id, h_peers, h_log, h_catalog, h_replication, h_strict, h_logging, h_shown,
      List.forall_mem_nil _⟩
  · intro rows given
    simp only [parts, List.forall_mem_cons] at given
    obtain ⟨server, id, peers, log, catalog, replication, strict, logging, shown, -⟩ := given
    exact isSome_bind shown fun _ => isSome_bind server fun _ => isSome_bind id fun _ =>
      isSome_bind peers fun _ => isSome_bind log fun _ => isSome_bind catalog fun _ =>
      isSome_bind replication fun _ => isSome_bind strict fun _ => isSome_bind logging fun _ => rfl
  · simp only [parts, List.forall_mem_cons]
    exact ⟨rfl, rfl, rfl, rfl, rfl, rfl, rfl, rfl, rfl, List.forall_mem_nil _⟩

/-- Every setting of a configuration, with its place in a document and its default. -/
def allSettings : List (Setting Config) := [
  ⟨["server", "host"], .text, some "0.0.0.0", (·.server.host)⟩,
  ⟨["server", "port"], .uint16, some 1766, (·.server.port)⟩,
  ⟨["server", "shutdown_timeout"], .uint64, some 30, (·.server.shutdownSeconds)⟩,
  ⟨["server", "max_concurrent_requests"], .uint64, some 50, (·.server.maxConcurrent)⟩,
  ⟨["node", "id"], .uint32, some 1, (·.nodeId)⟩,
  ⟨["peers"], .peers, some [], (·.peers)⟩,
  ⟨["order_log", "engine"], .text, some "sqlite", (·.log.engine)⟩,
  ⟨["order_log", "sqlite", "path"], .optionalText, some none, (·.log.path?)⟩,
  ⟨["order_log", "sqlite", "read_connections"], .uint64, some 4, (·.log.readConnections)⟩,
  ⟨["catalog", "backend"], .text, some "http", (·.catalog.backend)⟩,
  ⟨["catalog", "http", "url"], .text, some "http://127.0.0.1:1765", (·.catalog.url)⟩,
  ⟨["catalog", "http", "timeout_ms"], .uint64, some 5000, (·.catalog.timeoutMillis)⟩,
  ⟨["catalog", "memory", "products"], .products, some [], (·.catalog.products)⟩,
  ⟨["replication", "rpc_timeout_ms"], .uint64, some 5000, (·.replication.rpcMillis)⟩,
  ⟨["replication", "health_timeout_ms"], .uint64, some 1000, (·.replication.healthMillis)⟩,
  ⟨["replication", "max_parallel_rpcs"], .uint64, some 16, (·.replication.maxParallel)⟩,
  ⟨["replication", "bootstrap_sync"], .flag, some true, (·.replication.syncsAtStart)⟩,
  ⟨["leader", "strict_buy"], .flag, some false, (·.strictBuy)⟩,
  ⟨["logging", "level"], .text, some "info", (·.logging.level)⟩,
  ⟨["logging", "format"], .text, some "text", (·.logging.format)⟩,
  ⟨["observability", "metrics"], .flag, some true, (·.metricsPage)⟩,
  ⟨["observability", "health_check"], .flag, some true, (·.awaitsSync)⟩]

theorem layout : Layout form read (some {}) allSettings := layout_parts

theorem shaped_allSettings : ∀ v ∈ allSettings, form.at v.path = v.kind.form := by
  simp only [allSettings, List.forall_mem_cons]
  repeat' constructor
  exact List.forall_mem_nil _

/-- Settings are what a configuration is made of. -/
theorem eq_of_allSettings {c c' : Config} (same : ∀ v ∈ allSettings, v.get c = v.get c') :
    c = c' := by
  simp only [allSettings, List.forall_mem_cons] at same
  grind [Config, ServerSection, LogSection, CatalogSection, ReplicationSection, LoggingSection]

/-- No setting stands below another. -/
theorem apart_allSettings :
    ∀ v ∈ allSettings, ∀ w ∈ allSettings, v.path <+: w.path → v.path = w.path := by
  have paths : ∀ p ∈ allSettings.map Setting.path, ∀ q ∈ allSettings.map Setting.path,
      p <+: q → p = q := by
    decide +kernel
  exact fun v among w listed => paths _ (List.mem_map_of_mem among) _ (List.mem_map_of_mem listed)

theorem paths_ne_nil : ∀ v ∈ allSettings, v.path ≠ [] := by
  decide +kernel

theorem optional_allSettings : ∀ v ∈ allSettings, v.default?.isSome := by
  decide +kernel

theorem nodup_products {c : Config} (h : read document node = some c) :
    (c.catalog.products.map Prod.fst).Nodup := by
  have shown := (layout.shows h).2 ⟨["catalog", "memory", "products"], .products, some [],
    (·.catalog.products)⟩ (by simp [allSettings])
  simp only [Setting.value?] at shown
  split at shown
  · rw [← Option.some.inj shown]
    exact List.nodup_nil
  · obtain ⟨listed, -, last⟩ := Option.map_eq_some_iff.mp shown
    exact last ▸ nodup_lastOfEach listed

/-! ## Documents -/

/-- The configuration that a document stands for, unless its reader has to follow too many
aliases. -/
def load (document : Yaml.Node) : Option Config :=
  if form.isOvergrown document then none else read document document

theorem load_of_isTree (tree : document.IsTree) : load document = read document document := by
  rw [load, tree.not_isOvergrown]
  rfl

/-- Configurations with the same settings and the same stock of each product, in whichever order. -/
structure Alike (c c' : Config) : Prop where
  same : c' = { c with catalog := { c.catalog with products := c'.catalog.products } }
  products : c.catalog.products.Perm c'.catalog.products
  once : (c.catalog.products.map Prod.fst).Nodup

/-- What the configuration of a document has to do with the document. -/
structure Overlay (document : Yaml.Node) (c : Config) : Prop where
  /-- It is the configuration of every text that holds the document. -/
  text : ∀ text, (Yaml.Node.ofText? text).map (·.getD .empty) = some document →
    ofText? text = some c
  /-- A setting that is given has the value that stands at its place. -/
  given : ∀ v ∈ allSettings, ∀ part, at? document v.path (some document) = some part →
    v.kind.read document part = some (v.get c)
  /-- A setting that is not given has its one default, whether it is its section that is missing or
  one around it, and whatever else there is of them. -/
  absent : ∀ v ∈ allSettings, at? document v.path (some document) = none →
    v.default? = some (v.get c)
  /-- The same default stands in a configuration to which no document has given anything. -/
  default : ∀ v ∈ allSettings, v.default? = some (v.get ({} : Config))
  /-- There is nothing in a configuration but its settings. -/
  determined : ∀ c' : Config, (∀ v ∈ allSettings, v.get c = v.get c') → c = c'
  /-- Neither the order of sections and keys nor any unknown key matters. -/
  edited : document.IsTree → ∀ other, Edit form document other →
    ∃ c', load other = some c' ∧ c.Alike c'
  /-- Where the key of a setting is taken out, only that setting changes, to its default. -/
  removed : document.IsTree → ∀ v ∈ allSettings, ∃ rest c', document.cut v.path = some rest ∧
    load rest = some c' ∧ v.default? = some (v.get c') ∧
    ∀ w ∈ allSettings, w.path ≠ v.path → w.get c' = w.get c

theorem ofText?_eq {text : String}
    (h : (Yaml.Node.ofText? text).map (·.getD .empty) = some document) :
    ofText? text = load document := by
  obtain ⟨document?, read, rfl⟩ := Option.map_eq_some_iff.mp h
  rw [ofText?, read]
  rfl

theorem read_of_isTree (tree : node.IsTree) (other : Yaml.Node) {c : Config}
    (h : read document node = some c) : read other node = some c := by
  obtain ⟨c', moved, same⟩ := layout.moved (fun v _ => v.kind.steady) tree other h
  rwa [← eq_of_allSettings same]

theorem alike_of_edit {c : Config} (tree : document.IsTree) (h : load document = some c)
    {other : Yaml.Node} (edit : Edit form document other) :
    ∃ c', load other = some c' ∧ c.Alike c' := by
  rw [load_of_isTree tree] at h
  have tree_other := edit.isTree_iff.mp tree
  obtain ⟨c', read_other, same⟩ :=
    layout.edited (fun v _ => v.kind.steady) shaped_allSettings edit h
  refine ⟨c', ?_, ?_, ?_, nodup_products h⟩
  · rw [load_of_isTree tree_other]
    exact read_of_isTree tree_other other read_other
  · apply eq_of_allSettings
    simp only [allSettings, List.forall_mem_cons, Kind.Same] at same ⊢
    grind
  · exact same ⟨["catalog", "memory", "products"], .products, some [],
      (·.catalog.products)⟩ (by simp [allSettings])

theorem exists_load_cut {c : Config} (tree : document.IsTree) (h : load document = some c)
    {v : Setting Config} (among : v ∈ allSettings) :
    ∃ rest c', document.cut v.path = some rest ∧ load rest = some c' ∧
      v.default? = some (v.get c') ∧
      ∀ w ∈ allSettings, w.path ≠ v.path → w.get c' = w.get c := by
  rw [load_of_isTree tree] at h
  obtain ⟨key, path, named⟩ := List.exists_cons_of_ne_nil (paths_ne_nil v among)
  obtain ⟨rest, left⟩ := document.exists_cut key path
  rw [← named] at left
  have tree_rest := tree.cut left
  obtain ⟨c', read_rest, own, others⟩ :=
    layout.cut tree optional_allSettings apart_allSettings among left h
  refine ⟨rest, c', left, ?_, own.symm, others⟩
  rw [load_of_isTree tree_rest]
  exact read_of_isTree tree_rest rest read_rest

/-- Whatever document is loaded, its configuration is the defaults with what the document gives laid
over them. -/
theorem overlay_of_load {c : Config} (h : load document = some c) : Overlay document c := by
  have read_document : read document document = some c := by
    rw [load] at h
    split at h
    · cases h
    · exact h
  have shown := (layout.shows read_document).2
  refine ⟨fun text holds => (ofText?_eq holds).trans h, fun v among part there => ?_,
    fun v among missing => ?_, layout.defaults, fun c' => eq_of_allSettings,
    fun tree other => alike_of_edit tree h,
    fun tree v => exists_load_cut tree h⟩
  · simpa only [Setting.value?, there] using shown v among
  · simpa only [Setting.value?, missing] using shown v among

/-- A document with a setting three sections deep, a product that is listed twice, a peer, an empty
section and an unknown key. -/
def sampleDocument : Yaml.Node :=
  let plain (text : String) : Yaml.Node := .scalar none none .plain text
  .mapping none [
    (plain "catalog",
      .mapping none [
        (plain "http", .mapping none [(plain "timeout_ms", plain "250")]),
        (plain "memory",
          .mapping none [
            (plain "products",
              .mapping none [
                (plain "ant", plain "3"), (plain "bee", plain "1"), (plain "ant", plain "5")])])]),
    (plain "server", .empty),
    (plain "peers",
      .sequence none [
        .mapping none [
          (plain "port", plain "1767"), (plain "id", plain "2"), (plain "host", plain "beta")]]),
    (plain "region", plain "west")]

/-- What the sample document stands for. -/
def sample : Config where
  peers := [⟨2, ⟨"beta", 1767⟩⟩]
  catalog := { timeoutMillis := 250, products := [("bee", 1), ("ant", 5)] }

theorem overlay_of_load_sampleDocument :
    sampleDocument.IsTree ∧ load sampleDocument = some sample ∧ Overlay sampleDocument sample := by
  have tree : sampleDocument.IsTree := by
    simp [sampleDocument, Yaml.Node.isTree_mapping_iff, Yaml.Node.isTree_sequence_iff,
      Yaml.Node.IsTree.scalar, Yaml.Node.empty]
  have loaded : load sampleDocument = some sample := by decide +kernel
  exact ⟨tree, loaded, overlay_of_load loaded⟩

end OrderCluster.Config
