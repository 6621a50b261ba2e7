import OrderCluster.CommandLine
import OrderCluster.Config.Setup
import OrderCluster.Proofs.Coordinator.Walk
import OrderCluster.Proofs.Registry.History
import OrderCluster.Proofs.Replication.Foreseen

/-!
# What a list of nodes stands for

The nodes of a cluster are listed by hand, in any order, and an id may be listed more than once. The
coordinator walks each id once, downwards, at the entry that was listed first; a registry holds each
id once, upwards, with the entry that was listed last. So a list that names no id twice stands for
the same nodes on both sides, and in whichever order it is written, nothing that the coordinator or a
node does comes out differently.
-/

namespace OrderCluster

open Coordinator (walk Descending)
open Registry (ofMembers lastListed?)

/-! ## The first entry of each id -/

namespace Coordinator

/-- Entries with one id are walked in the order in which they are listed. -/
theorem filter_sorted (listed : List Member) (id : NodeId) :
    (listed.mergeSort fun a b => b.id ≤ a.id).filter (·.id = id) = listed.filter (·.id = id) := by
  apply filter_mergeSort
  · exact fun a b c lower lowest => key_le_trans Member.id c b a lowest lower
  · exact fun a b => key_le_total Member.id b a
  · intro a b named_a named_b
    simp only [decide_eq_true_eq] at named_a named_b
    simp [named_a, named_b]

/-- Only entries that repeat an id are left out. -/
theorem find?_go {id other : NodeId} (differs : other ≠ id) (listed : List Member) :
    (distinct.go id listed).find? (·.id = other) = listed.find? (·.id = other) := by
  induction listed generalizing id with
  | nil => rfl
  | cons first rest ih =>
    rw [distinct.go]
    split
    · rename_i same
      have passed : first.id ≠ other := fun named => differs (named.symm.trans same)
      simpa [passed] using ih differs
    · by_cases named : first.id = other
      · simp [named]
      · simpa [named] using ih (Ne.symm named)

/-- Of the entries with one id the coordinator keeps the first. -/
theorem find?_walk (listed : List Member) (id : NodeId) :
    (walk listed).find? (·.id = id) = listed.find? (·.id = id) := by
  have sorted : (listed.mergeSort fun a b => b.id ≤ a.id).find? (·.id = id) =
      listed.find? (·.id = id) := by
    rw [← List.head?_filter, filter_sorted, List.head?_filter]
  rw [← sorted, walk]
  cases listed.mergeSort fun a b => b.id ≤ a.id with
  | nil => rfl
  | cons first rest =>
    by_cases named : first.id = id
    · simp [distinct, named]
    · simpa [distinct, named] using find?_go (Ne.symm named) rest

end Coordinator

/-! ## Lists that name no id twice -/

section Distinct

variable {listed : List Member}

/-- Where no id is listed twice, whoever keeps an entry of each listed id keeps all of them. -/
theorem mem_iff_of_covers {kept : List Member} (distinct : (listed.map Member.id).Nodup)
    (only : ∀ m ∈ kept, m ∈ listed) (covers : ∀ m ∈ listed, ∃ k ∈ kept, k.id = m.id) (m : Member) :
    m ∈ kept ↔ m ∈ listed := by
  constructor
  · exact only m
  · intro entry
    obtain ⟨k, among, named⟩ := covers m entry
    rwa [← List.inj_on_of_nodup_map distinct (only k among) entry named]

theorem mem_walk_iff (distinct : (listed.map Member.id).Nodup) (m : Member) :
    m ∈ walk listed ↔ m ∈ listed :=
  mem_iff_of_covers distinct (fun _ => Coordinator.mem_walk) (fun _ => Coordinator.walk_covers) m

theorem mem_members_iff (selfId : NodeId) (distinct : (listed.map Member.id).Nodup) (m : Member) :
    m ∈ (ofMembers selfId listed).members ↔ m ∈ listed :=
  mem_iff_of_covers distinct (fun _ => Registry.mem_listed_of_mem)
    (fun m entry => (Registry.known_ofMembers selfId listed m.id).mpr ⟨m, entry, rfl⟩) m

variable {others : List Member}

theorem walk_perm (distinct : (listed.map Member.id).Nodup) (perm : listed.Perm others) :
    walk listed = walk others := by
  have distinct_too := (perm.map Member.id).nodup_iff.mp distinct
  refine eq_of_strict (R := fun a b : Member => b.id < a.id) ?_
    (Coordinator.descending_walk listed) (Coordinator.descending_walk others) fun m => ?_
  · exact fun a b lower higher => UInt32.lt_irrefl _ (UInt32.lt_trans lower higher)
  · rw [mem_walk_iff distinct, mem_walk_iff distinct_too, perm.mem_iff]

theorem ofMembers_perm (selfId : NodeId) (distinct : (listed.map Member.id).Nodup)
    (perm : listed.Perm others) : ofMembers selfId listed = ofMembers selfId others := by
  have distinct_too := (perm.map Member.id).nodup_iff.mp distinct
  have members : Registry.canonical listed = Registry.canonical others := by
    refine eq_of_strict (R := fun a b : Member => a.id < b.id) ?_
      (Registry.ordered_ofMembers selfId listed) (Registry.ordered_ofMembers selfId others) fun m => ?_
    · exact fun a b lower higher => UInt32.lt_irrefl _ (UInt32.lt_trans lower higher)
    · exact (mem_members_iff selfId distinct m).trans
        (perm.mem_iff.trans (mem_members_iff selfId distinct_too m).symm)
  rw [ofMembers, ofMembers, members]

end Distinct

/-! ## Lists of nodes -/

/-- A node among its peers whose registry is made from a list. -/
def Replication.Site.listing {κ σ : Type} (s : Replication.Site κ σ) (selfId : NodeId)
    (listed : List Member) : Replication.Site κ σ :=
  { s with desk := { s.desk with node := { s.desk.node with registry := ofMembers selfId listed } } }

/-- Two lists that stand for the same cluster: whatever a coordinator believes, and whatever peers,
catalog and log there are, elections, requests, syncs and pushes come out alike. -/
structure Interchangeable (selfId : NodeId) (listed others : List Member) : Prop where
  walked : walk listed = walk others
  held : ofMembers selfId listed = ofMembers selfId others
  election : ∀ {σ : Type} [Peers σ] (peers : σ) (health rpc : Nat) (believed stale : Option NodeId),
    ({ Coordinator.ofMembers listed health rpc with leader := believed }.elect stale).run
        Question.perform peers =
      ({ Coordinator.ofMembers others health rpc with leader := believed }.elect stale).run
        Question.perform peers
  request : ∀ {σ : Type} [Peers σ] (peers : σ) (health rpc : Nat) (believed : Option NodeId)
      (method : Method) (request : method.Request),
    ({ Coordinator.ofMembers listed health rpc with leader := believed }.route method request).run
        Question.perform peers =
      ({ Coordinator.ofMembers others health rpc with leader := believed }.route method request).run
        Question.perform peers
  sync : ∀ {κ σ : Type} [Catalog κ] [Peers σ] (s : Replication.Site κ σ),
    (s.listing selfId listed).sync = (s.listing selfId others).sync
  push : ∀ {κ σ : Type} [Catalog κ] [Peers σ] (s : Replication.Site κ σ) (order : Order),
    (s.listing selfId listed).fanOut order = (s.listing selfId others).fanOut order

/-- Peers in another order with which a configuration sets up the same server and the same
coordinator. -/
structure Config.Reordered (c : Config) (peers : List Peer) : Prop where
  cluster : Interchangeable c.nodeId c.members { c with peers }.members
  server : ∀ (log : OrderLog) (catalog : CatalogChoice),
    { c with peers }.openServer log catalog = c.openServer log catalog
  command : ∀ (command : CommandLine.Command) (health rpc : Nat),
    command.run (.ofMembers { c with peers }.members health rpc) =
      command.run (.ofMembers c.members health rpc)

/-- What the coordinator and a node make of a list. -/
structure Canonical (selfId : NodeId) (listed : List Member) : Prop where
  descending : Descending (walk listed)
  /-- Each listed id is walked once, at its first entry. -/
  first : ∀ id, (walk listed).filter (·.id = id) = (listed.find? (·.id = id)).toList
  ascending : (ofMembers selfId listed).Ordered
  /-- Each listed id is held once, with its last entry. -/
  last : ∀ id,
    (ofMembers selfId listed).members.filter (·.id = id) = (lastListed? id listed).toList
  same : (listed.map Member.id).Nodup → ∀ m,
    (m ∈ walk listed ↔ m ∈ listed) ∧ (m ∈ (ofMembers selfId listed).members ↔ m ∈ listed)
  /-- The order of a list that names no id twice does not matter. -/
  anyhow : (listed.map Member.id).Nodup → ∀ others, listed.Perm others →
    Interchangeable selfId listed others
  configured : (listed.map Member.id).Nodup → ∀ c : Config, c.members = listed →
    ∀ peers, c.peers.Perm peers → c.Reordered peers

theorem interchangeable_of_perm {selfId : NodeId} {listed others : List Member}
    (distinct : (listed.map Member.id).Nodup) (perm : listed.Perm others) :
    Interchangeable selfId listed others := by
  have walked := walk_perm distinct perm
  have held := ofMembers_perm selfId distinct perm
  have coordinator : ∀ health rpc, Coordinator.ofMembers listed health rpc =
      Coordinator.ofMembers others health rpc := by
    intro health rpc
    rw [Coordinator.ofMembers, walked, Coordinator.ofMembers]
  have node : ∀ {κ σ : Type} (s : Replication.Site κ σ),
      s.listing selfId listed = s.listing selfId others := by
    intro κ σ s
    rw [Replication.Site.listing, held, Replication.Site.listing]
  refine ⟨walked, held, ?_, ?_, ?_, ?_⟩
  · intro σ _ peers health rpc believed stale
    rw [coordinator]
  · intro σ _ peers health rpc believed method request
    rw [coordinator]
  · intro κ σ _ _ s
    rw [node]
  · intro κ σ _ _ s order
    rw [node]

theorem reordered_of_perm {c : Config} {peers : List Peer}
    (distinct : (c.members.map Member.id).Nodup) (perm : c.peers.Perm peers) :
    c.Reordered peers := by
  have members : c.members.Perm { c with peers }.members := perm.map Peer.member
  have cluster : Interchangeable c.nodeId c.members { c with peers }.members :=
    interchangeable_of_perm distinct members
  refine ⟨cluster, fun log catalog => ?_, fun command health rpc => ?_⟩
  · rw [Config.openServer, Config.openServer, cluster.held]
    rfl
  · rw [Coordinator.ofMembers, Coordinator.ofMembers, cluster.walked]

/-- Whatever is listed, in any order and however often, the coordinator and a node each make one
canonical list of it. -/
theorem canonical_listed (selfId : NodeId) (listed : List Member) : Canonical selfId listed := by
  have descending := Coordinator.descending_walk listed
  have ordered := Registry.ordered_ofMembers selfId listed
  refine ⟨descending, fun id => ?_, ordered, fun id => ?_, fun distinct m => ?_,
    fun distinct others perm => interchangeable_of_perm distinct perm, ?_⟩
  · rw [← Coordinator.find?_walk]
    refine Replication.filter_eq_toList_find? (descending.imp ?_)
    intro a b lower named
    simp only [decide_eq_true_eq] at named
    simpa [← named] using UInt32.ne_of_lt lower
  · rw [← Registry.find?_ofMembers selfId]
    refine Replication.filter_eq_toList_find? (List.Pairwise.imp ?_ ordered)
    intro a b higher named
    simp only [decide_eq_true_eq] at named
    simpa [← named] using (UInt32.ne_of_lt higher).symm
  · exact ⟨mem_walk_iff distinct m, mem_members_iff selfId distinct m⟩
  · rintro distinct c rfl peers perm
    exact reordered_of_perm distinct perm

end OrderCluster
