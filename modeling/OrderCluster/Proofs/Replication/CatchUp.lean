import Mathlib.Data.List.Nodup
import OrderCluster.Proofs.Replication.Union

/-!
# What a sync recovers

A sync asks only for orders above the greatest number that the node holds. So when every peer
answers in time with what it was asked for, the node recovers every order of every peer above that
number, and no other: an order that the node missed before it stored a later one stays missing, as
does, while its log is empty, an order whose number is not positive.
-/

namespace OrderCluster.Replication

variable {κ σ : Type} [Catalog κ] [Peers σ]

/-- Where some peer sent an order under a number, one of those orders is the first of it. -/
theorem exists_first {answers : List (NodeId × List Order)} (distinct : (answers.map Prod.fst).Nodup)
    {peer : NodeId} {sent : List Order} (answered : (peer, sent) ∈ answers) {order : Order}
    (among : order ∈ sent) : ∃ first, First answers order.number first := by
  have read : order ∈ readingOrder answers := mem_readingOrder_iff.mpr ⟨_, answered, among⟩
  have found : ((readingOrder answers).find? fun other => other.number = order.number).isSome :=
    List.find?_isSome.mpr ⟨order, read, by simp⟩
  obtain ⟨first, eq⟩ := Option.isSome_iff_exists.mp found
  exact ⟨first, (find?_readingOrder_iff distinct).mp eq⟩

omit [Catalog κ] [Peers σ] in
/-- Every answer stems from an active peer, and no peer has two answers. -/
theorem Asked.answerers {s : Site κ σ} {ended : List Ended} {called : Site κ (Noted σ)}
    (asked : Asked s ended called) (ordered : s.desk.node.registry.Ordered) :
    (called.lanes.peers.answers.map Prod.fst).Nodup ∧
      ∀ answer ∈ called.lanes.peers.answers,
        ∃ m ∈ s.desk.node.registry.activePeers, m.id = answer.1 := by
  have among := Sync.answers_sublist ended
  rw [asked.answers] at among
  have distinct : (ended.map Prod.fst).Nodup :=
    asked.everyone.nodup_iff.mpr (distinct_activePeers ordered)
  refine ⟨distinct.sublist among, fun answer answered => ?_⟩
  have named := asked.everyone.mem_iff.mp (among.subset (List.mem_map_of_mem answered))
  exact List.mem_map.mp named

/-- When every peer answers in time with what it holds above the number asked, a sync recovers what
the peers hold above the greatest number that the node held, and nothing else. -/
theorem Site.recovers_sync {s : Site κ σ} (quiet : s.Quiet)
    (ordered : s.desk.node.registry.Ordered)
    (works : ∀ call, s.desk.node.storage.outage call = none)
    (holdings : NodeId → OrderLog) (keyed : ∀ id, (holdings id).Keyed)
    (answered : ∀ m ∈ s.desk.node.registry.activePeers,
      (m.id, (holdings m.id).after s.desk.node.storage.log.maxNumber) ∈
        s.noted.sync.2.lanes.peers.answers) (n : OrderNumber) :
    (s.noted.sync.2.desk.node.storage.log.get? n).isSome ↔
      (s.desk.node.storage.log.get? n).isSome ∨
        s.desk.node.storage.log.maxNumber < n ∧
          ∃ m ∈ s.desk.node.registry.activePeers, ((holdings m.id).get? n).isSome := by
  rcases asked_sync quiet ordered with ⟨ended, called, report, d', asked, reported, eq⟩ |
    ⟨call, cause, outage, _⟩
  · have held := (asked.unites ordered reported eq).held n
    obtain ⟨distinct, answerers⟩ := asked.answerers ordered
    rw [eq] at answered ⊢
    simp only [Option.isSome_iff_exists, held]
    constructor
    · rintro ⟨order, old | ⟨_, rfl, peer, front, back, sent, _⟩⟩
      · exact Or.inl ⟨order, old⟩
      · obtain ⟨m, called_upon, rfl⟩ := answerers _ sent
        have same : front ++ order :: back = (holdings m.id).after _ :=
          congrArg Prod.snd (List.inj_on_of_nodup_map distinct sent (answered m called_upon) rfl)
        have above : order ∈ (holdings m.id).after s.desk.node.storage.log.maxNumber := by
          rw [← same]
          exact List.mem_append_right _ List.mem_cons_self
        obtain ⟨later, found⟩ := (keyed m.id).mem_after.mp above
        exact Or.inr ⟨later, m, called_upon, order, found⟩
    · rintro (⟨order, old⟩ | ⟨later, m, called_upon, order, found⟩)
      · exact ⟨order, Or.inl old⟩
      · cases before : s.desk.node.storage.log.get? n with
        | some old => exact ⟨old, Or.inl rfl⟩
        | none =>
          obtain rfl := (keyed m.id).number found
          have sent := (keyed m.id).mem_after.mpr ⟨later, found⟩
          obtain ⟨first, is_first⟩ := exists_first distinct (answered m called_upon) sent
          exact ⟨first, Or.inr ⟨rfl, is_first⟩⟩
  · rw [works call] at outage
    cases outage

/-! ## A hole stays -/

def ahead : ScriptedPeers where
  peers := [{ id := 2, orders := [⟨1, "ant", 1⟩, ⟨2, "bee", 1⟩] }]

/-- A node that holds some orders, and the peer. -/
def behind (rows : List Order) : Site Stock ScriptedPeers where
  desk :=
    { node :=
        { storage := { log := .table { medium := .inMemory, rows } }
          counter := .startingAbove 0
          registry := .ofMembers 1 ahead.members }
      catalog := {} }
  lanes := .ofWidth 2 50 ahead

def whole : OrderLog := .table { medium := .inMemory, rows := [⟨1, "ant", 1⟩, ⟨2, "bee", 1⟩] }

theorem recovers_behind :
    (((behind [⟨1, "ant", 1⟩]).noted.sync.2.desk.node.storage.log.get? 2).isSome ↔
      ((behind [⟨1, "ant", 1⟩]).desk.node.storage.log.get? 2).isSome ∨
        (behind [⟨1, "ant", 1⟩]).desk.node.storage.log.maxNumber < 2 ∧
          ∃ m ∈ (behind [⟨1, "ant", 1⟩]).desk.node.registry.activePeers, (whole.get? 2).isSome) := by
  refine Site.recovers_sync (Site.quiet_ofWidth _ 2 50 ahead) (Registry.ordered_ofMembers _ _)
    (fun _ => rfl) (fun _ => whole) (fun _ => ?_) ?_ 2
  · change ([1, 2] : List OrderNumber).Nodup
    decide
  · decide +kernel

/-- A node that stored the second order and missed the first does not recover the first, though the
only peer holds both and answers in time. -/
theorem hole_stays :
    (behind [⟨2, "bee", 1⟩]).noted.sync.1 = .ok ⟨1, [2], [], 0, 0, 0, 2⟩ ∧
      (whole.get? 1).isSome ∧
      (behind [⟨2, "bee", 1⟩]).noted.sync.2.lanes.peers.answers =
        [(2, whole.after (behind [⟨2, "bee", 1⟩]).desk.node.storage.log.maxNumber)] ∧
      (behind [⟨2, "bee", 1⟩]).noted.sync.2.desk.node.storage.log.get? 1 = none := by
  exact ⟨by cbv, by decide +kernel, by cbv, by cbv⟩

end OrderCluster.Replication
