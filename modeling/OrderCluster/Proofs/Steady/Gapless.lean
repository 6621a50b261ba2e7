import OrderCluster.Catalog.Overridden
import OrderCluster.Proofs.Steady.Fetching
import OrderCluster.Proofs.Steady.Pushing

/-!
# No gaps under a steady leader

Under a steady leader no node ever has a gap: each lists just what the leader lists up to its own
greatest number, and whom the leader trusts lists everything. That is why it is enough to ask only
for what lies above one's own greatest number: a node that the leader serves recovers all that it
missed.
-/

namespace OrderCluster.World

open Replication

variable {κ : Type} {leader id : NodeId} {w w' : World κ}

structure Settled (leader : NodeId) (w : World κ) : Prop where
  sound : w.Sound leader
  current : w.Current leader

/-- A desk may change so that its log only grows and stays a prefix. -/
theorem Settled.put (settled : w.Settled leader) {d : Desk κ} (fit : d.node.Fit id)
    (grown : d.node.storage.log.Covers (w.log id))
    (follows : d.node.storage.log.PrefixOf (w.log leader))
    (lead : id = leader → d.node.Ahead ∧ 0 < d.node.counter.next ∧
      ∀ other, d.node.registry.Trusts other → (w.registry leader).Trusts other) :
    (w.put id d).Settled leader :=
  ⟨settled.sound.put fit grown follows fun eq => ⟨(lead eq).1, (lead eq).2.1⟩,
    settled.current.put grown follows fun eq => (lead eq).2.2⟩

theorem Settled.restart (settled : w.Settled leader) {d : Desk κ}
    {outage : LogCall → Option Failure} {listed : List Member} (other : id ≠ leader)
    (usable : Usable outage)
    (opened : Service.openNode ⟨(w.log id).reopen, outage⟩ (.ofMembers id listed) =
      .ok d.node) :
    (w.put id d).Settled leader := by
  have fit := settled.sound.fit id
  have kept : (w.log id).reopen = w.log id := OrderLog.reopen_of_lasting fit.lasting
  rw [kept] at opened
  have storage := (Service.ahead_openNode opened).1
  refine settled.put (Service.fit_openNode fit.keyed fit.lasting usable opened) ?_ ?_ ?_
  · rw [storage]
    exact .refl _
  · rw [storage]
    exact settled.sound.follows id
  · exact fun eq => absurd eq other

theorem Settled.disturb (settled : w.Settled leader) {outage : LogCall → Option Failure}
    (usable : Usable outage) (catalog : κ) :
    (w.put id
      { node :=
          { (w.desks id).node with
            storage := { (w.desks id).node.storage with outage := outage } }
        catalog }).Settled leader := by
  have fit := settled.sound.fit id
  refine settled.put { fit with usable := usable } (.refl _) (settled.sound.follows id) ?_
  rintro rfl
  exact ⟨settled.sound.ahead, settled.sound.started, fun other trusts => trusts⟩

section Steps

variable [Catalog κ]

theorem Settled.deliver (settled : w.Settled leader) {request : AcceptRequest}
    (sent : (id, request) ∈ w.sent) : (w.work id (Service.accept request)).Settled leader := by
  obtain ⟨held, reaches⟩ := settled.sound.sent _ sent
  have follows := settled.sound.follows_accept held reaches
  refine ⟨settled.sound.accept held reaches, settled.current.work follows fun other trusts => ?_⟩
  rwa [(Service.acceptEnd_accept request (w.desks id)).registry] at trusts

theorem Settled.assign (settled : w.Settled leader) (request : LeaderAssignment) :
    (w.work id (Service.assign request)).Settled leader := by
  refine ⟨settled.sound.assign request, settled.current.work ?_ fun other trusts => ?_⟩
  · rw [(Service.assign_cases request _).1]
    exact settled.sound.follows id
  · rw [Service.registry_assign] at trusts
    exact (settled.sound.fit id).ordered.trusts_assignLeader trusts

/-- Every operation keeps every log a prefix of the leader's, and whom the leader trusts with all
that the leader holds. -/
theorem Step.settled (step : Step leader w w') (settled : w.Settled leader) :
    w'.Settled leader := by
  cases step with
  | buy weather request =>
    obtain ⟨sound, current⟩ := buy_keeps settled.sound settled.current weather request
    exact ⟨sound, current⟩
  | sync id weather =>
    have synced := synced_sync settled.sound settled.current id weather
    exact ⟨synced.sound, synced.current⟩
  | deliver sent => exact settled.deliver sent
  | assign id request => exact settled.assign request
  | restart other usable opened => exact settled.restart other usable opened
  | disturb id usable catalog => exact settled.disturb usable catalog

end Steps

theorem Fresh.settled (fresh : w.Fresh) (leader : NodeId) : w.Settled leader := by
  have nothing : ∀ id k, (w.log id).get? k = none := by
    intro id k
    obtain ⟨connections, outage, listed, _, opened⟩ := fresh.opened id
    rw [log, (Service.ahead_openNode opened).1]
    rfl
  obtain ⟨connections, outage, listed, _, opened⟩ := fresh.opened leader
  refine ⟨⟨?_, ?_, ?_, ?_, ?_, ?_⟩, ?_⟩
  · intro id
    obtain ⟨connections, outage, listed, usable, opened⟩ := fresh.opened id
    have keyed : OrderLog.Keyed (.table { medium := .onFile connections }) := List.nodup_nil
    exact Service.fit_openNode keyed rfl usable opened
  · exact (Service.ahead_openNode opened).2
  · rw [(Service.counter_openNode opened).1]
    change 0 < (Counter.startingAbove 0).next
    decide
  · intro k order found
    rw [nothing] at found
    cases found
  · exact fun id => OrderLog.prefixOf_of_empty (nothing id) _
  · intro p member
    rw [fresh.unsent] at member
    cases member
  · intro id _ k order found
    rw [nothing] at found
    cases found

variable [Catalog κ]

theorem Reachable.settled (reached : Reachable leader w) : w.Settled leader := by
  induction reached with
  | fresh fresh => exact fresh.settled leader
  | step _ step ih => exact step.settled ih

/-- What is true of a cluster whose leader is steady. -/
structure Gapless (leader : NodeId) (w : World κ) : Prop where
  /-- The leader lists each record once. -/
  once : (w.log leader).all.Pairwise fun a b => a.number < b.number
  /-- Every node lists just what the leader lists up to the greatest number of that node. -/
  prefixes : ∀ id, (w.log id).all =
    (w.log leader).all.filter (fun order => order.number ≤ (w.log id).maxNumber)
  /-- Every peer that the leader believes active lists all that the leader lists. -/
  trusted : ∀ id, (w.registry leader).Trusts id → (w.log id).all = (w.log leader).all
  /-- A node that can read its log catches up with whoever answers. -/
  reports : ∀ id weather, (w.desks id).node.storage.outage .maxNumber = none →
    ∃ report, (w.sync id weather).1 = .ok report
  /-- A node that catches up, and is answered by the leader, ends with all that the leader lists;
  it keeps what it had and gains each record that it missed. -/
  recovers : ∀ id weather report, (w.sync id weather).1 = .ok report →
    leader ∈ report.responded →
      ((w.sync id weather).2.log id).all = (w.log leader).all ∧
        ((w.sync id weather).2.log id).all = (w.log id).all ++
          (w.log leader).all.filter (fun order => (w.log id).maxNumber < order.number)

/-- Under a steady leader no node ever has a gap, and whom the leader trusts misses nothing. -/
theorem gapless_of_reachable (reached : Reachable leader w) : w.Gapless leader := by
  have settled := reached.settled
  have keyed := settled.sound.keyed leader
  constructor
  · exact keyed.ascending_all
  · intro id
    exact (settled.sound.follows id).all_eq settled.sound.positive (settled.sound.keyed id) keyed
  · intro id trusts
    exact (settled.sound.follows id).all_eq_of_covers (settled.current id trusts)
      (settled.sound.keyed id) keyed
  · intro id weather readable
    exact (synced_sync settled.sound settled.current id weather).reports readable
  · intro id weather report ok responded
    have synced := synced_sync settled.sound settled.current id weather
    have covers := synced.covers report ok responded
    have whole : ((w.sync id weather).2.log id).all = (w.log leader).all := by
      have keyed_after := synced.sound.keyed id
      refine eq_of_ascending keyed_after.ascending_all keyed.ascending_all fun order => ?_
      rw [keyed_after.mem_all, keyed.mem_all]
      constructor
      · exact fun held => synced.lead _ _ ((synced.sound.follows id).within _ _ held)
      · exact fun held => covers _ _ (synced.grown leader _ _ held)
    refine ⟨whole, whole.trans ?_⟩
    exact (settled.sound.follows id).all_append settled.sound.positive
      (settled.sound.keyed id) keyed

/-! ## A peer that was missed -/

def three : List Member :=
  [{ id := 1, address := ⟨"one", 1700⟩ }, { id := 2, address := ⟨"two", 1700⟩ },
    { id := 3, address := ⟨"three", 1700⟩ }]

/-- A cluster of three in which nothing has happened yet. -/
def newborn : World OverriddenCatalog where
  strict := false
  desks id :=
    { node :=
        { storage := { log := .table { medium := .onFile 1 } }
          counter := .startingAbove 0
          registry := .ofMembers id three }
      catalog := { stock := {}, onTake := some (.ok .applied) } }

/-- The second node takes the first order, though the leader does not hear of it; the third node
misses the first order, and the leader trusts nobody when it places the second one. -/
def missed : World OverriddenCatalog :=
  (newborn.buy 1
    { parallel := 2
      deadline := 50
      fates := [.unheard (.unreachable "two" "reset"), .lost (.unreachable "three" "refused")] }
    ⟨"apple", 2⟩).buy 1 { parallel := 2, deadline := 50 } ⟨"plum", 1⟩

/-- The third node has caught up. -/
def recovered : World OverriddenCatalog := (missed.sync 3 { parallel := 2, deadline := 50 }).2

theorem gapless_recovered :
    Reachable 1 recovered ∧ (missed.log 1).maxNumber = 2 ∧ (missed.log 2).maxNumber = 1 ∧
      (missed.log 3).maxNumber = 0 ∧ ¬ (missed.registry 1).Trusts 3 ∧
      (recovered.registry 1).Trusts 3 ∧ Gapless 1 recovered := by
  have fresh : Fresh newborn :=
    ⟨fun id => ⟨1, fun _ => none, three, ⟨rfl, rfl⟩, rfl⟩, rfl⟩
  have reached : Reachable 1 recovered :=
    (((Reachable.fresh fresh).step (.buy _ _ _)).step (.buy _ _ _)).step (.sync _ 3 _)
  exact ⟨reached, by decide +kernel, by decide +kernel, by decide +kernel, by decide +kernel,
    by decide +kernel, gapless_of_reachable reached⟩

end OrderCluster.World
