import OrderCluster.Proofs.Registry
import OrderCluster.Proofs.Replication.Rounds

/-!
# What a round of calls leaves behind

Every peer of a round is told apart by how its call ended: it is named once among the calls that
ended. In the registry of the node that called, the peers whose calls failed are believed offline
from then on, and nothing else changes.
-/

namespace OrderCluster

namespace Replication

/-- Whether some call to a peer has failed. -/
def Fell (ended : List Ended) (id : NodeId) : Prop := ∃ e ∈ ended, e.1 = id ∧ e.2.isFailed = true

instance (ended : List Ended) (id : NodeId) : Decidable (Fell ended id) :=
  inferInstanceAs (Decidable (∃ e ∈ ended, e.1 = id ∧ e.2.isFailed = true))

theorem fell_snoc {ended : List Ended} {peer id : NodeId} {verdict : Verdict} :
    Fell (ended ++ [(peer, verdict)]) id ↔
      Fell ended id ∨ peer = id ∧ verdict.isFailed = true := by
  constructor
  · rintro ⟨e, member, named, failed⟩
    rcases List.mem_append.mp member with old | new
    · exact Or.inl ⟨e, old, named, failed⟩
    · rw [List.mem_singleton.mp new] at named failed
      exact Or.inr ⟨named, failed⟩
  · rintro (⟨e, member, named, failed⟩ | ⟨named, failed⟩)
    · exact ⟨e, List.mem_append_left _ member, named, failed⟩
    · exact ⟨_, List.mem_append_right _ List.mem_cons_self, named, failed⟩

/-- A member, believed offline if a call to it has failed. -/
def fallen (ended : List Ended) (m : Member) : Member :=
  if Fell ended m.id then { m with status := .offline } else m

/-- The peers whose calls failed are those that a report names. -/
theorem fallen_eq (ended : List Ended) :
    fallen ended = fun m =>
      if m.id ∈ peersWhere (·.isFailed) ended then { m with status := .offline } else m := by
  funext m
  by_cases fell : Fell ended m.id
  · rw [fallen, if_pos fell]
    exact (if_pos (mem_peersWhere.mpr fell)).symm
  · rw [fallen, if_neg fell]
    exact (if_neg fun failed => fell (mem_peersWhere.mp failed)).symm

/-- A registry in which the peers whose calls failed were noted as offline, and nothing else. -/
structure Noticed (r : Registry) (ended : List Ended) (r' : Registry) : Prop where
  ordered : r'.Ordered
  selfId : r'.selfId = r.selfId
  leader : r'.leader = r.leader
  members : r'.members = r.members.map (fallen ended)

theorem Noticed.start {r : Registry} (ordered : r.Ordered) : Noticed r [] r := by
  refine ⟨ordered, rfl, rfl, ?_⟩
  have nobody : ∀ m ∈ r.members, fallen [] m = m := by
    intro m _
    refine if_neg ?_
    rintro ⟨e, member, _⟩
    cases member
  rw [List.map_congr_left nobody, List.map_id']

/-- Settling a call notes its peer as offline if the call failed. -/
theorem Noticed.settle {r : Registry} {ended : List Ended} {d : Desk κ}
    (noticed : Noticed r ended d.node.registry) (kind : CallKind) (peer : NodeId)
    (verdict : Verdict) :
    Noticed r (ended ++ [(peer, verdict)]) (settled kind peer verdict d).node.registry := by
  cases failed : verdict.isFailed with
  | false =>
    have same : (settled kind peer verdict d).node.registry = d.node.registry := by
      simp only [settled, failed, Bool.false_eq_true, if_false]
    have unchanged : fallen (ended ++ [(peer, verdict)]) = fallen ended := by
      funext m
      simp only [fallen, fell_snoc, failed, Bool.false_eq_true, and_false, or_false]
    rw [same]
    exact { noticed with members := by rw [unchanged, noticed.members] }
  | true =>
    have marked : (settled kind peer verdict d).node.registry =
        (d.node.registry.mark peer .offline).2 := by
      simp only [settled, failed, if_true]
    rw [marked]
    constructor
    · exact Registry.ordered_mark noticed.ordered peer .offline
    · rw [Registry.mark_selfId, noticed.selfId]
    · rw [Registry.leader_mark, noticed.leader]
    · rw [noticed.ordered.members_mark, noticed.members, Registry.marked, List.map_map]
      refine List.map_congr_left fun m _ => ?_
      simp only [Function.comp, fallen, fell_snoc, failed, and_true]
      by_cases before : Fell ended m.id
      · simp only [before, true_or, if_true, ite_self]
      · simp only [before, false_or, if_false, eq_comm (a := m.id)]

variable {κ σ : Type} [Catalog κ] [Peers σ]

namespace Site

/-- At the end of a round every peer that was called is named once. -/
theorem everyone_ended {s : Site κ σ} (quiet : s.Quiet) (kind : CallKind) (members : List Member)
    (errand : Errand) :
    ((s.call kind members errand).1.map Prod.fst).Perm (members.map Member.id) := by
  have kept : Kept (κ := κ) (σ := σ) fun pending ended _ _ =>
      (ended.map Prod.fst ++ pending.map (·.member.id)).Perm (members.map Member.id) := by
    have moved : ∀ {ended : List Ended} {call : Call} {pending : List Call} {verdict : Verdict},
        (ended.map Prod.fst ++ (call :: pending).map (·.member.id)).Perm (members.map Member.id) →
          ((ended ++ [(call.member.id, verdict)]).map Prod.fst ++
            pending.map (·.member.id)).Perm (members.map Member.id) := by
      intro ended call pending verdict holds
      simpa using holds
    constructor
    · intro pending pending' ended d peers perm holds
      exact (((perm.map _).append_left _).symm).trans holds
    · exact fun _ holds => holds
    · exact fun _ holds => moved holds
    · exact fun _ holds => moved holds
  have ended := kept_call kept quiet kind members errand (by
    rw [planned, List.map_map]
    exact .refl _)
  simpa using ended

/-- After a round the node believes the peers whose calls failed offline, and no other peer that it
did not believe offline before. -/
theorem noticed_call {s : Site κ σ} (quiet : s.Quiet) (ordered : s.desk.node.registry.Ordered)
    (kind : CallKind) (members : List Member) (errand : Errand) :
    Noticed s.desk.node.registry (s.call kind members errand).1
      (s.call kind members errand).2.desk.node.registry := by
  have kept : Kept (κ := κ) (σ := σ) fun _ ended d _ =>
      Noticed s.desk.node.registry ended d.node.registry := by
    constructor
    · exact fun _ holds => holds
    · exact fun _ holds => holds
    · exact fun _ holds => holds.settle _ _ _
    · exact fun _ holds => holds.settle _ _ _
  exact kept_call kept quiet kind members errand (.start ordered)

end Site

end Replication

end OrderCluster
