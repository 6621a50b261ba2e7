import Mathlib.Data.List.Dedup
import OrderCluster.Coordinator

/-!
# The order in which nodes are walked

Whatever the order of the configured list, and whatever is listed twice, the coordinator walks each
listed id once, from the highest to the lowest.
-/

namespace OrderCluster.Coordinator

/-- Members that descend by id. -/
def Descending (members : List Member) : Prop := members.Pairwise fun a b => b.id < a.id

instance : DecidablePred Descending := fun members =>
  inferInstanceAs (Decidable (members.Pairwise fun a b => b.id < a.id))

theorem mem_go {id : NodeId} {listed : List Member} {m : Member}
    (kept : m ∈ distinct.go id listed) : m ∈ listed := by
  induction listed generalizing id with
  | nil => cases kept
  | cons first rest ih =>
    rw [distinct.go] at kept
    split at kept
    · exact List.mem_cons_of_mem _ (ih kept)
    · exact (List.mem_cons.mp kept).elim (fun new => new ▸ List.mem_cons_self)
        fun later => List.mem_cons_of_mem _ (ih later)

/-- No id is lost among the members that follow one with an id. -/
theorem go_covers (id : NodeId) {listed : List Member} {m : Member} (member : m ∈ listed) :
    m.id = id ∨ ∃ kept ∈ distinct.go id listed, kept.id = m.id := by
  induction listed generalizing id with
  | nil => cases member
  | cons first rest ih =>
    rw [distinct.go]
    split
    · rename_i same
      cases member with
      | head => exact Or.inl same
      | tail _ later => exact ih id later
    · cases member with
      | head => exact Or.inr ⟨m, List.mem_cons_self, rfl⟩
      | tail _ later =>
        refine Or.inr ?_
        rcases ih first.id later with same | ⟨kept, among, named⟩
        · exact ⟨first, List.mem_cons_self, same.symm⟩
        · exact ⟨kept, List.mem_cons_of_mem _ among, named⟩

/-- Of members whose ids do not ascend, those that are kept descend. -/
theorem descending_go {id : NodeId} {listed : List Member}
    (sorted : listed.Pairwise fun a b => b.id ≤ a.id) (below : ∀ m ∈ listed, m.id ≤ id) :
    Descending (distinct.go id listed) ∧ ∀ m ∈ distinct.go id listed, m.id < id := by
  induction listed generalizing id with
  | nil => exact ⟨.nil, fun m none_left => by cases none_left⟩
  | cons first rest ih =>
    obtain ⟨head, tail⟩ := List.pairwise_cons.mp sorted
    rw [distinct.go]
    split
    · exact ih tail fun m later => below m (List.mem_cons_of_mem _ later)
    · rename_i other
      obtain ⟨descending, lower⟩ := @ih first.id tail head
      have first_lower : first.id < id :=
        UInt32.lt_of_le_of_ne (below first List.mem_cons_self) other
      refine ⟨.cons lower descending, fun m kept => ?_⟩
      rcases List.mem_cons.mp kept with rfl | later
      · exact first_lower
      · exact UInt32.lt_trans (lower m later) first_lower

/-- Among nodes that descend, a node is found by its id. -/
theorem Descending.find? {members : List Member} (descending : Descending members) {m : Member}
    (member : m ∈ members) : members.find? (·.id = m.id) = some m := by
  induction members with
  | nil => cases member
  | cons first rest ih =>
    obtain ⟨lower, later⟩ := List.pairwise_cons.mp descending
    rcases List.mem_cons.mp member with rfl | among
    · simp
    · have other : first.id ≠ m.id := (UInt32.ne_of_lt (lower m among)).symm
      simp only [List.find?_cons, other, decide_false]
      exact ih later among

theorem descending_walk (listed : List Member) : Descending (walk listed) := by
  have sorted : (listed.mergeSort fun a b => b.id ≤ a.id).Pairwise
      fun a b => decide (b.id ≤ a.id) = true := by
    refine List.pairwise_mergeSort ?_ ?_ listed
    · intro a b c ab bc
      exact decide_eq_true (UInt32.le_trans (of_decide_eq_true bc) (of_decide_eq_true ab))
    · intro a b
      rw [Bool.or_eq_true, decide_eq_true_iff, decide_eq_true_iff]
      exact UInt32.le_total b.id a.id
  rw [walk]
  cases eq : listed.mergeSort fun a b => b.id ≤ a.id with
  | nil => exact .nil
  | cons first rest =>
    rw [eq] at sorted
    obtain ⟨head, tail⟩ := List.pairwise_cons.mp (sorted.imp of_decide_eq_true)
    obtain ⟨descending, lower⟩ := descending_go tail head
    exact .cons lower descending

theorem go_of_descending {first : Member} {listed : List Member}
    (descending : Descending (first :: listed)) : distinct.go first.id listed = listed := by
  induction listed generalizing first with
  | nil => rfl
  | cons second rest ih =>
    obtain ⟨lower, later⟩ := List.pairwise_cons.mp descending
    have other : second.id ≠ first.id := UInt32.ne_of_lt (lower second List.mem_cons_self)
    rw [distinct.go, if_neg other, ih later]

/-- Nodes that are listed in descending order are walked as they are listed. -/
theorem walk_of_descending {listed : List Member} (descending : Descending listed) :
    walk listed = listed := by
  rw [walk, List.mergeSort_of_pairwise
    (descending.imp fun lower => decide_eq_true (UInt32.le_of_lt lower))]
  cases listed with
  | nil => rfl
  | cons first rest => exact congrArg (List.cons first) (go_of_descending descending)

theorem mem_walk {listed : List Member} {m : Member} (walked : m ∈ walk listed) : m ∈ listed := by
  suffices sorted : m ∈ listed.mergeSort fun a b => b.id ≤ a.id from List.mem_mergeSort.mp sorted
  rw [walk] at walked
  cases eq : listed.mergeSort fun a b => b.id ≤ a.id with
  | nil =>
    rw [eq] at walked
    cases walked
  | cons first rest =>
    rw [eq] at walked
    cases walked with
    | head => exact List.mem_cons_self
    | tail _ later => exact List.mem_cons_of_mem _ (mem_go later)

theorem walk_covers {listed : List Member} {m : Member} (member : m ∈ listed) :
    ∃ walked ∈ walk listed, walked.id = m.id := by
  have sorted : m ∈ listed.mergeSort fun a b => b.id ≤ a.id := List.mem_mergeSort.mpr member
  rw [walk]
  cases eq : listed.mergeSort fun a b => b.id ≤ a.id with
  | nil =>
    rw [eq] at sorted
    cases sorted
  | cons first rest =>
    rw [eq] at sorted
    cases sorted with
    | head => exact ⟨m, List.mem_cons_self, rfl⟩
    | tail _ later =>
      rcases go_covers first.id later with same | ⟨kept, among, named⟩
      · exact ⟨first, List.mem_cons_self, same.symm⟩
      · exact ⟨kept, List.mem_cons_of_mem _ among, named⟩

/-- As many nodes are walked as ids are listed. -/
theorem length_walk (listed : List Member) :
    (walk listed).length = (listed.map Member.id).dedup.length := by
  have apart : ((walk listed).map Member.id).Nodup :=
    List.pairwise_map.mpr ((descending_walk listed).imp fun lower => (UInt32.ne_of_lt lower).symm)
  have same : ((walk listed).map Member.id).Perm (listed.map Member.id).dedup := by
    refine (List.perm_ext_iff_of_nodup apart (List.nodup_dedup _)).mpr fun id => ?_
    rw [List.mem_dedup, List.mem_map, List.mem_map]
    constructor
    · rintro ⟨m, walked, rfl⟩
      exact ⟨m, mem_walk walked, rfl⟩
    · rintro ⟨m, member, rfl⟩
      exact walk_covers member
  rw [← same.length_eq, List.length_map]

end OrderCluster.Coordinator
