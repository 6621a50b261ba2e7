import OrderCluster.Registry

/-!
# Whom a registry trusts

Members ascend by id, so a registry has one entry for each id. It trusts a peer when it calls it:
when the peer is a member, not the node itself, and not believed offline. A mark changes the status
of one member and nothing else.
-/

namespace OrderCluster.Registry

/-- The peers that are called. -/
def Trusts (r : Registry) (id : NodeId) : Prop := ∃ m ∈ r.activePeers, m.id = id

instance (r : Registry) (id : NodeId) : Decidable (r.Trusts id) :=
  inferInstanceAs (Decidable (∃ m ∈ r.activePeers, m.id = id))

/-- The members ascend by id. -/
def Ordered (r : Registry) : Prop := r.members.Pairwise fun a b => a.id < b.id

/-- The status that is believed of a member. -/
def status? (r : Registry) (id : NodeId) : Option Status := (r.find? id).map Member.status

theorem mem_place {m other : Member} {held : List Member} (h : other ∈ place m held) :
    other = m ∨ other ∈ held := by
  induction held with
  | nil => exact Or.inl (List.mem_singleton.mp h)
  | cons first rest ih =>
    rw [place] at h
    split at h
    · exact List.mem_cons.mp h
    · split at h
      · rcases List.mem_cons.mp h with new | later
        · exact Or.inl new
        · exact Or.inr (List.mem_cons_of_mem _ later)
      · rcases List.mem_cons.mp h with rfl | later
        · exact Or.inr List.mem_cons_self
        · rcases ih later with new | old
          · exact Or.inl new
          · exact Or.inr (List.mem_cons_of_mem _ old)

theorem ascending_place (m : Member) {held : List Member}
    (ascending : held.Pairwise fun a b => a.id < b.id) :
    (place m held).Pairwise fun a b => a.id < b.id := by
  induction held with
  | nil => exact List.pairwise_singleton _ _
  | cons first rest ih =>
    obtain ⟨below, rest_ascending⟩ := List.pairwise_cons.mp ascending
    rw [place]
    split
    · rename_i lower
      refine .cons (fun other later => ?_) ascending
      rcases List.mem_cons.mp later with rfl | later
      · exact lower
      · exact UInt32.lt_trans lower (below other later)
    · rename_i not_lower
      split
      · rename_i same
        refine .cons (fun other later => ?_) rest_ascending
        rw [same]
        exact below other later
      · rename_i other_id
        refine .cons (fun other later => ?_) (ih rest_ascending)
        rcases mem_place later with rfl | old
        · exact UInt32.lt_of_le_of_ne (UInt32.not_lt.mp not_lower) (Ne.symm other_id)
        · exact below other old

theorem ascending_canonical (listed : List Member) :
    (canonical listed).Pairwise fun a b => a.id < b.id := by
  have kept : ∀ held : List Member, held.Pairwise (fun a b => a.id < b.id) →
      (listed.foldl (fun held m => place m held) held).Pairwise fun a b => a.id < b.id := by
    induction listed with
    | nil => exact fun held ascending => ascending
    | cons m rest ih => exact fun held ascending => ih _ (ascending_place m ascending)
  exact kept [] .nil

theorem ordered_ofMembers (selfId : NodeId) (listed : List Member) :
    (ofMembers selfId listed).Ordered := ascending_canonical listed

/-- A registry has one entry for each id. -/
theorem Ordered.find?_eq {r : Registry} (ordered : r.Ordered) {m : Member}
    (member : m ∈ r.members) : r.find? m.id = some m := by
  unfold find?
  unfold Ordered at ordered
  generalize r.members = members at ordered member
  induction members with
  | nil => cases member
  | cons first rest ih =>
    obtain ⟨below, rest_ordered⟩ := List.pairwise_cons.mp ordered
    cases member with
    | head => exact List.find?_cons_of_pos (decide_eq_true rfl)
    | tail _ later =>
      have other : first.id ≠ m.id := UInt32.ne_of_lt (below m later)
      rw [List.find?_cons_of_neg (by simpa using other)]
      exact ih rest_ordered later

theorem Ordered.trusts_iff {r : Registry} (ordered : r.Ordered) {id : NodeId} :
    r.Trusts id ↔ id ≠ r.selfId ∧ r.status? id = some .active := by
  constructor
  · rintro ⟨m, called, rfl⟩
    obtain ⟨member, trusted⟩ := List.mem_filter.mp called
    obtain ⟨other, active⟩ := Bool.and_eq_true_iff.mp trusted
    refine ⟨of_decide_eq_true other, ?_⟩
    rw [status?, ordered.find?_eq member]
    exact congrArg some (of_decide_eq_true active)
  · rintro ⟨other, active⟩
    obtain ⟨m, found, status⟩ := Option.map_eq_some_iff.mp active
    have same : m.id = id := by simpa using List.find?_some found
    refine ⟨m, List.mem_filter.mpr ⟨List.mem_of_find?_eq_some found, ?_⟩, same⟩
    rw [same, Member.isActive, status]
    simpa using other

/-! ## Marks -/

/-- The members after a status was noted. -/
def marked (members : List Member) (id : NodeId) (status : Status) : List Member :=
  members.map fun m => if m.id = id then { m with status } else m

theorem mark_selfId (r : Registry) (id : NodeId) (status : Status) :
    (r.mark id status).2.selfId = r.selfId := by
  unfold mark
  split
  · rfl
  · split <;> rfl

theorem leader_mark (r : Registry) (id : NodeId) (status : Status) :
    (r.mark id status).2.leader = r.leader := by
  unfold mark
  split
  · rfl
  · split <;> rfl

/-- A mark leaves the members alone or notes the status. -/
theorem members_mark (r : Registry) (id : NodeId) (status : Status) :
    ((r.mark id status).2.members = r.members ∧
        (r.status? id = none ∨ r.status? id = some status)) ∨
      (r.mark id status).2.members = marked r.members id status := by
  unfold mark
  cases found : r.find? id with
  | none => exact Or.inl ⟨rfl, Or.inl (by rw [status?, found, Option.map_none])⟩
  | some m =>
    dsimp only
    split
    · rename_i same
      exact Or.inl ⟨rfl, Or.inr (by rw [status?, found, Option.map_some, same])⟩
    · exact Or.inr rfl

/-- In a registry with one entry for each id, a mark notes the status and does nothing else, also
where it changes nothing. -/
theorem Ordered.members_mark {r : Registry} (ordered : r.Ordered) (id : NodeId) (status : Status) :
    (r.mark id status).2.members = marked r.members id status := by
  rcases r.members_mark id status with ⟨same, before⟩ | noted
  · have unchanged : ∀ m ∈ r.members, (if m.id = id then { m with status } else m) = m := by
      intro m member
      split
      · rename_i named
        rw [← named, status?, ordered.find?_eq member, Option.map_some] at before
        rcases before with unknown | held
        · cases unknown
        · rw [← Option.some.inj held]
      · rfl
    rw [same, marked, List.map_congr_left unchanged, List.map_id']
  · exact noted

theorem ordered_map {r r' : Registry} {change : Member → Member}
    (same_id : ∀ m, (change m).id = m.id) (eq : r'.members = r.members.map change)
    (ordered : r.Ordered) : r'.Ordered := by
  unfold Ordered at ordered ⊢
  rw [eq, List.pairwise_map]
  exact ordered.imp fun lt => by rwa [same_id, same_id]

theorem find?_map {r r' : Registry} {change : Member → Member}
    (same_id : ∀ m, (change m).id = m.id) (eq : r'.members = r.members.map change) (id : NodeId) :
    r'.find? id = (r.find? id).map change := by
  have same : (fun m : Member => decide (m.id = id)) ∘ change = fun m => decide (m.id = id) := by
    funext m
    exact congrArg (fun other : NodeId => decide (other = id)) (same_id m)
  rw [find?, eq, List.find?_map, same, find?]

theorem marked_id (id : NodeId) (status : Status) (m : Member) :
    (if m.id = id then { m with status } else m).id = m.id := by
  split <;> rfl

theorem ordered_mark {r : Registry} (ordered : r.Ordered) (id : NodeId) (status : Status) :
    (r.mark id status).2.Ordered := by
  rcases members_mark r id status with ⟨same, _⟩ | noted
  · unfold Ordered
    rw [same]
    exact ordered
  · exact ordered_map (marked_id id status) noted ordered

/-- A mark sets the status of one member and of no other. -/
theorem status?_mark (r : Registry) (id other : NodeId) (status : Status) :
    (r.mark id status).2.status? other =
      if other = id then (r.status? id).map fun _ => status else r.status? other := by
  rcases members_mark r id status with ⟨same, before⟩ | noted
  · have unchanged : (r.mark id status).2.status? other = r.status? other := by
      rw [status?, find?, same]
      rfl
    rw [unchanged]
    split
    · rename_i eq
      rw [eq]
      rcases before with unknown | held
      · rw [unknown, Option.map_none]
      · rw [held, Option.map_some]
    · rfl
  · rw [status?, find?_map (marked_id id status) noted, Option.map_map]
    split
    · rename_i eq
      subst eq
      rw [status?, Option.map_map]
      cases found : r.find? other with
      | none => rfl
      | some m =>
        have named : m.id = other := by simpa using List.find?_some found
        simp only [Option.map_some, Function.comp, named, if_true]
    · rename_i ne
      rw [status?]
      cases found : r.find? other with
      | none => rfl
      | some m =>
        have named : m.id = other := by simpa using List.find?_some found
        have unmarked : m.id ≠ id := by rwa [named]
        simp only [Option.map_some, Function.comp, unmarked, if_false]

/-- A mark that says what is known, or is about nobody, does nothing; any other notes the status and
publishes the number of active peers. -/
theorem mark_eq (r : Registry) (id : NodeId) (status : Status) :
    (r.mark id status).2 =
      if r.status? id = none ∨ r.status? id = some status then r
      else { r with members := marked r.members id status }.publish := by
  unfold mark
  cases found : r.find? id with
  | none => simp [status?, found]
  | some m =>
    by_cases same : m.status = status
    · simp [status?, found, same]
    · simp [status?, found, same, marked]

theorem marked_comm {id other : NodeId} (apart : id ≠ other) (members : List Member)
    (status status' : Status) :
    marked (marked members id status) other status' =
      marked (marked members other status') id status := by
  simp only [marked, List.map_map]
  apply List.map_congr_left
  intro m _
  by_cases first : m.id = id
  · simp [first, apart]
  · by_cases second : m.id = other
    · simp [second, apart.symm]
    · simp [first, second]

/-- It does not matter which of two members is marked first. -/
theorem mark_comm {id other : NodeId} (apart : id ≠ other) (r : Registry)
    (status status' : Status) :
    ((r.mark id status).2.mark other status').2 =
      ((r.mark other status').2.mark id status).2 := by
  have there := r.status?_mark id other status
  have here := r.status?_mark other id status'
  rw [if_neg apart.symm] at there
  rw [if_neg apart] at here
  rw [mark_eq (r.mark id status).2, there, mark_eq (r.mark other status').2, here, mark_eq r id,
    mark_eq r other]
  by_cases first : r.status? id = none ∨ r.status? id = some status
  · simp only [first, if_true]
  · by_cases second : r.status? other = none ∨ r.status? other = some status'
    · simp only [second, if_true]
    · simp only [first, second, if_false]
      change publish { r with members := marked (marked r.members id status) other status' } =
        publish { r with members := marked (marked r.members other status') id status }
      rw [marked_comm apart]

/-- Only the peers that were trusted are trusted after one of them was marked as offline, and that
one is not. -/
theorem Ordered.trusts_mark_offline {r : Registry} (ordered : r.Ordered) {id other : NodeId}
    (trusts : (r.mark id .offline).2.Trusts other) : other ≠ id ∧ r.Trusts other := by
  obtain ⟨not_self, active⟩ := (ordered_mark ordered id .offline).trusts_iff.mp trusts
  rw [status?_mark] at active
  rw [mark_selfId] at not_self
  by_cases eq : other = id
  · rw [if_pos eq] at active
    obtain ⟨_, _, offline⟩ := Option.map_eq_some_iff.mp active
    cases offline
  · rw [if_neg eq] at active
    exact ⟨eq, ordered.trusts_iff.mpr ⟨not_self, active⟩⟩

/-- A mark as active adds at most that one peer to those that are trusted. -/
theorem Ordered.trusts_mark_active {r : Registry} (ordered : r.Ordered) {id other : NodeId}
    (trusts : (r.mark id .active).2.Trusts other) : other = id ∨ r.Trusts other := by
  obtain ⟨not_self, active⟩ := (ordered_mark ordered id .active).trusts_iff.mp trusts
  rw [status?_mark] at active
  rw [mark_selfId] at not_self
  by_cases eq : other = id
  · exact Or.inl eq
  · rw [if_neg eq] at active
    exact Or.inr (ordered.trusts_iff.mpr ⟨not_self, active⟩)

/-! ## Assignments -/

theorem ordered_assignLeader {r : Registry} (ordered : r.Ordered) (id : NodeId) :
    (r.assignLeader id).Ordered :=
  ordered_map (fun m => by split <;> rfl) rfl ordered

/-- An assignment does not change whom a registry trusts. -/
theorem status?_assignLeader (r : Registry) (id other : NodeId) :
    (r.assignLeader id).status? other = r.status? other := by
  have same_id : ∀ m : Member, (if m.id = id then { m with mode := .leader } else m).id = m.id := by
    intro m
    split <;> rfl
  rw [status?, find?_map same_id rfl, Option.map_map, status?]
  cases r.find? other with
  | none => rfl
  | some m =>
    simp only [Option.map_some, Function.comp]
    split <;> rfl

theorem Ordered.trusts_assignLeader {r : Registry} (ordered : r.Ordered) {id other : NodeId}
    (trusts : (r.assignLeader id).Trusts other) : r.Trusts other := by
  obtain ⟨not_self, active⟩ := (ordered_assignLeader ordered id).trusts_iff.mp trusts
  rw [status?_assignLeader] at active
  exact ordered.trusts_iff.mpr ⟨not_self, active⟩

end OrderCluster.Registry
