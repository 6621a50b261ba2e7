import Mathlib.Data.List.Induction
import OrderCluster.Proofs.Registry

/-!
# What a registry remembers

After it was made a registry is told two kinds of things: that a node was or was not reached, and
who leads. Of the first it keeps the last word on each listed node, of the second the last word of
all; that a listed node was ever named leader it never forgets. What it shows is therefore a function
of the list that it was made from and of what it was told since, and the number of active peers that
it publishes is right at every moment, although it is only published when a status changes.
-/

namespace OrderCluster.Registry

/-- What a registry is told. -/
inductive Notice where
  | mark (id : NodeId) (status : Status)
  | assign (id : NodeId)
  deriving DecidableEq, Repr

/-- The registry after it was told something. -/
def note (r : Registry) : Notice → Registry
  | .mark id status => (r.mark id status).2
  | .assign id => r.assignLeader id

/-- The registry after all that it was told. -/
def after (r : Registry) (history : List Notice) : Registry := history.foldl note r

/-! ## What a history says -/

/-- The status that a notice gives to a node. -/
def Notice.status? (id : NodeId) : Notice → Option Status
  | .mark other status => if other = id then some status else none
  | .assign _ => none

/-- The leader that a notice names. -/
def Notice.leader? : Notice → Option NodeId
  | .mark _ _ => none
  | .assign id => some id

/-- The status in the last mark on a node. -/
def lastStatus? (id : NodeId) (history : List Notice) : Option Status :=
  (history.filterMap (Notice.status? id)).getLast?

/-- The leader that was named last, whether it is listed or not. -/
def lastLeader? (history : List Notice) : Option NodeId :=
  (history.filterMap Notice.leader?).getLast?

/-- The last entry of a list for a node. -/
def lastListed? (id : NodeId) (listed : List Member) : Option Member :=
  (listed.filter fun m => m.id = id).getLast?

/-- What a history makes of a member: the last status that it was marked with, and a leader if it
was ever named one. -/
def told (history : List Notice) (m : Member) : Member :=
  { m with
    status := (lastStatus? m.id history).getD m.status
    mode := if .assign m.id ∈ history then .leader else m.mode }

/-- A registry that shows what its list and its history say. -/
structure Remembers (selfId : NodeId) (listed : List Member) (history : List Notice)
    (r : Registry) : Prop where
  self : r.selfId = selfId
  /-- The ids and their addresses are those that it was made with. -/
  places : r.members.map (fun m => (m.id, m.address)) =
    (ofMembers selfId listed).members.map fun m => (m.id, m.address)
  ascending : r.members.Pairwise fun a b => a.id < b.id
  known : ∀ id, (∃ m ∈ r.members, m.id = id) ↔ ∃ m ∈ listed, m.id = id
  /-- Each node is shown as its last entry in the list, changed by what was told about it. -/
  shown : ∀ id, r.find? id = (lastListed? id listed).map (told history)
  /-- A list names nodes that count as reachable and were never named leader; then no more than the
  history decides. -/
  fresh : (∀ m ∈ listed, m.status = .active ∧ m.mode = .follower) → ∀ m ∈ r.members,
    m.status = (lastStatus? m.id history).getD .active ∧
      (m.mode = .leader ↔ .assign m.id ∈ history)
  /-- The answer to the next mark. -/
  answer : ∀ id status, (r.mark id status).1 = true ↔ ∃ m ∈ r.members, m.id = id ∧ m.status ≠ status
  leader : r.leader = lastLeader? history
  leads : r.isSelfLeader = true ↔ lastLeader? history = some selfId
  active : r.activePeers = r.members.filter fun m => m.status = .active ∧ m.id ≠ selfId
  published : r.publishedActive = r.activePeers.length

theorem after_append (r : Registry) (front : List Notice) (notice : Notice) :
    r.after (front ++ [notice]) = (r.after front).note notice := by
  rw [after, List.foldl_append, List.foldl_cons, List.foldl_nil, after]

theorem lastStatus?_append (id : NodeId) (front : List Notice) (notice : Notice) :
    lastStatus? id (front ++ [notice]) = (notice.status? id).or (lastStatus? id front) := by
  rw [lastStatus?, List.filterMap_append, List.getLast?_append, lastStatus?]
  cases marks : notice.status? id with
  | none => simp [marks]
  | some status => simp [marks]

theorem lastLeader?_append (front : List Notice) (notice : Notice) :
    lastLeader? (front ++ [notice]) = notice.leader?.or (lastLeader? front) := by
  rw [lastLeader?, List.filterMap_append, List.getLast?_append, lastLeader?]
  cases named : notice.leader? with
  | none => simp [named]
  | some id => simp [named]

theorem told_nil (m : Member) : told [] m = m := rfl

theorem told_mark (front : List Notice) (id : NodeId) (status : Status) (m : Member) :
    told (front ++ [.mark id status]) m =
      if m.id = id then { told front m with status } else told front m := by
  rw [told, lastStatus?_append, Notice.status?]
  by_cases named : id = m.id
  · simp [named, told]
  · simp [named, Ne.symm named, told]

theorem told_assign (front : List Notice) (id : NodeId) (m : Member) :
    told (front ++ [.assign id]) m =
      if m.id = id then { told front m with mode := .leader } else told front m := by
  rw [told, lastStatus?_append, Notice.status?]
  by_cases named : m.id = id
  · simp [named, told]
  · simp [named, told]

/-! ## One notice -/

theorem ordered_note {r : Registry} (ordered : r.Ordered) (notice : Notice) :
    (r.note notice).Ordered := by
  cases notice with
  | mark id status => exact ordered_mark ordered id status
  | assign id => exact ordered_assignLeader ordered id

theorem selfId_note (r : Registry) (notice : Notice) : (r.note notice).selfId = r.selfId := by
  cases notice with
  | mark id status => exact r.mark_selfId id status
  | assign id => rfl

theorem leader_note (r : Registry) (notice : Notice) :
    (r.note notice).leader = notice.leader?.or r.leader := by
  cases notice with
  | mark id status => exact r.leader_mark id status
  | assign id => rfl

/-- A mark publishes the number of active peers exactly when it changes it, and an assignment
changes no status: the published number stays right. -/
theorem published_note {r : Registry} (right : r.publishedActive = r.activePeers.length)
    (notice : Notice) :
    (r.note notice).publishedActive = (r.note notice).activePeers.length := by
  cases notice with
  | mark id status =>
    rw [note, mark_eq]
    split
    · exact right
    · rfl
  | assign id =>
    have same : (r.note (.assign id)).activePeers.length = r.activePeers.length := by
      change ((r.members.map _).filter _).length = _
      rw [List.filter_map, List.length_map]
      refine congrArg (fun kept => (List.filter kept r.members).length) (funext fun m => ?_)
      rw [Function.comp]
      split <;> rfl
    exact right.trans same.symm

theorem answer_mark {r : Registry} (ordered : r.Ordered) (id : NodeId) (status : Status) :
    (r.mark id status).1 = true ↔ ∃ m ∈ r.members, m.id = id ∧ m.status ≠ status := by
  unfold mark
  cases found : r.find? id with
  | none =>
    have unknown : ∀ m ∈ r.members, m.id ≠ id := by simpa [find?] using found
    simp only [Bool.false_eq_true, false_iff]
    rintro ⟨m, member, named, _⟩
    exact unknown m member named
  | some held =>
    have member : held ∈ r.members := List.mem_of_find?_eq_some found
    have named : held.id = id := by simpa using List.find?_some found
    have only : ∀ m ∈ r.members, m.id = id → m = held := by
      intro m among same
      rw [← same, ordered.find?_eq among] at found
      exact Option.some.inj found
    dsimp only
    split
    · rename_i same
      simp only [Bool.false_eq_true, false_iff]
      rintro ⟨m, among, known, differs⟩
      exact differs (only m among known ▸ same)
    · rename_i differs
      exact iff_of_true rfl ⟨held, member, named, differs⟩

/-! ## A whole history -/

section Histories

variable {r : Registry} (history : List Notice)

theorem ordered_after (ordered : r.Ordered) : (r.after history).Ordered := by
  induction history using List.reverseRecOn with
  | nil => exact ordered
  | append_singleton front notice ih =>
    rw [after_append]
    exact ordered_note ih notice

theorem selfId_after : (r.after history).selfId = r.selfId := by
  induction history using List.reverseRecOn with
  | nil => rfl
  | append_singleton front notice ih => rw [after_append, selfId_note, ih]

theorem leader_after : (r.after history).leader = (lastLeader? history).or r.leader := by
  induction history using List.reverseRecOn with
  | nil => rfl
  | append_singleton front notice ih =>
    rw [after_append, leader_note, lastLeader?_append, ih, Option.or_assoc]

theorem published_after (right : r.publishedActive = r.activePeers.length) :
    (r.after history).publishedActive = (r.after history).activePeers.length := by
  induction history using List.reverseRecOn with
  | nil => exact right
  | append_singleton front notice ih =>
    rw [after_append]
    exact published_note ih notice

/-- Each member stands as the history tells of it. -/
theorem members_after (ordered : r.Ordered) :
    (r.after history).members = r.members.map (told history) := by
  induction history using List.reverseRecOn with
  | nil =>
    have unchanged : told [] = id := funext told_nil
    rw [unchanged, List.map_id]
    rfl
  | append_singleton front notice ih =>
    rw [after_append]
    cases notice with
    | mark id status =>
      rw [note, (ordered_after front ordered).members_mark, ih, marked, List.map_map]
      exact List.map_congr_left fun m _ => (told_mark front id status m).symm
    | assign id =>
      change List.map _ (r.after front).members = _
      rw [ih, List.map_map]
      exact List.map_congr_left fun m _ => (told_assign front id m).symm

end Histories

/-! ## The list that a registry is made from -/

theorem find?_place (m : Member) (held : List Member) (id : NodeId) :
    (place m held).find? (fun other => other.id = id) =
      if m.id = id then some m else held.find? fun other => other.id = id := by
  induction held with
  | nil => by_cases named : m.id = id <;> simp [place, named]
  | cons first rest ih =>
    rw [place]
    split
    · by_cases named : m.id = id <;> simp [named]
    · split
      · rename_i same
        by_cases named : m.id = id <;> simp [named, ← same]
      · rename_i other
        rw [List.find?_cons, List.find?_cons, ih]
        by_cases here : first.id = id
        · have apart : m.id ≠ id := fun named => other (named.trans here.symm)
          simp [here, apart]
        · simp [here]

/-- Of the entries for one node a registry keeps the last. -/
theorem find?_ofMembers (selfId : NodeId) (listed : List Member) (id : NodeId) :
    (ofMembers selfId listed).find? id = lastListed? id listed := by
  change (canonical listed).find? _ = _
  induction listed using List.reverseRecOn with
  | nil => rfl
  | append_singleton front m ih =>
    have placed : canonical (front ++ [m]) = place m (canonical front) := by
      rw [canonical, List.foldl_append, List.foldl_cons, List.foldl_nil, canonical]
    rw [placed, find?_place, ih, lastListed?, lastListed?, List.filter_append, List.getLast?_append]
    by_cases named : m.id = id <;> simp [named]

theorem mem_listed_of_mem {selfId : NodeId} {listed : List Member} {m : Member}
    (member : m ∈ (ofMembers selfId listed).members) : m ∈ listed := by
  have found := (ordered_ofMembers selfId listed).find?_eq member
  rw [find?_ofMembers, lastListed?] at found
  exact (List.mem_filter.mp (List.mem_of_getLast? found)).1

theorem known_ofMembers (selfId : NodeId) (listed : List Member) (id : NodeId) :
    (∃ m ∈ (ofMembers selfId listed).members, m.id = id) ↔ ∃ m ∈ listed, m.id = id := by
  constructor
  · rintro ⟨m, member, named⟩
    exact ⟨m, mem_listed_of_mem member, named⟩
  · rintro ⟨m, entry, named⟩
    have some_entry : m ∈ listed.filter fun m => m.id = id :=
      List.mem_filter.mpr ⟨entry, decide_eq_true named⟩
    obtain ⟨last, found⟩ := Option.ne_none_iff_exists'.mp
      (mt List.getLast?_eq_none_iff.mp (List.ne_nil_of_mem some_entry))
    have kept : (ofMembers selfId listed).find? id = some last :=
      (find?_ofMembers selfId listed id).trans found
    exact ⟨last, List.mem_of_find?_eq_some kept, by simpa using List.find?_some kept⟩

/-- Whatever it was told, of listed nodes and of others, and however often, a registry remembers the
last mark on each node, the last leader and every listed node that was named leader, and it publishes
the number of its active peers. -/
theorem remembers_after (selfId : NodeId) (listed : List Member) (history : List Notice) :
    Remembers selfId listed history ((ofMembers selfId listed).after history) := by
  have ordered := ordered_ofMembers selfId listed
  have same_self : ((ofMembers selfId listed).after history).selfId = selfId :=
    selfId_after history
  have members := members_after history ordered
  have leader : ((ofMembers selfId listed).after history).leader = lastLeader? history :=
    (leader_after history).trans Option.or_none
  refine
    { self := same_self
      places := ?_
      ascending := ordered_after history ordered
      known := fun id => ?_
      shown := fun id => ?_
      fresh := fun unmarked => ?_
      answer := answer_mark (ordered_after history ordered)
      leader
      leads := ?_
      active := ?_
      published := published_after history rfl }
  · rw [members, List.map_map]
    rfl
  · refine Iff.trans ?_ (known_ofMembers selfId listed id)
    rw [members]
    constructor
    · rintro ⟨m, shown, named⟩
      obtain ⟨first, member, rfl⟩ := List.mem_map.mp shown
      exact ⟨first, member, named⟩
    · rintro ⟨first, member, named⟩
      exact ⟨told history first, List.mem_map_of_mem member, named⟩
  · have same_id : ∀ m, (told history m).id = m.id := fun m => rfl
    rw [find?_map same_id members, find?_ofMembers]
  · rw [members]
    intro m shown
    obtain ⟨first, member, rfl⟩ := List.mem_map.mp shown
    obtain ⟨active, follower⟩ := unmarked first (mem_listed_of_mem member)
    simp [told, active, follower]
  · rw [isSelfLeader, same_self, leader]
    exact decide_eq_true_iff
  · rw [activePeers, activeAmong, same_self]
    refine List.filter_congr fun m _ => ?_
    rw [Member.isActive, Bool.and_comm, Bool.decide_and]

end OrderCluster.Registry
