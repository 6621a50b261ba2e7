import OrderCluster.Proofs.Node
import OrderCluster.Replication.Site

/-!
# What calls to peers touch

When a call to a peer ends, the node counts it and perhaps notes the peer as offline. So whatever
the peers answer, and however long they take, the log, the counter and the catalog of the node that
calls stay as they are until a sync concludes.
-/

namespace OrderCluster

/-- Two desks that differ at most in the registry and the counts of the node. -/
structure Desk.SameBooks (d d' : Desk κ) : Prop where
  storage : d'.node.storage = d.node.storage
  counter : d'.node.counter = d.node.counter
  catalog : d'.catalog = d.catalog

namespace Desk.SameBooks

theorem refl (d : Desk κ) : d.SameBooks d := ⟨rfl, rfl, rfl⟩

theorem trans {a b c : Desk κ} (hab : a.SameBooks b) (hbc : b.SameBooks c) : a.SameBooks c :=
  ⟨hbc.storage.trans hab.storage, hbc.counter.trans hab.counter, hbc.catalog.trans hab.catalog⟩

theorem ahead {d d' : Desk κ} (same : d.SameBooks d') (ahead : d.node.Ahead) : d'.node.Ahead := by
  apply ahead.keep
  · rw [same.storage]
  · rw [same.counter]
    exact Int64.le_refl _

end Desk.SameBooks

namespace Replication

/-- The kind of call that an errand is. -/
def Errand.kind : Errand → CallKind
  | .fetch _ => .fetch
  | .accept _ => .accept

theorem mem_peersWhere {p : Verdict → Bool} {ended : List Ended} {id : NodeId} :
    id ∈ peersWhere p ended ↔ ∃ e ∈ ended, e.1 = id ∧ p e.2 = true := by
  rw [peersWhere, List.mem_mergeSort, List.mem_map]
  constructor
  · rintro ⟨e, member, named⟩
    obtain ⟨among, holds⟩ := List.mem_filter.mp member
    exact ⟨e, among, named, holds⟩
  · rintro ⟨e, among, named, holds⟩
    exact ⟨e, List.mem_filter.mpr ⟨among, holds⟩, named⟩

/-- The desk after a call that ended was counted and a failed peer noted. -/
def settled (kind : CallKind) (peer : NodeId) (verdict : Verdict) (d : Desk κ) : Desk κ :=
  { d with
    node :=
      { d.node with
        registry :=
          if verdict.isFailed then (d.node.registry.mark peer .offline).2 else d.node.registry
        metrics := d.node.metrics.add (.replicationCalls kind verdict.outcome) 1 } }

theorem sameBooks_settled (kind : CallKind) (peer : NodeId) (verdict : Verdict) (d : Desk κ) :
    d.SameBooks (settled kind peer verdict d) := ⟨rfl, rfl, rfl⟩

theorem sameBooks_kept (d : Desk κ) (kind : CallKind) (peer : NodeId) (verdict : Verdict)
    (d' : Desk κ) (same : d.SameBooks d') : d.SameBooks (settled kind peer verdict d') :=
  same.trans (sameBooks_settled kind peer verdict d')

@[simp] theorem perform_settle {κ : Type} [Catalog κ] (kind : CallKind) (peer : NodeId)
    (verdict : Verdict) (d : Desk κ) :
    (settle kind peer verdict).perform d = ((), settled kind peer verdict d) := by
  simp only [settle, Work.perform_bind, Work.perform_tally]
  cases verdict <;> rfl

namespace Site

variable {κ σ : Type} [Catalog κ] [Peers σ]

omit [Peers σ] in
theorem desk_work (s : Site κ σ) (task : Work α) :
    (s.work task).2.desk = (task.perform s.desk).2 := rfl

omit [Peers σ] in
theorem get?_work {s : Site κ σ} {k : OrderNumber} {order : Order}
    (found : s.desk.node.storage.log.get? k = some order) (task : Work α) :
    (s.work task).2.desk.node.storage.log.get? k = some order := by
  rw [desk_work]
  exact task.get?_perform found

omit [Peers σ] in
/-- No task moves the counter back. -/
theorem next_le_work (s : Site κ σ) (task : Work α) :
    s.desk.node.counter.next ≤ (s.work task).2.desk.node.counter.next := by
  rw [desk_work]
  exact task.next_le_perform s.desk

/-- The site after a call has landed and was settled. -/
def landed (s : Site κ σ) (landing : Landing σ) : Site κ σ :=
  { s with
    desk := settled landing.call.errand.kind landing.call.member.id landing.verdict s.desk
    lanes := landing.lanes
    rounds := (s.rounds.map (Round.note landing.call landing.verdict)).filter (·.left ≠ 0) }

/-- The round whose last call has just landed, if there is one. -/
def completed? (s : Site κ σ) (landing : Landing σ) : Option Round :=
  (s.rounds.map (Round.note landing.call landing.verdict)).find? (·.left = 0)

theorem landNext?_eq (s : Site κ σ) (horizon : Option Nat) :
    s.landNext? horizon =
      (s.lanes.landNext? horizon).map fun landing => (s.completed? landing, s.landed landing) := by
  cases h : s.lanes.landNext? horizon with
  | none => simp only [landNext?, h, Option.bind_eq_bind, Option.bind_none, Option.map_none]
  | some landing =>
    simp only [landNext?, h, Option.bind_eq_bind, Option.bind_some, Option.map_some, work,
      perform_settle]
    rfl

/-! What the settling of every call keeps of the desk, every wait for calls keeps. -/
section Kept

variable {P : Desk κ → Prop}
  (kept : ∀ kind peer verdict d, P d → P (settled kind peer verdict d))

include kept

theorem desk_landNext? {s s' : Site κ σ} {horizon : Option Nat} {finished : Option Round}
    (h : s.landNext? horizon = some (finished, s')) (holds : P s.desk) : P s'.desk := by
  rw [landNext?_eq, Option.map_eq_some_iff] at h
  obtain ⟨landing, _, eq⟩ := h
  cases eq
  exact kept _ _ _ _ holds

theorem desk_awaitWith (ticket fuel : Nat) {s : Site κ σ} (holds : P s.desk) :
    P (awaitWith ticket fuel s).2.desk := by
  induction fuel generalizing s with
  | zero => exact holds
  | succ fuel ih =>
    rw [awaitWith]
    cases h : s.landNext? none with
    | none => exact holds
    | some landed =>
      obtain ⟨finished, s'⟩ := landed
      have later := desk_landNext? kept h holds
      cases finished with
      | none => exact ih later
      | some r =>
        by_cases mine : r.ticket = ticket
        · simp only [mine, if_true]
          exact later
        · simp only [mine, if_false]
          exact ih later

theorem desk_call {s : Site κ σ} (kind : CallKind) (members : List Member) (errand : Errand)
    (holds : P s.desk) : P (s.call kind members errand).2.desk := by
  simp only [call]
  split
  · exact holds
  · exact desk_awaitWith kept _ _ (s := (s.launch kind members errand).2) holds

theorem desk_landAllWith (horizon fuel : Nat) {s : Site κ σ} (holds : P s.desk) :
    P (landAllWith horizon fuel s).desk := by
  induction fuel generalizing s with
  | zero => exact holds
  | succ fuel ih =>
    rw [landAllWith]
    cases h : s.landNext? (some horizon) with
    | none => exact holds
    | some landed =>
      obtain ⟨finished, s'⟩ := landed
      exact ih (desk_landNext? kept h holds)

theorem desk_advance {s : Site κ σ} (millis : Nat) (holds : P s.desk) :
    P (s.advance millis).desk :=
  desk_landAllWith kept _ _ holds

theorem desk_drain {s : Site κ σ} (grace : Nat) (holds : P s.desk) :
    P (s.drain grace).2.desk := by
  have landed : P (s.landAll (s.lanes.now + grace)).desk := desk_landAllWith kept _ _ holds
  simp only [drain]
  split <;> exact landed

theorem desk_fanOut {s : Site κ σ} (order : Order) (holds : P s.desk) :
    P (s.fanOut order).2.desk :=
  desk_call kept .accept s.desk.node.registry.activePeers
    (.accept ⟨order, s.desk.node.registry.selfId⟩) holds

end Kept

theorem ended_of_nobody (s : Site κ σ) (kind : CallKind) (errand : Errand) :
    (s.call kind [] errand).1 = [] := by
  simp only [call, List.isEmpty_nil, if_true]

/-- A push is one round of calls to the peers that are active when it begins. -/
theorem fanOut_snd (s : Site κ σ) (order : Order) :
    (s.fanOut order).2 =
      (s.call .accept s.desk.node.registry.activePeers
        (.accept ⟨order, s.desk.node.registry.selfId⟩)).2 := rfl

theorem sameBooks_call (s : Site κ σ) (kind : CallKind) (members : List Member) (errand : Errand) :
    s.desk.SameBooks (s.call kind members errand).2.desk :=
  desk_call (sameBooks_kept s.desk) kind members errand (.refl _)

theorem sameBooks_advance (s : Site κ σ) (millis : Nat) :
    s.desk.SameBooks (s.advance millis).desk :=
  desk_advance (sameBooks_kept s.desk) millis (.refl _)

theorem sameBooks_drain (s : Site κ σ) (grace : Nat) :
    s.desk.SameBooks (s.drain grace).2.desk :=
  desk_drain (sameBooks_kept s.desk) grace (.refl _)

theorem sameBooks_fanOut (s : Site κ σ) (order : Order) :
    s.desk.SameBooks (s.fanOut order).2.desk :=
  desk_fanOut (sameBooks_kept s.desk) order (.refl _)

end Site

end Replication

end OrderCluster
