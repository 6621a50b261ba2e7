import OrderCluster.Proofs.Prefix
import OrderCluster.Proofs.Registry
import OrderCluster.Proofs.Replication.Landing
import OrderCluster.Proofs.Service.Buy
import OrderCluster.Proofs.Steady.World

/-!
# What holds at every moment

In a world with a steady leader every log is a prefix of the leader's at every moment, also while
calls are under way. A pushed order may arrive at any time, since the node that it was pushed to
misses nothing below it.

What concerns one node alone is kept by every action of that node. So a change to a desk that only
adds orders keeps the whole invariant if the log stays a prefix.
-/

namespace OrderCluster

/-- What is true of a node by itself: its log is in order and survives, the calls on which a served
fetch rests do not fail, and the registry is that of the node. -/
structure Node.Fit (id : NodeId) (n : Node) : Prop where
  keyed : n.storage.log.Keyed
  lasting : n.storage.log.isLasting = true
  usable : World.Usable n.storage.outage
  named : n.registry.selfId = id
  ordered : n.registry.Ordered

section Fit

variable {κ : Type} [Catalog κ] {id : NodeId}

theorem Action.fit_perform (a : Action) {d : Desk κ} (fit : d.node.Fit id) :
    (a.perform d).2.node.Fit id := by
  constructor
  · exact keyed_perform a fit.keyed
  · exact lasting_perform a fit.lasting
  · rw [outage_perform]
    exact fit.usable
  · cases a with
    | mark peer status => exact (Registry.mark_selfId _ peer status).trans fit.named
    | _ => exact fit.named
  · cases a with
    | mark peer status => exact Registry.ordered_mark fit.ordered peer status
    | assignLeader peer => exact Registry.ordered_assignLeader fit.ordered peer
    | _ => exact fit.ordered

theorem Work.fit_perform (task : Work α) {d : Desk κ} (fit : d.node.Fit id) :
    (task.perform d).2.node.Fit id := by
  induction task generalizing d with
  | done a => exact fit
  | act a next ih => exact ih _ (a.fit_perform fit)

omit [Catalog κ] in
/-- A node that is opened over a log in order is fit. -/
theorem Service.fit_openNode {log : OrderLog} {outage : LogCall → Option Failure}
    {listed : List Member} {n : Node} (keyed : log.Keyed) (lasting : log.isLasting = true)
    (usable : World.Usable outage)
    (opened : openNode ⟨log, outage⟩ (.ofMembers id listed) = .ok n) : n.Fit id := by
  have registry := (counter_openNode opened).2
  have storage := (ahead_openNode opened).1
  constructor
  · rw [storage]
    exact keyed
  · rw [storage]
    exact lasting
  · rw [storage]
    exact usable
  · rw [registry]
    rfl
  · rw [registry]
    exact Registry.ordered_ofMembers id listed

end Fit

namespace World

open Replication

variable {κ : Type} {leader id : NodeId} {w : World κ}

@[simp] theorem put_self (w : World κ) (id : NodeId) (d : Desk κ) : (w.put id d).desks id = d :=
  if_pos rfl

theorem put_of_ne {other : NodeId} (ne : other ≠ id) (w : World κ) (d : Desk κ) :
    (w.put id d).desks other = w.desks other := if_neg ne

theorem put_put (w : World κ) (id : NodeId) (d d' : Desk κ) :
    (w.put id d).put id d' = w.put id d' := by
  have same : ((w.put id d).put id d').desks = (w.put id d').desks := by
    funext other
    by_cases eq : other = id
    · rw [eq, put_self, put_self]
    · rw [put_of_ne eq, put_of_ne eq, put_of_ne eq]
  exact congrArg (fun desks => { w with desks := desks }) same

theorem put_comm {other : NodeId} (ne : other ≠ id) (w : World κ) (d d' : Desk κ) :
    (w.put id d).put other d' = (w.put other d').put id d := by
  have same : ((w.put id d).put other d').desks = ((w.put other d').put id d).desks := by
    funext third
    by_cases at_other : third = other
    · rw [at_other, put_self, put_of_ne ne, put_self]
    · rw [put_of_ne at_other]
      by_cases at_id : third = id
      · rw [at_id, put_self, put_self]
      · rw [put_of_ne at_id, put_of_ne at_id, put_of_ne at_other]
  exact congrArg (fun desks => { w with desks := desks }) same

theorem log_put (w : World κ) (id : NodeId) (d : Desk κ) :
    (w.put id d).log id = d.node.storage.log := by
  rw [log, put_self]

theorem log_put_of_ne {other : NodeId} (ne : other ≠ id) (w : World κ) (d : Desk κ) :
    (w.put id d).log other = w.log other := by
  rw [log, put_of_ne ne, log]

theorem put_desks (w : World κ) (id : NodeId) : w.put id (w.desks id) = w := by
  unfold put
  have same : (fun other => if other = id then w.desks id else w.desks other) = w.desks := by
    funext other
    split
    · rename_i eq
      rw [eq]
    · rfl
  rw [same]

/-- What holds of the desk that is put and of every other desk holds of all desks. -/
theorem forall_put {P : NodeId → Desk κ → Prop} {d : Desk κ} (changed : P id d)
    (others : ∀ other, P other (w.desks other)) (other : NodeId) :
    P other ((w.put id d).desks other) := by
  by_cases eq : other = id
  · rw [eq, put_self]
    exact changed
  · rw [put_of_ne eq]
    exact others other

/-- What is true at every moment. -/
structure Sound (leader : NodeId) (w : World κ) : Prop where
  fit : ∀ id, (w.desks id).node.Fit id
  ahead : (w.desks leader).node.Ahead
  started : 0 < (w.desks leader).node.counter.next
  positive : (w.log leader).Positive
  follows : ∀ id, (w.log id).PrefixOf (w.log leader)
  /-- A pushed order is held by the leader, and the node that it was pushed to misses nothing
  below it. -/
  sent : ∀ p ∈ w.sent, (w.log leader).Holds p.2.order ∧
    (w.log p.1).Reaches (w.log leader) p.2.order.number

/-- Every peer that the leader trusts holds all that the leader holds. -/
def Current (leader : NodeId) (w : World κ) : Prop :=
  ∀ id, (w.registry leader).Trusts id → (w.log id).Covers (w.log leader)

theorem Sound.keyed (sound : w.Sound leader) (id : NodeId) : (w.log id).Keyed :=
  (sound.fit id).keyed

/-- Where one log only grows, every log covers what it was. -/
theorem covers_put {d : Desk κ} (grown : d.node.storage.log.Covers (w.log id)) (other : NodeId) :
    ((w.put id d).log other).Covers (w.log other) :=
  forall_put (P := fun other d => d.node.storage.log.Covers (w.log other)) grown
    (fun _ => .refl _) other

/-- Where one log stays a prefix of the leader's, the leader holds nothing new. -/
theorem lead_covers_put {d : Desk κ} (follows : d.node.storage.log.PrefixOf (w.log leader)) :
    (w.log leader).Covers ((w.put id d).log leader) :=
  forall_put (P := fun other d => other = leader → (w.log leader).Covers d.node.storage.log)
    (fun _ => follows.within) (fun other eq => by rw [eq]; exact .refl _) leader rfl

/-- A desk may change so that its log only grows and stays a prefix. -/
theorem Sound.put (sound : w.Sound leader) {d : Desk κ} (fit : d.node.Fit id)
    (grown : d.node.storage.log.Covers (w.log id))
    (follows : d.node.storage.log.PrefixOf (w.log leader))
    (lead : id = leader → d.node.Ahead ∧ 0 < d.node.counter.next) :
    (w.put id d).Sound leader := by
  have same : (w.log leader).Covers ((w.put id d).log leader) := lead_covers_put follows
  have lead_after : ((w.put id d).desks leader).node.Ahead ∧
      0 < ((w.put id d).desks leader).node.counter.next := by
    by_cases eq : leader = id
    · rw [eq, put_self]
      exact lead eq.symm
    · rw [put_of_ne eq]
      exact ⟨sound.ahead, sound.started⟩
  constructor
  · exact forall_put (P := fun other d => d.node.Fit other) fit sound.fit
  · exact lead_after.1
  · exact lead_after.2
  · exact fun k order found => sound.positive k order (same k order found)
  · intro other
    exact (forall_put (P := fun _ d => d.node.storage.log.PrefixOf (w.log leader)) follows
      sound.follows other).of_lead (covers_put grown leader) same
  · intro p member
    obtain ⟨held, reaches⟩ := sound.sent p member
    exact ⟨covers_put grown leader _ _ held, (reaches.grow (covers_put grown p.1)).of_lead same⟩

/-- A desk may change so that its log only grows and stays a prefix, and the leader trusts nobody
else. -/
theorem Current.put (current : w.Current leader) {d : Desk κ}
    (grown : d.node.storage.log.Covers (w.log id))
    (follows : d.node.storage.log.PrefixOf (w.log leader))
    (registry : id = leader → ∀ other, d.node.registry.Trusts other →
      (w.registry leader).Trusts other) :
    (w.put id d).Current leader := by
  intro other trusts
  have before : (w.registry leader).Trusts other := by
    by_cases eq : leader = id
    · rw [World.registry, eq, put_self] at trusts
      exact registry eq.symm other trusts
    · rwa [World.registry, put_of_ne eq] at trusts
  exact ((covers_put grown other).trans (current other before)).trans (lead_covers_put follows)

/-- A pushed order may be noted, if the node that it is pushed to misses nothing below it. -/
theorem Sound.note (sound : w.Sound leader) {request : AcceptRequest}
    (held : (w.log leader).Holds request.order)
    (reaches : (w.log id).Reaches (w.log leader) request.order.number) :
    ({ w with sent := w.sent ++ [(id, request)] } : World κ).Sound leader := by
  refine { sound with sent := fun p member => ?_ }
  rcases List.mem_append.mp member with old | new
  · exact sound.sent p old
  · rw [List.mem_singleton.mp new]
    exact ⟨held, reaches⟩

/-- After a call was settled no more peers are trusted, and not the one whose call failed. -/
theorem trusts_settled {d : Desk κ} (ordered : d.node.registry.Ordered) {kind : CallKind}
    {peer other : NodeId} {verdict : Verdict}
    (trusts : (settled kind peer verdict d).node.registry.Trusts other) :
    d.node.registry.Trusts other ∧ (verdict.isFailed = true → other ≠ peer) := by
  cases failed : verdict.isFailed with
  | true =>
    simp only [settled, failed, if_true] at trusts
    obtain ⟨ne, before⟩ := ordered.trusts_mark_offline trusts
    exact ⟨before, fun _ => ne⟩
  | false =>
    simp only [settled, failed, Bool.false_eq_true, if_false] at trusts
    exact ⟨trusts, fun absurd_failed => by cases absurd_failed⟩

variable [Catalog κ]

theorem put_work {other : NodeId} (ne : id ≠ other) (w : World κ) (task : Work α) (d : Desk κ) :
    (w.work id task).put other d = (w.put other d).work id task := by
  rw [World.work, World.work, put_of_ne ne, put_comm (Ne.symm ne)]

theorem covers_work (w : World κ) (id : NodeId) (task : Work α) (other : NodeId) :
    ((w.work id task).log other).Covers (w.log other) :=
  covers_put (fun _ _ found => task.get?_perform found) other

/-- A node may do any task after which its log is still a prefix. -/
theorem Sound.work (sound : w.Sound leader) {task : Work α}
    (follows : (task.perform (w.desks id)).2.node.storage.log.PrefixOf (w.log leader))
    (ahead : (w.desks id).node.Ahead → (task.perform (w.desks id)).2.node.Ahead) :
    (w.work id task).Sound leader := by
  refine sound.put (task.fit_perform (sound.fit id)) ?_ follows ?_
  · exact fun k order found => task.get?_perform found
  · intro eq
    refine ⟨ahead ?_, Int64.lt_of_lt_of_le ?_ (task.next_le_perform _)⟩
    · rw [eq]
      exact sound.ahead
    · rw [eq]
      exact sound.started

/-- A node may do any task that writes nothing. -/
theorem Sound.work_of_unwritten (sound : w.Sound leader) {task : Work α}
    (unwritten : (task.perform (w.desks id)).2.node.storage.log = w.log id) :
    (w.work id task).Sound leader := by
  refine sound.work ?_ fun ahead => ?_
  · rw [unwritten]
    exact sound.follows id
  · exact ahead.keep unwritten (task.next_le_perform _)

/-- A node may do any task after which its log is still a prefix, and the leader trusts nobody
else. -/
theorem Current.work (current : w.Current leader) {task : Work α}
    (follows : (task.perform (w.desks id)).2.node.storage.log.PrefixOf (w.log leader))
    (registry : ∀ other, (task.perform (w.desks id)).2.node.registry.Trusts other →
      (w.registry id).Trusts other) : (w.work id task).Current leader := by
  refine current.put (fun _ _ found => task.get?_perform found) follows ?_
  rintro rfl
  exact registry

theorem Sound.fetch (sound : w.Sound leader) (request : FetchRequest) :
    (w.work id (Service.fetch request)).Sound leader := by
  refine sound.work_of_unwritten ?_
  rw [Service.perform_fetch]
  rfl

theorem Sound.assign (sound : w.Sound leader) (request : LeaderAssignment) :
    (w.work id (Service.assign request)).Sound leader := by
  refine sound.work_of_unwritten ?_
  rw [(Service.assign_cases request _).1]
  rfl

/-- A node may take an order of the leader below which it misses nothing. -/
theorem Sound.follows_accept (sound : w.Sound leader) {request : AcceptRequest}
    (held : (w.log leader).Holds request.order)
    (reaches : (w.log id).Reaches (w.log leader) request.order.number) :
    ((Service.accept request).perform (w.desks id)).2.node.storage.log.PrefixOf
      (w.log leader) := by
  rcases (Service.acceptEnd_accept request (w.desks id)).log with ⟨_, same⟩ | written
  · rw [same]
    exact sound.follows id
  · rw [written]
    exact (sound.follows id).insert held reaches

theorem Sound.accept (sound : w.Sound leader) {request : AcceptRequest}
    (held : (w.log leader).Holds request.order)
    (reaches : (w.log id).Reaches (w.log leader) request.order.number) :
    (w.work id (Service.accept request)).Sound leader :=
  sound.work (sound.follows_accept held reaches)
    (Service.acceptEnd_accept request (w.desks id)).ahead

/-- The node at work may settle a call. -/
theorem Sound.settled {d : Desk κ} (sound : (w.put id d).Sound leader) (kind : CallKind)
    (peer : NodeId) (verdict : Verdict) :
    (w.put id (settled kind peer verdict d)).Sound leader := by
  have eq : (w.put id d).work id (settle kind peer verdict) =
      w.put id (Replication.settled kind peer verdict d) := by
    rw [World.work, put_self, perform_settle, put_put]
  rw [← eq]
  refine sound.work_of_unwritten ?_
  rw [put_self, perform_settle, log_put]
  rfl

/-- A node that has taken an order, and says so, holds it. -/
theorem Sound.held_of_accepted (sound : w.Sound leader) {request : AcceptRequest}
    (held : (w.log leader).Holds request.order)
    (reaches : (w.log id).Reaches (w.log leader) request.order.number)
    {response : AcceptResponse}
    (accepted : ((Service.accept request).perform (w.desks id)).1 = .ok response) :
    ((w.work id (Service.accept request)).log id).Holds request.order := by
  have follows := (sound.accept held reaches).follows id
  have how := Service.acceptEnd_accept request (w.desks id)
  rcases how.log with ⟨⟨e, failed⟩, _⟩ | written
  · rw [accepted] at failed
    cases failed
  · have written_there : (w.work id (Service.accept request)).log id =
        ((w.log id).insert request.order).2 := (log_put _ _ _).trans written
    rw [written_there]
    unfold OrderLog.Holds
    rw [OrderLog.get?_insert]
    cases before : (w.log id).get? request.order.number with
    | none => rw [Option.none_or, if_pos rfl]
    | some old =>
      have same := (sound.follows id).within _ _ before
      unfold OrderLog.Holds at held
      rw [held] at same
      rw [Option.some_or, same]

end World

end OrderCluster
