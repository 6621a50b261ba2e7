import OrderCluster.Proofs.Replication.Rounds
import OrderCluster.Proofs.Steady.Sound

/-!
# How the leader pushes an order

While an order is pushed, every peer that the leader trusts either holds all that the leader holds,
or has its call still to come. A call that fails costs the peer the leader's trust; a peer that has
taken the order misses nothing, since it missed nothing below the order when the push began. So
when all calls have ended, every peer that is still trusted holds everything.
-/

namespace OrderCluster

open Replication

variable {κ : Type} [Catalog κ]

namespace World

/-- While the leader, which has just placed an order, pushes it. -/
structure Pushing (leader : NodeId) (order : Order) (pending : List Call) (d : Desk κ)
    (w : World κ) : Prop where
  sound : (w.put leader d).Sound leader
  held : d.node.storage.log.Holds order
  top : ∀ k other, d.node.storage.log.get? k = some other → k ≤ order.number
  /-- A peer that is still to be called misses nothing below the order. -/
  waits : ∀ call ∈ pending, call.member.id ≠ leader ∧
    call.errand = .accept ⟨order, leader⟩ ∧
    (w.log call.member.id).Reaches d.node.storage.log order.number
  /-- A peer that is trusted misses nothing, or is still to be called. -/
  reached : ∀ id, d.node.registry.Trusts id →
    (w.log id).Covers d.node.storage.log ∨ ∃ call ∈ pending, call.member.id = id

variable {leader : NodeId} {order : Order} {call : Call} {pending : List Call} {d : Desk κ}
  {w : World κ}

omit [Catalog κ] in
theorem Pushing.depart (pushing : Pushing leader order pending d w) (member : call ∈ pending) :
    Pushing leader order pending d
      { w with sent := w.sent ++ [(call.member.id, ⟨order, leader⟩)] } := by
  obtain ⟨other, _, reaches⟩ := pushing.waits call member
  refine { pushing with sound := ?_ }
  refine @Sound.note _ _ _ (w.put leader d) pushing.sound _ ?_ ?_
  · rw [log_put]
    exact pushing.held
  · rw [log_put, log_put_of_ne other]
    exact reaches

/-- A call has failed, or its peer misses nothing now. -/
theorem Pushing.settle (pushing : Pushing leader order (call :: pending) d w) {kind : CallKind}
    {verdict : Verdict}
    (result : verdict.isFailed = true ∨ (w.log call.member.id).Covers d.node.storage.log) :
    Pushing leader order pending (settled kind call.member.id verdict d) w := by
  constructor
  · exact pushing.sound.settled kind call.member.id verdict
  · exact pushing.held
  · exact pushing.top
  · exact fun other later => pushing.waits other (List.mem_cons_of_mem _ later)
  · intro id trusts
    have ordered : d.node.registry.Ordered := by
      have fit := (pushing.sound.fit leader).ordered
      rwa [put_self] at fit
    obtain ⟨before, not_failed⟩ := trusts_settled ordered trusts
    rcases pushing.reached id before with covers | ⟨other, among, named⟩
    · exact Or.inl covers
    · rcases List.mem_cons.mp among with rfl | later
      · rcases result with failed | covers
        · exact absurd named.symm (not_failed failed)
        · rw [named] at covers
          exact Or.inl covers
      · exact Or.inr ⟨other, later, named⟩

theorem Pushing.serve (pushing : Pushing leader order (call :: pending) d w) :
    Pushing leader order (call :: pending) d
      (w.work call.member.id (Service.accept ⟨order, leader⟩)) := by
  obtain ⟨other, _, reaches⟩ := pushing.waits call List.mem_cons_self
  have grown := covers_work w call.member.id (Service.accept ⟨order, leader⟩)
  constructor
  · rw [put_work other]
    refine pushing.sound.accept ?_ ?_
    · rw [log_put]
      exact pushing.held
    · rw [log_put, log_put_of_ne other]
      exact reaches
  · exact pushing.held
  · exact pushing.top
  · intro next member
    obtain ⟨not_leader, errand, below⟩ := pushing.waits next member
    exact ⟨not_leader, errand, below.grow (grown _)⟩
  · intro id trusts
    rcases pushing.reached id trusts with covers | later
    · exact Or.inl ((grown id).trans covers)
    · exact Or.inr later

/-- A peer that has taken the order, and says so, misses nothing. -/
theorem Pushing.covers_of_accepted (pushing : Pushing leader order (call :: pending) d w)
    {response : AcceptResponse}
    (accepted : ((Service.accept ⟨order, leader⟩).perform (w.desks call.member.id)).1 =
      .ok response) :
    ((w.work call.member.id (Service.accept ⟨order, leader⟩)).log call.member.id).Covers
      d.node.storage.log := by
  obtain ⟨other, _, below⟩ := pushing.serve.waits call List.mem_cons_self
  obtain ⟨_, _, reaches⟩ := pushing.waits call List.mem_cons_self
  have holds := @Sound.held_of_accepted _ leader call.member.id (w.put leader d) _
    pushing.sound ⟨order, leader⟩ (by rw [log_put]; exact pushing.held)
    (by rw [log_put, log_put_of_ne other]; exact reaches) response
    (by rw [put_of_ne other]; exact accepted)
  rw [← put_work other, log_put_of_ne other] at holds
  intro k held found
  rcases Int64.le_iff_lt_or_eq.mp (pushing.top k held found) with lower | rfl
  · exact below k held lower found
  · have same := pushing.held
    unfold OrderLog.Holds at same holds
    rw [found] at same
    rw [holds, ← same]

omit [Catalog κ] in
theorem Pushing.perm {pending' : List Call} (pushing : Pushing leader order pending d w)
    (perm : pending.Perm pending') : Pushing leader order pending' d w := by
  refine { pushing with waits := fun call member => ?_, reached := fun id trusts => ?_ }
  · exact pushing.waits call (perm.mem_iff.mpr member)
  · rcases pushing.reached id trusts with covers | ⟨call, member, named⟩
    · exact Or.inl covers
    · exact Or.inr ⟨call, perm.mem_iff.mp member, named⟩

omit [Catalog κ] in
/-- When all calls have ended, every peer that is still trusted misses nothing. -/
theorem Pushing.current (pushing : Pushing leader order [] d w) :
    (w.put leader d).Current leader := by
  intro id trusts
  rw [registry, put_self] at trusts
  rw [log_put]
  by_cases eq : id = leader
  · rw [eq, log_put]
    exact .refl _
  · rw [log_put_of_ne eq]
    rcases pushing.reached id trusts with covers | ⟨_, member, _⟩
    · exact covers
    · cases member

/-- Whatever becomes of the calls of a push, what holds of them is kept. -/
theorem kept_pushing (leader : NodeId) (order : Order) :
    Kept fun pending _ d (net : Net κ) => Pushing leader order pending d net.world := by
  constructor
  · exact fun perm pushing => pushing.perm perm
  · intro call pending ended d net member pushing
    obtain ⟨_, errand, _⟩ := pushing.waits call member
    rw [errand]
    exact pushing.depart member
  · intro call pending ended d net departure pushing
    obtain ⟨_, errand, _⟩ := pushing.waits call List.mem_cons_self
    rw [errand]
    rcases net.arrive_accept call.member departure ⟨order, leader⟩ with
      ⟨same, failed⟩ | ⟨served, result⟩
    · rw [same]
      exact pushing.settle (Or.inl failed)
    · rw [served]
      refine pushing.serve.settle ?_
      rcases result with failed | ⟨response, accepted⟩
      · exact Or.inl failed
      · exact Or.inr (pushing.covers_of_accepted accepted)
  · exact fun deadline pushing => pushing.settle (Or.inl rfl)

/-! ## A whole buy -/

/-- The leader commits an order above all that is held. -/
theorem Sound.placed (sound : w.Sound leader) {strict : Bool} {request : BuyRequest}
    (answer : ((Service.buy strict request).perform (w.desks leader)).1 = .placed order) :
    (w.work leader (Service.buy strict request)).Sound leader := by
  have how := Service.buyEnd_buy strict request (w.desks leader)
  rw [answer] at how
  have top : ∀ k held, (w.log leader).get? k = some held → k < order.number :=
    fun k held found => how.above_held sound.ahead found
  have next := (Service.buy strict request).next_le_perform (w.desks leader)
  have lead : (w.work leader (Service.buy strict request)).log leader =
      ((w.log leader).insert order).2 := (log_put _ _ _).trans how.log_of_placed
  constructor
  · exact forall_put (P := fun other d => d.node.Fit other)
      ((Service.buy strict request).fit_perform (sound.fit leader)) sound.fit
  · rw [World.work, put_self]
    exact how.ahead sound.ahead
  · rw [World.work, put_self]
    exact Int64.lt_of_lt_of_le sound.started next
  · rw [lead]
    intro k held found
    rcases OrderLog.get?_insert_cases found with old | ⟨_, _, rfl⟩
    · exact sound.positive k held old
    · rw [← how.of_placed.1]
      exact sound.started
  · rw [lead]
    refine forall_put (P := fun _ d => d.node.storage.log.PrefixOf _) ?_ fun other => ?_
    · rw [how.log_of_placed]
      exact .refl _
    · exact (sound.follows other).insert_lead top
  · rw [lead]
    intro p member
    obtain ⟨held, reaches⟩ := sound.sent p member
    refine ⟨OrderLog.covers_insert _ order _ _ held, ?_⟩
    exact (reaches.insert_lead (Int64.le_of_lt (top _ _ held))).grow (covers_work _ _ _ _)

theorem pushing_of_placed (sound : w.Sound leader) (current : w.Current leader) {strict : Bool}
    {request : BuyRequest}
    (answer : ((Service.buy strict request).perform (w.desks leader)).1 = .placed order)
    (ticket : Nat) :
    let d := ((Service.buy strict request).perform (w.desks leader)).2
    Pushing leader order
      (d.node.registry.activePeers.map fun m =>
        ⟨ticket, m, .accept ⟨order, d.node.registry.selfId⟩⟩) d w := by
  intro d
  have how := Service.buyEnd_buy strict request (w.desks leader)
  rw [answer] at how
  have registry : d.node.registry = w.registry leader := how.registry
  have named : (w.registry leader).selfId = leader := (sound.fit leader).named
  have lead : d.node.storage.log = ((w.log leader).insert order).2 := how.log_of_placed
  constructor
  · exact sound.placed answer
  · exact how.of_placed.2.2.2.2.2
  · intro k other found
    rw [lead] at found
    rcases OrderLog.get?_insert_cases found with old | ⟨_, _, rfl⟩
    · exact Int64.le_of_lt (how.above_held sound.ahead old)
    · exact Int64.le_refl _
  · intro call member
    obtain ⟨m, active, rfl⟩ := List.mem_map.mp member
    rw [registry] at active ⊢
    have trusts : (w.registry leader).Trusts m.id := ⟨m, active, rfl⟩
    refine ⟨?_, by rw [named], ?_⟩
    · have other := ((sound.fit leader).ordered.trusts_iff.mp trusts).1
      rwa [(sound.fit leader).named] at other
    · rw [lead]
      exact ((current m.id trusts).reaches order.number).insert_lead (Int64.le_refl _)
  · rintro id ⟨m, active, rfl⟩
    exact Or.inr ⟨_, List.mem_map.mpr ⟨m, active, rfl⟩, rfl⟩

theorem buy_eq (w : World κ) (id : NodeId) (weather : Weather) (request : BuyRequest) :
    w.buy id weather request =
      match ((Service.buy w.strict request).perform (w.desks id)).1.owed? with
      | none => w.work id (Service.buy w.strict request)
      | some order =>
        leave id (((w.site id weather).work (Service.buy w.strict request)).2.fanOut order).2 :=
  rfl

/-- A buy of the leader, with its push, leaves every peer that is still trusted with all that the
leader holds. -/
theorem buy_keeps (sound : w.Sound leader) (current : w.Current leader) (weather : Weather)
    (request : BuyRequest) :
    (w.buy leader weather request).Sound leader ∧
      (w.buy leader weather request).Current leader := by
  have how := Service.buyEnd_buy w.strict request (w.desks leader)
  rw [buy_eq]
  split
  · rename_i unplaced
    have unwritten := how.log_of_unplaced unplaced
    have logs : ∀ id, (w.work leader (Service.buy w.strict request)).log id = w.log id :=
      forall_put (P := fun id d => d.node.storage.log = w.log id) unwritten fun id => rfl
    refine ⟨sound.work_of_unwritten unwritten, fun id trusts => ?_⟩
    rw [World.work, registry, put_self, how.registry] at trusts
    rw [logs, logs]
    exact current id trusts
  · rename_i order owed
    have answer := Service.BuyEnd.eq_placed_of_owed owed
    let s := ((w.site leader weather).work (Service.buy w.strict request)).2
    have quiet : s.Quiet := Site.quiet_ofWidth _ _ _ _
    have pushed := Site.kept_call (kept_pushing leader order) quiet .accept
      s.desk.node.registry.activePeers (.accept ⟨order, s.desk.node.registry.selfId⟩)
      (pushing_of_placed sound current answer _)
    rw [Site.fanOut_snd]
    exact ⟨pushed.sound, pushed.current⟩

end World

end OrderCluster
