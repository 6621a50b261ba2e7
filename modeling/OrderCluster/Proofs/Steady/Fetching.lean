import OrderCluster.Proofs.Replication.Rounds
import OrderCluster.Proofs.Replication.Sync
import OrderCluster.Proofs.Steady.Sound

/-!
# How a node catches up

While a node fetches, no log changes, and every answer is what some node holds above the greatest
number of the node that asks. Each answer has no gaps, so what is written afterwards has none. The
leader begins to trust the node when it serves it; then its answer is among those that are written,
and the node ends with all that the leader holds.
-/

namespace OrderCluster

open Replication

variable {κ : Type}

namespace World

/-- Every call that ended has failed, or brought what its peer holds above a number. -/
def Answered (w : World κ) (after : OrderNumber) (ended : List Ended) : Prop :=
  ∀ e ∈ ended, e.2.isFailed = true ∨ e.2 = .sent ((w.log e.1).after after)

/-- While a node asks for the orders above its greatest number, seen from the world in which it
began. -/
structure Fetching (leader id : NodeId) (after : OrderNumber) (w₀ : World κ) (pending : List Call)
    (ended : List Ended) (d : Desk κ) (w : World κ) : Prop where
  sound : (w.put id d).Sound leader
  logs : ∀ other, (w.put id d).log other = w₀.log other
  waits : ∀ call ∈ pending, call.member.id ≠ id ∧ call.errand = .fetch ⟨id, after⟩
  answered : w₀.Answered after ended
  /-- The leader begins to trust at most the node that asks, and only if it answered. -/
  trusts : ∀ other, ((w.put id d).registry leader).Trusts other →
    (w₀.registry leader).Trusts other ∨
      other = id ∧ ∃ e ∈ ended, e.1 = leader ∧ e.2.isFailed = false

variable {leader id : NodeId} {after : OrderNumber} {w₀ w : World κ} {call : Call}
  {pending : List Call} {ended : List Ended} {d : Desk κ}

theorem Fetching.perm {pending' : List Call}
    (fetching : Fetching leader id after w₀ pending ended d w) (perm : pending.Perm pending') :
    Fetching leader id after w₀ pending' ended d w :=
  { fetching with waits := fun call member => fetching.waits call (perm.mem_iff.mpr member) }

theorem log_put_settled (w : World κ) (id other : NodeId) (kind : CallKind) (peer : NodeId)
    (verdict : Verdict) (d : Desk κ) :
    (w.put id (settled kind peer verdict d)).log other = (w.put id d).log other := by
  by_cases eq : other = id
  · rw [eq, log_put, log_put]
    rfl
  · rw [log_put_of_ne eq, log_put_of_ne eq]

/-- Settling a call makes the leader trust nobody else. -/
theorem trusts_put_settled (sound : (w.put id d).Sound leader) {kind : CallKind} {peer : NodeId}
    {verdict : Verdict} {other : NodeId}
    (trusts : ((w.put id (settled kind peer verdict d)).registry leader).Trusts other) :
    ((w.put id d).registry leader).Trusts other := by
  unfold registry at trusts ⊢
  by_cases eq : leader = id
  · have ordered := (sound.fit id).ordered
    rw [put_self] at ordered
    rw [eq, put_self] at trusts ⊢
    exact (trusts_settled ordered trusts).1
  · rwa [put_of_ne eq] at trusts ⊢

variable [Catalog κ]

/-- A call ends, in a world in which nothing was written meanwhile. -/
theorem Fetching.settle (fetching : Fetching leader id after w₀ (call :: pending) ended d w)
    {w' : World κ} {kind : CallKind} {verdict : Verdict} (sound : (w'.put id d).Sound leader)
    (logs : ∀ other, w'.log other = w.log other)
    (answer : verdict.isFailed = true ∨ verdict = .sent ((w₀.log call.member.id).after after))
    (trusts : ∀ other, ((w'.put id d).registry leader).Trusts other →
      ((w.put id d).registry leader).Trusts other ∨
        other = id ∧ call.member.id = leader ∧ verdict.isFailed = false) :
    Fetching leader id after w₀ pending (ended ++ [(call.member.id, verdict)])
      (settled kind call.member.id verdict d) w' := by
  constructor
  · exact sound.settled kind call.member.id verdict
  · intro other
    rw [log_put_settled, ← fetching.logs other]
    by_cases eq : other = id
    · rw [eq, log_put, log_put]
    · rw [log_put_of_ne eq, log_put_of_ne eq, logs]
  · exact fun other later => fetching.waits other (List.mem_cons_of_mem _ later)
  · intro e member
    rcases List.mem_append.mp member with old | new
    · exact fetching.answered e old
    · rw [List.mem_singleton.mp new]
      exact answer
  · intro other after_all
    rcases trusts other (trusts_put_settled sound after_all) with before | ⟨eq, asked, answered⟩
    · rcases fetching.trusts other before with at_first | ⟨eq, e, member, from_leader, answered⟩
      · exact Or.inl at_first
      · exact Or.inr ⟨eq, e, List.mem_append_left _ member, from_leader, answered⟩
    · exact Or.inr ⟨eq, _, List.mem_append_right _ List.mem_cons_self, asked, answered⟩

theorem Fetching.fail (fetching : Fetching leader id after w₀ (call :: pending) ended d w)
    {kind : CallKind} {verdict : Verdict} (failed : verdict.isFailed = true) :
    Fetching leader id after w₀ pending (ended ++ [(call.member.id, verdict)])
      (settled kind call.member.id verdict d) w :=
  fetching.settle fetching.sound (fun _ => rfl) (Or.inl failed) fun _ trusts => Or.inl trusts

/-- A call was answered; the peer knows now that the node is alive. -/
theorem Fetching.serve (fetching : Fetching leader id after w₀ (call :: pending) ended d w)
    {kind : CallKind} :
    Fetching leader id after w₀ pending
      (ended ++ [(call.member.id, .sent ((w.log call.member.id).after after))])
      (settled kind call.member.id (.sent ((w.log call.member.id).after after)) d)
      (w.work call.member.id (Service.fetch ⟨id, after⟩)) := by
  obtain ⟨other, _⟩ := fetching.waits call List.mem_cons_self
  have same : w.log call.member.id = w₀.log call.member.id := by
    rw [← fetching.logs, log_put_of_ne other]
  refine fetching.settle ?_ ?_ (Or.inr (by rw [same])) fun third trusts => ?_
  · rw [put_work other]
    exact fetching.sound.fetch _
  · refine forall_put (P := fun third d => d.node.storage.log = w.log third) ?_ fun third => rfl
    rw [Service.perform_fetch]
    rfl
  · by_cases asked : call.member.id = leader
    · have not_self : leader ≠ id := by rwa [← asked]
      have ordered : (w.registry leader).Ordered := by
        have fit := (fetching.sound.fit leader).ordered
        rwa [put_of_ne not_self] at fit
      rw [registry, put_of_ne not_self, World.work, asked, put_self, Service.perform_fetch]
        at trusts
      rw [registry, put_of_ne not_self]
      rcases ordered.trusts_mark_active trusts with eq | before
      · exact Or.inr ⟨eq, asked, rfl⟩
      · exact Or.inl before
    · refine Or.inl ?_
      rw [put_work other, registry, World.work, put_of_ne (Ne.symm asked)] at trusts
      exact trusts

/-- Whatever becomes of the fetches of a sync, what holds of them is kept. -/
theorem kept_fetching (leader id : NodeId) (after : OrderNumber) (w₀ : World κ) :
    Kept fun pending ended d (net : Net κ) =>
      Fetching leader id after w₀ pending ended d net.world := by
  constructor
  · exact fun perm fetching => fetching.perm perm
  · intro call pending ended d net member fetching
    obtain ⟨_, errand⟩ := fetching.waits call member
    rw [errand]
    exact fetching
  · intro call pending ended d net departure fetching
    obtain ⟨other, errand⟩ := fetching.waits call List.mem_cons_self
    have readable : (net.world.desks call.member.id).node.storage.outage .after = none := by
      have fit := (fetching.sound.fit call.member.id).usable
      rw [put_of_ne other] at fit
      exact fit.1
    rw [errand]
    rcases net.arrive_fetch call.member departure ⟨id, after⟩ readable with
      ⟨same, failed⟩ | ⟨served, answer⟩
    · rw [same]
      exact fetching.fail failed
    · rw [served, answer]
      exact fetching.serve
  · exact fun deadline fetching => fetching.fail rfl

/-! ## What is written -/

section Batch

omit [Catalog κ]

variable (sound : w.Sound leader)

/-- What was sent is what the peer holds above the number. -/
theorem Answered.mem_sent (answered : w.Answered after ended) {peer : NodeId}
    {orders : List Order} (sent : (peer, .sent orders) ∈ ended) :
    orders = (w.log peer).after after := by
  rcases answered _ sent with failed | eq
  · cases failed
  · exact Verdict.sent.inj eq

include sound

theorem Answered.agree (answered : w.Answered after ended) {peer : NodeId}
    {orders : List Order} (sent : (peer, .sent orders) ∈ ended) {order : Order}
    (among : order ∈ orders) : (w.log leader).Holds order := by
  rw [answered.mem_sent sent, (sound.keyed peer).mem_after] at among
  exact (sound.follows peer).within _ _ among.2

theorem Answered.batch_agree (answered : w.Answered after ended) :
    ∀ order ∈ Sync.batch ended, (w.log leader).Holds order := by
  intro order member
  obtain ⟨peer, orders, sent, among⟩ := Sync.mem_batch member
  exact answered.agree sound sent among

/-- Whatever an answering peer holds above the number is written. -/
theorem Answered.mem_batch (answered : w.Answered after ended) {peer : NodeId}
    {orders : List Order} (sent : (peer, .sent orders) ∈ ended) {order : Order}
    (held : (w.log peer).Holds order) (above : after < order.number) :
    order ∈ Sync.batch ended := by
  refine @Sync.mem_batch_of_sent (fun n => (w.log leader).get? n) ended ?_ peer orders sent order ?_
  · exact fun peer orders sent order among => answered.agree sound sent among
  · rw [answered.mem_sent sent, (sound.keyed peer).mem_after]
    exact ⟨above, held⟩

/-- A log is still a prefix of the leader's after the answers were written to it. -/
theorem Answered.follows (answered : w.Answered (w.log id).maxNumber ended) :
    ((w.log id).insertAll (Sync.batch ended)).2.PrefixOf (w.log leader) := by
  refine (sound.follows id).insertAll (answered.batch_agree sound) ?_
  intro order member k missed below found
  obtain ⟨peer, orders, sent, among⟩ := Sync.mem_batch member
  by_cases le : k ≤ (w.log id).maxNumber
  · exact Or.inl ((sound.follows id).get?_of_le sound.positive le found)
  · rw [answered.mem_sent sent, (sound.keyed peer).mem_after] at among
    have held := (sound.follows peer).closed _ _ among.2 k missed below found
    have number : missed.number = k := (sound.keyed peer).number held
    refine Or.inr ⟨answered.mem_batch sound sent ?_ ?_, number⟩
    · unfold OrderLog.Holds
      rw [number]
      exact held
    · rw [number]
      exact Int64.not_le.mp le

/-- With an answer of the leader among those that are written, nothing is missed. -/
theorem Answered.covers (answered : w.Answered (w.log id).maxNumber ended) {e : Ended}
    (member : e ∈ ended) (from_leader : e.1 = leader) (not_failed : e.2.isFailed = false) :
    ((w.log id).insertAll (Sync.batch ended)).2.Covers (w.log leader) := by
  intro k order found
  by_cases le : k ≤ (w.log id).maxNumber
  · exact OrderLog.covers_insertAll _ _ k order
      ((sound.follows id).get?_of_le sound.positive le found)
  · have number : order.number = k := (sound.keyed leader).number found
    obtain ⟨peer, verdict⟩ := e
    subst from_leader
    rcases answered _ member with failed | eq
    · rw [not_failed] at failed
      cases failed
    · have sent : (peer, .sent ((w.log peer).after (w.log id).maxNumber)) ∈ ended := by
        rw [← eq]
        exact member
      rw [← number] at found ⊢
      refine OrderLog.get?_insertAll_of_mem (sound.follows id).within
        (answered.batch_agree sound) (answered.mem_batch sound sent found ?_)
      rw [number]
      exact Int64.not_le.mp le

end Batch

/-! ## A whole sync -/

/-- What a sync has left behind. -/
structure Synced (leader id : NodeId) (w : World κ) (answer : Except Failure SyncReport)
    (w' : World κ) : Prop where
  sound : w'.Sound leader
  current : w'.Current leader
  grown : ∀ other, (w'.log other).Covers (w.log other)
  /-- The leader learns nothing new. -/
  lead : (w.log leader).Covers (w'.log leader)
  /-- A node that can read its log ends with a report. -/
  reports : (w.desks id).node.storage.outage .maxNumber = none → ∃ report, answer = .ok report
  /-- With an answer of the leader the node misses nothing. -/
  covers : ∀ report, answer = .ok report → leader ∈ report.responded →
    (w'.log id).Covers (w'.log leader)

omit [Catalog κ] in
theorem fetching_begin (sound : w.Sound leader) (id : NodeId) (ticket : Nat) :
    Fetching leader id (w.log id).maxNumber w
      ((w.registry id).activePeers.map fun m =>
        ⟨ticket, m, .fetch ⟨(w.registry id).selfId, (w.log id).maxNumber⟩⟩)
      [] (w.desks id) w := by
  have named : (w.registry id).selfId = id := (sound.fit id).named
  constructor
  · rw [put_desks]
    exact sound
  · intro other
    rw [put_desks]
  · intro call member
    obtain ⟨m, active, rfl⟩ := List.mem_map.mp member
    have other := ((sound.fit id).ordered.trusts_iff.mp ⟨m, active, rfl⟩).1
    rw [(sound.fit id).named] at other
    exact ⟨other, by rw [named]⟩
  · intro e member
    cases member
  · intro other trusts
    rw [put_desks] at trusts
    exact Or.inl trusts

theorem Fetching.conclude {w₀ : World κ} (sound₀ : w₀.Sound leader) (current₀ : w₀.Current leader)
    (fetching : Fetching leader id (w₀.log id).maxNumber w₀ [] ended d w) {sync : Sync}
    (nobody : sync.peers = [] → ended = [])
    (readable : d.node.storage.outage .maxNumber = none) :
    Synced leader id w₀ ((sync.conclude ended).perform d).1
      (w.put id ((sync.conclude ended).perform d).2) := by
  have how := Sync.concludeEnd_conclude sync ended d
  have works : d.node.storage.outage .insertAll = none := by
    have fit := (fetching.sound.fit id).usable
    rw [put_self] at fit
    exact fit.2
  have before : d.node.storage.log = w₀.log id := by rw [← fetching.logs id, log_put]
  have written := how.log works nobody
  rw [before] at written
  have follows : ((sync.conclude ended).perform d).2.node.storage.log.PrefixOf
      ((w.put id d).log leader) := by
    rw [written, fetching.logs]
    exact fetching.answered.follows sound₀
  have at_work : w.put id ((sync.conclude ended).perform d).2 =
      (w.put id d).work id (sync.conclude ended) := by rw [World.work, put_self, put_put]
  have grown : ∀ other,
      (((w.put id d).work id (sync.conclude ended)).log other).Covers (w₀.log other) := by
    intro other
    rw [← fetching.logs other]
    exact covers_work _ _ _ _
  have same : (w₀.log leader).Covers
      (((w.put id d).work id (sync.conclude ended)).log leader) := by
    rw [← fetching.logs leader, ← at_work, ← put_put w id d ((sync.conclude ended).perform d).2]
    exact lead_covers_put follows
  have answered_covers : (∃ e ∈ ended, e.1 = leader ∧ e.2.isFailed = false) →
      (((w.put id d).work id (sync.conclude ended)).log id).Covers
        (((w.put id d).work id (sync.conclude ended)).log leader) := by
    rintro ⟨e, member, from_leader, not_failed⟩
    have covers := fetching.answered.covers sound₀ member from_leader not_failed
    rw [← written, ← log_put w id, at_work] at covers
    exact covers.trans same
  rw [at_work]
  constructor
  · refine fetching.sound.work ?_ fun ahead => ?_
    · rwa [put_self]
    · rw [put_self] at ahead ⊢
      exact how.ahead ahead fun _ => readable
  · intro other trusts
    have trusted : ((w.put id d).registry leader).Trusts other := by
      rw [← at_work] at trusts
      unfold registry at trusts ⊢
      by_cases eq : leader = id
      · rw [eq, put_self] at trusts ⊢
        rwa [how.registry] at trusts
      · rwa [put_of_ne eq] at trusts ⊢
    rcases fetching.trusts other trusted with at_first | ⟨rfl, answered⟩
    · exact ((grown other).trans (current₀ other at_first)).trans same
    · exact answered_covers answered
  · exact grown
  · exact same
  · exact fun _ => how.reports works readable
  · intro report ok responded
    rw [ok] at how
    exact answered_covers (how.responded responded)

/-- A sync keeps every log a prefix of the leader's, and every peer that the leader trusts with all
that the leader holds. -/
theorem synced_sync (sound : w.Sound leader) (current : w.Current leader) (id : NodeId)
    (weather : Weather) : Synced leader id w (w.sync id weather).1 (w.sync id weather).2 := by
  change Synced leader id w (w.site id weather).sync.1 (leave id (w.site id weather).sync.2)
  rcases Site.sync_cases (w.site id weather) with
    ⟨cause, outage, eq⟩ | ⟨sync, ended, called, readable, asks, made, same, eq⟩
  · rw [eq]
    have unchanged : leave id (w.site id weather) = w := put_desks w id
    rw [unchanged]
    refine ⟨sound, current, fun _ => .refl _, .refl _, fun readable => ?_, fun report ok => ?_⟩
    · change (w.desks id).node.storage.outage .maxNumber = some cause at outage
      rw [readable] at outage
      cases outage
    · cases ok
  · rw [eq]
    have quiet : (w.site id weather).Quiet := Site.quiet_ofWidth _ _ _ _
    have fetched := Site.kept_call (kept_fetching leader id (w.log id).maxNumber w) quiet .fetch
      sync.peers sync.errand (by rw [asks]; exact fetching_begin sound id _)
    rw [made] at fetched
    refine fetched.conclude sound current ?_ ?_
    · intro nobody
      rw [nobody] at made
      have none_ended := Site.ended_of_nobody (w.site id weather) .fetch sync.errand
      rwa [made] at none_ended
    · rw [same.storage]
      exact readable

end World

end OrderCluster
