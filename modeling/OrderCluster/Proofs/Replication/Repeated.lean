import OrderCluster.Proofs.Replication.CatchUp
import OrderCluster.Proofs.Replication.Habits

/-!
# A sync that is repeated

Among peers of steady habits a second sync, made right after a first, calls the peers that answered
the first and is answered by all of them, so it marks nobody. It asks for the orders above what the
node holds by then, and everything that is sent it was sent before: it writes nothing. There is one
exception. The greatest number of an empty log counts as 0, so a log that takes in negative numbers
only has a lower one afterwards; then the second sync asks for more than the first.
-/

namespace OrderCluster.Replication

variable {κ σ : Type} [Catalog κ] [Peers σ]

/-- A second sync, right after a first one that led from `s` to `s₁`. -/
structure Repeats (s s₁ : Site κ σ) : Prop where
  /-- No peer is marked, and nothing else happens to the registry. -/
  registry : s₁.sync.2.desk.node.registry = s₁.desk.node.registry
  /-- If the first ended with a report, exactly the peers that responded to it are called. -/
  called : ∀ report, s.sync.1 = .ok report →
    s₁.noted.sync.2.lanes.peers.sent.map (·.member.id) = report.responded
  /-- The second ends with a report, too, and all that are called respond. -/
  respond : ∀ report, s.sync.1 = .ok report → ∃ again, s₁.sync.1 = .ok again ∧
    again.contacted = report.responded.length ∧ again.responded = report.responded ∧
    again.failed = []
  /-- A greatest number that falls was that of an empty log, and only negative numbers were
  written. -/
  fell : s₁.desk.node.storage.log.maxNumber < s.desk.node.storage.log.maxNumber →
    (∀ n, s.desk.node.storage.log.get? n = none) ∧
      ∀ n order, s₁.desk.node.storage.log.get? n = some order → n < 0
  /-- Unless it fell, the log and the counter stay exactly as they are. -/
  still : ¬ s₁.desk.node.storage.log.maxNumber < s.desk.node.storage.log.maxNumber →
    s₁.sync.2.desk.node.storage.log = s₁.desk.node.storage.log ∧
      s₁.sync.2.desk.node.counter = s₁.desk.node.counter
  /-- Unless it fell, nothing is inserted and the greatest number is reported again. -/
  reported : ¬ s₁.desk.node.storage.log.maxNumber < s.desk.node.storage.log.maxNumber →
    ∀ report again, s.sync.1 = .ok report → s₁.sync.1 = .ok again →
      again.inserted = 0 ∧ again.maxNumber = report.maxNumber

/-! ## What is held already -/

/-- Orders whose numbers are held already change nothing. -/
theorem OrderLog.insertAll_of_held {log : OrderLog} {orders : List Order}
    (held : ∀ order ∈ orders, ∃ old, log.get? order.number = some old) :
    log.insertAll orders = (0, log) := by
  induction orders with
  | nil => rfl
  | cons order rest ih =>
    obtain ⟨old, found⟩ := held order List.mem_cons_self
    have later := ih fun other among => held other (List.mem_cons_of_mem _ among)
    simp [OrderLog.insertAll, OrderLog.insert_of_held found, later]

/-- What a peer sent is held once the batch was written. -/
theorem Sync.held_of_sent {ended : List Ended} (distinct : (ended.map Prod.fst).Nodup)
    (log : OrderLog) {e : Ended} (among : e ∈ ended) {order : Order} (sent : order ∈ e.2.orders) :
    ∃ held, (log.insertAll (batch ended)).2.get? order.number = some held := by
  obtain ⟨peer, verdict⟩ := e
  cases verdict with
  | sent orders =>
    have answered : (peer, orders) ∈ answers ended := List.mem_filterMap.mpr ⟨_, among, rfl⟩
    cases before : log.get? order.number with
    | some old => exact ⟨old, (held_batch distinct log _ _).mpr (Or.inl before)⟩
    | none =>
      obtain ⟨first, is_first⟩ :=
        exists_first (distinct.sublist (answers_sublist ended)) answered sent
      exact ⟨first, (held_batch distinct log _ _).mpr (Or.inr ⟨before, is_first⟩)⟩
  | _ => cases sent

/-! ## One sync among steady peers -/

/-- The calls of a sync among steady peers have ended, each in accordance with the habit of its
peer. -/
structure Obeyed (s : Site κ σ) (habit : NodeId → Habit) (ended : List Ended)
    (called : Site κ (Noted σ)) : Prop where
  asked : Asked s ended called
  met : ∀ e ∈ ended, (habit e.1).Meets s.desk.node.storage.log.maxNumber e.2
  later : Later s.lanes.peers called.lanes.peers.peers
  deadline : called.lanes.deadline = s.lanes.deadline
  quiet : called.Quiet
  /-- Where every peer answers, nobody is marked. -/
  unmarked : (∀ e ∈ ended, e.2.isFailed = false) →
    called.desk.node.registry = s.desk.node.registry

variable {s : Site κ σ} {habit : NodeId → Habit} {ended : List Ended} {called : Site κ (Noted σ)}

/-- A round in which no call fails leaves the registry alone. -/
theorem Site.registry_call (quiet : s.Quiet) (members : List Member) (errand : Errand) :
    (∀ e ∈ (s.call errand.kind members errand).1, e.2.isFailed = false) →
      (s.call errand.kind members errand).2.desk.node.registry = s.desk.node.registry := by
  have handled : Handled (κ := κ) (σ := σ) errand fun ended d _ =>
      (∀ e ∈ ended, e.2.isFailed = false) → d.node.registry = s.desk.node.registry := by
    have kept : ∀ {m : Member} {ended : List Ended} {d : Desk κ} {verdict : Verdict},
        ((∀ e ∈ ended, e.2.isFailed = false) → d.node.registry = s.desk.node.registry) →
          (∀ e ∈ ended ++ [(m.id, verdict)], e.2.isFailed = false) →
            (settled errand.kind m.id verdict d).node.registry = s.desk.node.registry := by
      intro m ended d verdict before answered
      have now : verdict.isFailed = false :=
        answered (m.id, verdict) (List.mem_append_right _ List.mem_cons_self)
      simp only [settled, now, Bool.false_eq_true, if_false]
      exact before fun e among => answered e (List.mem_append_left _ among)
    exact ⟨fun before => before, fun _ before => kept before, fun _ before => kept before⟩
  exact handled_call handled quiet errand.kind members fun _ => rfl

theorem Site.obeyed_call (quiet : s.Quiet) (ordered : s.desk.node.registry.Ordered)
    (steady : Steady s.lanes.deadline s.desk.node.registry.activePeers habit s.lanes.peers)
    (round : s.noted.call .fetch s.desk.node.registry.activePeers
      (.fetch ⟨s.desk.node.registry.selfId, s.desk.node.storage.log.maxNumber⟩) =
        (ended, called)) : Obeyed s habit ended called := by
  let request : FetchRequest := ⟨s.desk.node.registry.selfId, s.desk.node.storage.log.maxNumber⟩
  have bare : s.call .fetch s.desk.node.registry.activePeers (.fetch request) =
      (ended, called.bare) := by
    have same := s.noted.bare_call .fetch s.desk.node.registry.activePeers (.fetch request)
    rwa [round] at same
  have unmarked : (∀ e ∈ (s.call .fetch _ (.fetch request)).1, e.2.isFailed = false) →
      (s.call .fetch _ (.fetch request)).2.desk.node.registry = s.desk.node.registry :=
    registry_call quiet s.desk.node.registry.activePeers (.fetch request)
  have still := quiet.noted.call .fetch s.desk.node.registry.activePeers (.fetch request)
  obtain ⟨met, later, deadline⟩ := habitual_call quiet steady request
  rw [bare] at met later deadline unmarked
  rw [round] at still
  exact ⟨asked_call quiet ordered round, met, later, deadline, still, unmarked⟩

/-- The peers that are trusted after a round are those whose calls did not fail. -/
theorem Noticed.trusts_iff {r r' : Registry} {ended : List Ended} (noticed : Noticed r ended r')
    (ordered : r.Ordered) {id : NodeId} : r'.Trusts id ↔ r.Trusts id ∧ ¬ Fell ended id := by
  have same_id : ∀ m, (fallen ended m).id = m.id := by
    intro m
    unfold fallen
    split <;> rfl
  rw [noticed.ordered.trusts_iff, ordered.trusts_iff, noticed.selfId, Registry.status?,
    Registry.find?_map same_id noticed.members, Registry.status?]
  cases found : r.find? id with
  | none => simp
  | some m =>
    have named : m.id = id := by simpa using List.find?_some found
    by_cases fell : Fell ended id
    · simp [fallen, named, fell]
    · simp [fallen, named, fell]

/-- A round of calls makes no peer active, and changes none that stays active. -/
theorem Noticed.mem_activePeers {r r' : Registry} {ended : List Ended}
    (noticed : Noticed r ended r') {m : Member} (active : m ∈ r'.activePeers) :
    m ∈ r.activePeers := by
  obtain ⟨member, trusted⟩ := List.mem_filter.mp active
  rw [noticed.members] at member
  obtain ⟨before, among, rfl⟩ := List.mem_map.mp member
  rw [noticed.selfId] at trusted
  by_cases fell : Fell ended before.id
  · simp [fallen, fell, Member.isActive] at trusted
  · rw [fallen, if_neg fell] at trusted ⊢
    exact List.mem_filter.mpr ⟨among, trusted⟩

omit [Catalog κ] [Peers σ] in
/-- After the calls of a sync exactly the peers that responded are active. -/
theorem Asked.activePeers {s : Site κ σ} (asked : Asked s ended called)
    (ordered : s.desk.node.registry.Ordered) :
    called.desk.node.registry.activePeers.map Member.id = peersWhere (!·.isFailed) ended := by
  have distinct : (ended.map Prod.fst).Nodup :=
    asked.everyone.nodup_iff.mpr (distinct_activePeers ordered)
  have ascending : (called.desk.node.registry.activePeers.map Member.id).Pairwise (· < ·) :=
    List.pairwise_map.mpr (asked.noticed.ordered.sublist List.filter_sublist)
  have ascending_too := ascending_peersWhere (!·.isFailed) distinct
  have nodup := ascending.imp fun lt => UInt32.ne_of_lt lt
  have nodup_too := ascending_too.imp fun lt => UInt32.ne_of_lt lt
  refine List.Perm.eq_of_pairwise ?_ ascending ascending_too
    ((List.perm_ext_iff_of_nodup nodup nodup_too).mpr fun id => ?_)
  · intro a b _ _ lower higher
    exact absurd (UInt32.lt_trans lower higher) (UInt32.lt_irrefl _)
  have trusted : id ∈ called.desk.node.registry.activePeers.map Member.id ↔
      id ∈ s.desk.node.registry.activePeers.map Member.id ∧ ¬ Fell ended id := by
    rw [List.mem_map, List.mem_map]
    exact asked.noticed.trusts_iff ordered
  rw [trusted, ← asked.everyone.mem_iff, mem_peersWhere]
  constructor
  · rintro ⟨among, stands⟩
    obtain ⟨e, member, rfl⟩ := List.mem_map.mp among
    refine ⟨e, member, rfl, ?_⟩
    cases failed : e.2.isFailed with
    | false => rfl
    | true => exact absurd ⟨e, member, rfl, failed⟩ stands
  · rintro ⟨e, member, rfl, answered⟩
    refine ⟨List.mem_map_of_mem member, ?_⟩
    rintro ⟨other, also, named, failed⟩
    obtain rfl := List.inj_on_of_nodup_map distinct also member named
    simp [failed] at answered

/-! ## The next sync -/

section Next

variable {s₁ : Site κ σ} {ended' : List Ended} {called' : Site κ (Noted σ)}

omit [Catalog κ] in
/-- A peer that is asked again answered before. -/
theorem Obeyed.before (obeyed : Obeyed s habit ended called)
    (ordered : s.desk.node.registry.Ordered)
    (registry : s₁.desk.node.registry = called.desk.node.registry)
    (obeyed' : Obeyed s₁ habit ended' called') {e : Ended} (again : e ∈ ended') :
    ∃ first ∈ ended, first.1 = e.1 ∧ first.2.isFailed = false := by
  have named : e.1 ∈ s₁.desk.node.registry.activePeers.map Member.id :=
    obeyed'.asked.everyone.mem_iff.mp (List.mem_map_of_mem again)
  rw [registry, obeyed.asked.activePeers ordered] at named
  obtain ⟨first, among, same, answered⟩ := mem_peersWhere.mp named
  exact ⟨first, among, same, (Bool.not_eq_true' _).mp answered⟩

omit [Catalog κ] in
theorem Obeyed.answered_again (obeyed : Obeyed s habit ended called)
    (ordered : s.desk.node.registry.Ordered)
    (registry : s₁.desk.node.registry = called.desk.node.registry)
    (obeyed' : Obeyed s₁ habit ended' called') : ∀ e ∈ ended', e.2.isFailed = false := by
  intro e again
  obtain ⟨first, among, same, answered⟩ := obeyed.before ordered registry obeyed' again
  have meets := obeyed.met first among
  rw [same] at meets
  cases failed : e.2.isFailed with
  | false => rfl
  | true =>
    have fails := (obeyed'.met e again).isFailed_iff.mp failed
    rw [meets.isFailed_iff.mpr fails] at answered
    cases answered

omit [Catalog κ] in
/-- Unless the greatest number fell, all that is sent again was sent before, and so it is held. -/
theorem Obeyed.held_again (obeyed : Obeyed s habit ended called)
    (ordered : s.desk.node.registry.Ordered)
    (registry : s₁.desk.node.registry = called.desk.node.registry)
    (written : s₁.desk.node.storage.log =
      (s.desk.node.storage.log.insertAll (Sync.batch ended)).2)
    (le : s.desk.node.storage.log.maxNumber ≤ s₁.desk.node.storage.log.maxNumber)
    (obeyed' : Obeyed s₁ habit ended' called') :
    s₁.desk.node.storage.log.insertAll (Sync.batch ended') = (0, s₁.desk.node.storage.log) := by
  have distinct : (ended.map Prod.fst).Nodup :=
    obeyed.asked.everyone.nodup_iff.mpr (distinct_activePeers ordered)
  apply OrderLog.insertAll_of_held
  intro order among
  obtain ⟨peer, orders, again, sent⟩ := Sync.mem_batch among
  obtain ⟨first, before, same, _⟩ := obeyed.before ordered registry obeyed' again
  have meets := obeyed.met first before
  rw [same] at meets
  rw [written]
  exact Sync.held_of_sent distinct _ before (meets.sent_before (obeyed'.met _ again) le sent)

end Next

namespace Sync

variable {sync : Sync} {d d' : Desk κ} {answer : Except Failure SyncReport}

omit [Catalog κ] in
theorem ConcludeEnd.same_outage (how : ConcludeEnd sync ended d answer d') :
    d'.node.storage.outage = d.node.storage.outage := by
  cases how with
  | _ => rfl

omit [Catalog κ] in
theorem ConcludeEnd.counter_cases (how : ConcludeEnd sync ended d answer d') :
    d'.node.counter = d.node.counter ∨
      sync.peers ≠ [] ∧
        d'.node.counter = d.node.counter.resetAbove d'.node.storage.log.maxNumber := by
  cases how with
  | alone _ => exact Or.inl rfl
  | failed _ _ => exact Or.inl rfl
  | unread _ _ _ => exact Or.inl rfl
  | merged asked _ _ => exact Or.inr ⟨asked, rfl⟩

omit [Catalog κ] in
theorem ConcludeEnd.of_unwritable (how : ConcludeEnd sync ended d answer d')
    (unwritable : d.node.storage.outage .insertAll ≠ none) : d' = d := by
  cases how with
  | alone _ => rfl
  | failed _ _ => rfl
  | unread _ works _ => exact absurd works unwritable
  | merged _ works _ => exact absurd works unwritable

omit [Catalog κ] in
theorem ConcludeEnd.unwritable_of_error {cause : Failure}
    (how : ConcludeEnd sync ended d (.error cause) d')
    (readable : d.node.storage.outage .maxNumber = none) :
    sync.peers ≠ [] ∧ d.node.storage.outage .insertAll ≠ none := by
  cases how with
  | failed asked outage => exact ⟨asked, by simp [outage]⟩
  | unread _ _ outage => cases readable.symm.trans outage

omit [Catalog κ] in
theorem ConcludeEnd.writable_of_ok {report : SyncReport}
    (how : ConcludeEnd sync ended d (.ok report) d') (asked : sync.peers ≠ []) :
    d.node.storage.outage .insertAll = none := by
  cases how with
  | alone nobody => exact absurd nobody asked
  | merged _ works _ => exact works

end Sync

/-- Only an empty log has a lower greatest number after a sync, and then it took in negative numbers
only. -/
theorem Site.fell_sync (s : Site κ σ)
    (fell : s.sync.2.desk.node.storage.log.maxNumber < s.desk.node.storage.log.maxNumber) :
    (∀ n, s.desk.node.storage.log.get? n = none) ∧
      ∀ n order, s.sync.2.desk.node.storage.log.get? n = some order → n < 0 := by
  rcases s.desk.node.storage.log.maxNumber_cases with ⟨empty, zero⟩ | ⟨order, found⟩
  · rw [zero] at fell
    exact ⟨empty, fun n order found =>
      Int64.lt_of_le_of_lt (OrderLog.le_maxNumber found) fell⟩
  · have kept := OrderLog.le_maxNumber (held_sync found)
    exact absurd (Int64.lt_of_lt_of_le fell kept) Int64.lt_irrefl

/-- The first sync of two has ended, among steady peers. -/
structure Synced (s : Site κ σ) (habit : NodeId → Habit) (ended : List Ended)
    (called : Site κ (Noted σ)) (answer : Except Failure SyncReport) (s₁ : Site κ σ) : Prop where
  obeyed : Obeyed s habit ended called
  how : Sync.ConcludeEnd
    ⟨s.desk.node.registry.selfId, s.desk.node.registry.activePeers,
      s.desk.node.storage.log.maxNumber⟩ ended called.desk answer s₁.desk
  lanes : s₁.lanes = called.lanes.bare
  rounds : s₁.rounds = called.rounds

namespace Synced

variable {s₁ : Site κ σ} {answer : Except Failure SyncReport}

omit [Catalog κ] in
theorem registry (synced : Synced s habit ended called answer s₁) :
    s₁.desk.node.registry = called.desk.node.registry := synced.how.registry

omit [Catalog κ] in
theorem quiet (synced : Synced s habit ended called answer s₁) : s₁.Quiet := by
  obtain ⟨⟨some_lane, no_idle⟩, no_calls, no_rounds⟩ := synced.obeyed.quiet
  refine ⟨?_, ?_, ?_⟩
  · rw [synced.lanes]
    exact ⟨some_lane, no_idle⟩
  · rw [synced.lanes]
    exact no_calls
  · rw [synced.rounds, no_rounds]

omit [Catalog κ] in
theorem ordered (synced : Synced s habit ended called answer s₁) :
    s₁.desk.node.registry.Ordered := by
  rw [synced.registry]
  exact synced.obeyed.asked.noticed.ordered

omit [Catalog κ] in
/-- The peers are as steady as they were. -/
theorem steady (synced : Synced s habit ended called answer s₁)
    (steady : Steady s.lanes.deadline s.desk.node.registry.activePeers habit s.lanes.peers) :
    Steady s₁.lanes.deadline s₁.desk.node.registry.activePeers habit s₁.lanes.peers := by
  rw [synced.lanes, synced.registry]
  change Steady called.lanes.deadline _ habit called.lanes.peers.peers
  rw [synced.obeyed.deadline]
  exact (steady.later synced.obeyed.later).fewer
    fun m active => synced.obeyed.asked.noticed.mem_activePeers active

omit [Catalog κ] in
theorem storage (synced : Synced s habit ended called answer s₁) :
    called.desk.node.storage = s.desk.node.storage := synced.obeyed.asked.books.storage

omit [Catalog κ] in
theorem outage (synced : Synced s habit ended called answer s₁) :
    s₁.desk.node.storage.outage = s.desk.node.storage.outage := by
  rw [synced.how.same_outage, synced.storage]

omit [Catalog κ] in
/-- With nobody to call, no call ends. -/
theorem nobody (synced : Synced s habit ended called answer s₁)
    (none_asked : s.desk.node.registry.activePeers = []) : ended = [] := by
  have none_ended := synced.obeyed.asked.everyone
  rw [none_asked, List.map_nil] at none_ended
  exact List.map_eq_nil_iff.mp none_ended.eq_nil

omit [Catalog κ] in
/-- What was sent is held, if it could be written. -/
theorem log (synced : Synced s habit ended called answer s₁)
    (works : s.desk.node.storage.outage .insertAll = none) :
    s₁.desk.node.storage.log = (s.desk.node.storage.log.insertAll (Sync.batch ended)).2 := by
  have works_too : called.desk.node.storage.outage .insertAll = none := by
    rw [synced.storage]
    exact works
  rw [synced.how.log works_too synced.nobody, synced.storage]

omit [Catalog κ] in
/-- The report follows from how the calls ended, and tells the greatest number. -/
theorem told {report : SyncReport} (synced : Synced s habit ended called (.ok report) s₁) :
    report = Sync.reportOf
        ⟨s.desk.node.registry.selfId, s.desk.node.registry.activePeers,
          s.desk.node.storage.log.maxNumber⟩ ended s.desk.node.storage.log ∧
      report.maxNumber = s₁.desk.node.storage.log.maxNumber := by
  have top : s.desk.node.storage.log.maxNumber = called.desk.node.storage.log.maxNumber := by
    rw [synced.storage]
  have reported := synced.how.reported synced.nobody top
  have told := reported.told
  rw [synced.storage] at told
  refine ⟨told, ?_⟩
  rw [reported.log, told, synced.storage]
  rfl

end Synced

/-- A sync among steady peers cannot read the log and changes nothing, or it makes its calls and
concludes. -/
theorem Site.synced_sync (quiet : s.Quiet) (ordered : s.desk.node.registry.Ordered)
    (steady : Steady s.lanes.deadline s.desk.node.registry.activePeers habit s.lanes.peers) :
    (∃ cause, s.desk.node.storage.outage .maxNumber = some cause ∧ s.sync = (.error cause, s)) ∨
      ∃ ended called, s.desk.node.storage.outage .maxNumber = none ∧
        s.noted.sync.2.lanes.peers.sent = called.lanes.peers.sent ∧
        Synced s habit ended called s.sync.1 s.sync.2 := by
  rcases sync_cases s.noted with ⟨cause, outage, eq⟩ |
    ⟨sync, ended, called, readable, rfl, round, _, eq⟩
  · refine Or.inl ⟨cause, outage, ?_⟩
    rw [sync_noted, eq]
    rfl
  · have obeyed := obeyed_call quiet ordered steady round
    refine Or.inr ⟨ended, called, readable, ?_, ?_⟩
    · rw [eq]
      rfl
    · rw [sync_noted, eq]
      exact ⟨obeyed, Sync.concludeEnd_conclude _ ended called.desk, rfl, rfl⟩

section Twice

variable {s₁ s₂ : Site κ σ} {answer answer' : Except Failure SyncReport} {ended' : List Ended}
  {called' : Site κ (Noted σ)}

omit [Catalog κ] in
/-- The peers that responded to the first are those that are active before the second. -/
theorem Synced.activePeers (synced : Synced s habit ended called answer s₁)
    (ordered : s.desk.node.registry.Ordered) :
    s₁.desk.node.registry.activePeers.map Member.id = peersWhere (!·.isFailed) ended := by
  rw [synced.registry]
  exact synced.obeyed.asked.activePeers ordered

omit [Catalog κ] in
/-- If the second calls somebody, so did the first. -/
theorem Synced.asked_before (synced : Synced s habit ended called answer s₁)
    (ordered : s.desk.node.registry.Ordered)
    (some_asked : s₁.desk.node.registry.activePeers ≠ []) :
    s.desk.node.registry.activePeers ≠ [] := by
  intro nobody
  have ids := synced.activePeers ordered
  rw [synced.nobody nobody] at ids
  exact some_asked (by simpa [peersWhere] using ids)

omit [Catalog κ] in
theorem Synced.unmarked (synced : Synced s habit ended called answer s₁)
    (ordered : s.desk.node.registry.Ordered)
    (synced' : Synced s₁ habit ended' called' answer' s₂) :
    s₂.desk.node.registry = s₁.desk.node.registry := by
  rw [synced'.registry]
  exact synced'.obeyed.unmarked
    (synced.obeyed.answered_again ordered synced.registry synced'.obeyed)

omit [Catalog κ] in
/-- If the greatest number did not fall, the second writes nothing and leaves the counter alone. -/
theorem Synced.still (synced : Synced s habit ended called answer s₁)
    (ordered : s.desk.node.registry.Ordered)
    (readable : s.desk.node.storage.outage .maxNumber = none)
    (le : s.desk.node.storage.log.maxNumber ≤ s₁.desk.node.storage.log.maxNumber)
    (synced' : Synced s₁ habit ended' called' answer' s₂) :
    s₂.desk.node.storage.log = s₁.desk.node.storage.log ∧
      s₂.desk.node.counter = s₁.desk.node.counter := by
  have books := synced'.obeyed.asked.books
  by_cases works : s.desk.node.storage.outage .insertAll = none
  · have held := synced.obeyed.held_again ordered synced.registry (synced.log works) le
      synced'.obeyed
    have log : s₂.desk.node.storage.log = s₁.desk.node.storage.log := by
      rw [synced'.log (by rw [synced.outage, works]), held]
    refine ⟨log, ?_⟩
    rcases synced'.how.counter_cases with same | ⟨some_asked, reset⟩
    · exact same.trans books.counter
    · have clears := synced.how.clears (synced.asked_before ordered some_asked)
        (by rw [synced.storage, works]) (by rw [synced.storage, readable])
      rw [reset, log, books.counter]
      exact Counter.resetAbove_of_clears clears
  · have unwritable : called'.desk.node.storage.outage .insertAll ≠ none := by
      rw [synced'.storage, synced.outage]
      exact works
    rw [synced'.how.of_unwritable unwritable, books.storage, books.counter]
    exact ⟨rfl, rfl⟩

omit [Catalog κ] in
/-- If the first ended with a report, so does the second: where its log cannot be written, it calls
nobody. -/
theorem Synced.reports_again {report : SyncReport}
    (synced : Synced s habit ended called (.ok report) s₁) (ordered : s.desk.node.registry.Ordered)
    (readable : s.desk.node.storage.outage .maxNumber = none)
    (synced' : Synced s₁ habit ended' called' answer' s₂) : ∃ again, answer' = .ok again := by
  cases answer' with
  | ok again => exact ⟨again, rfl⟩
  | error cause =>
    have same : called'.desk.node.storage.outage = s.desk.node.storage.outage := by
      rw [synced'.storage, synced.outage]
    obtain ⟨some_asked, unwritable⟩ :=
      synced'.how.unwritable_of_error ((congrFun same _).trans readable)
    have writable := synced.how.writable_of_ok (synced.asked_before ordered some_asked)
    rw [synced.storage, ← same] at writable
    exact absurd writable unwritable

omit [Catalog κ] in
/-- The second report names those that responded to the first, and nobody failed. -/
theorem Synced.respond_again {report again : SyncReport}
    (synced : Synced s habit ended called (.ok report) s₁) (ordered : s.desk.node.registry.Ordered)
    (synced' : Synced s₁ habit ended' called' (.ok again) s₂) :
    again.contacted = report.responded.length ∧ again.responded = report.responded ∧
      again.failed = [] := by
  have ids := synced.activePeers ordered
  have ids' := synced'.activePeers synced.ordered
  have answered := synced.obeyed.answered_again ordered synced.registry synced'.obeyed
  rw [synced.unmarked ordered synced', ids] at ids'
  rw [synced.told.1, synced'.told.1]
  refine ⟨?_, ids'.symm, List.eq_nil_iff_forall_not_mem.mpr fun id named => ?_⟩
  · have lengths := congrArg List.length ids
    rwa [List.length_map] at lengths
  · obtain ⟨e, among, _, failed⟩ := mem_peersWhere.mp named
    rw [answered e among] at failed
    cases failed

omit [Catalog κ] in
/-- The calls of the second are to those that responded to the first. -/
theorem Synced.called_again {report : SyncReport}
    (synced : Synced s habit ended called (.ok report) s₁) (ordered : s.desk.node.registry.Ordered)
    (synced' : Synced s₁ habit ended' called' answer' s₂) :
    called'.lanes.peers.sent.map (·.member.id) = report.responded := by
  have wanted := congrArg (List.map fun call => call.1.id) synced'.obeyed.asked.asked
  rw [List.map_map, List.map_map] at wanted
  have named : called'.lanes.peers.sent.map (·.member.id) =
      s₁.desk.node.registry.activePeers.map Member.id := wanted
  rw [named, synced.activePeers ordered, synced.told.1]
  rfl

omit [Catalog κ] in
/-- If the greatest number did not fall, the second inserts nothing and reports it again. -/
theorem Synced.inserts_nothing {report again : SyncReport}
    (synced : Synced s habit ended called (.ok report) s₁) (ordered : s.desk.node.registry.Ordered)
    (readable : s.desk.node.storage.outage .maxNumber = none)
    (le : s.desk.node.storage.log.maxNumber ≤ s₁.desk.node.storage.log.maxNumber)
    (synced' : Synced s₁ habit ended' called' (.ok again) s₂) :
    again.inserted = 0 ∧ again.maxNumber = report.maxNumber := by
  have maxNumber : again.maxNumber = report.maxNumber := by
    rw [synced'.told.2, synced.told.2, (synced.still ordered readable le synced').1]
  refine ⟨?_, maxNumber⟩
  by_cases some_asked : s₁.desk.node.registry.activePeers = []
  · rw [synced'.told.1, synced'.nobody some_asked, Sync.reportOf, Sync.batch_nil]
    rfl
  · have writable := synced.how.writable_of_ok (synced.asked_before ordered some_asked)
    rw [synced.storage] at writable
    have held := synced.obeyed.held_again ordered synced.registry (synced.log writable) le
      synced'.obeyed
    rw [synced'.told.1, Sync.reportOf, held]

end Twice

/-- Right after a first sync among steady peers, a second one calls those that responded, is answered
by all of them and, unless the greatest number of the log fell, changes nothing. -/
theorem Site.repeats_sync (quiet : s.Quiet) (ordered : s.desk.node.registry.Ordered)
    (steady : Steady s.lanes.deadline s.desk.node.registry.activePeers habit s.lanes.peers) :
    Repeats s s.sync.2 := by
  have fell := fell_sync s
  rcases synced_sync quiet ordered steady with ⟨cause, _, eq⟩ | ⟨ended, called, readable, _, synced⟩
  · have unchanged : s.sync.2 = s := congrArg Prod.snd eq
    have refused : ∀ report, s.sync.1 ≠ .ok report := by simp [eq]
    rw [unchanged] at fell ⊢
    exact
      { registry := congrArg (·.desk.node.registry) unchanged
        called := fun report ok => absurd ok (refused report)
        respond := fun report ok => absurd ok (refused report)
        fell
        still := fun _ => by rw [unchanged]; exact ⟨rfl, rfl⟩
        reported := fun _ report _ ok => absurd ok (refused report) }
  rcases synced_sync synced.quiet synced.ordered (synced.steady steady) with
    ⟨cause, outage, _⟩ | ⟨ended', called', readable', sent, synced'⟩
  · rw [synced.outage, readable] at outage
    cases outage
  constructor
  case registry => exact synced.unmarked ordered synced'
  case fell => exact fell
  case called =>
    intro report ok
    rw [ok] at synced
    rw [sent]
    exact synced.called_again ordered synced'
  case respond =>
    intro report ok
    rw [ok] at synced
    obtain ⟨again, ok'⟩ := synced.reports_again ordered readable synced'
    rw [ok'] at synced'
    exact ⟨again, ok', synced.respond_again ordered synced'⟩
  case still => exact fun stands => synced.still ordered readable (Int64.not_lt.mp stands) synced'
  case reported =>
    intro stands report again ok ok'
    rw [ok] at synced
    rw [ok'] at synced'
    exact synced.inserts_nothing ordered readable (Int64.not_lt.mp stands) synced'

/-! ## Peers that quarrel, and peers that sink a log -/

/-- The peers that quarrelled do so again, and nothing comes of it. -/
theorem repeats_quarreled :
    quarreled.sync.1 = .ok ⟨4, [2, 4], [3, 6], 5, 2, 2, 7⟩ ∧
      quarreled.sync.2.sync.1 = .ok ⟨2, [2, 4], [], 5, 0, 2, 7⟩ ∧
      Repeats quarreled quarreled.sync.2 := by
  have ordered : quarreled.desk.node.registry.Ordered :=
    Registry.ordered_mark (Registry.ordered_ofMembers _ _) _ _
  have steady : Steady 50 quarreled.desk.node.registry.activePeers (habits 50 quarrel) quarrel :=
    steady_scripted (by decide +kernel)
  exact ⟨by cbv, by cbv, Site.repeats_sync (Site.quiet_ofWidth _ 2 50 quarrel) ordered steady⟩

/-- Two peers with negative numbers: one sends its order to whoever asks, the other only to one who
asks for orders below it. -/
def sunken : ScriptedPeers where
  peers := [
    { id := 2, fetchAnswer := some [⟨-5, "ant", 1⟩] },
    { id := 3, orders := [⟨-3, "bee", 1⟩] }]

/-- A node that holds nothing. -/
def sinking : Site Stock ScriptedPeers where
  desk :=
    { node :=
        { storage := { log := .table { medium := .inMemory, rows := [] } }
          counter := .startingAbove 0
          registry := .ofMembers 1 sunken.members }
      catalog := {} }
  lanes := .ofWidth 2 50 sunken

/-- A log that takes in nothing but a negative number has a lower greatest number than when it was
empty. Then the second sync among steady peers inserts an order that the first did not ask for. -/
theorem inserts_again :
    sinking.Quiet ∧ sinking.desk.node.registry.Ordered ∧
      Steady 50 sinking.desk.node.registry.activePeers (habits 50 sunken) sunken ∧
      sinking.sync.1 = .ok ⟨2, [2, 3], [], 1, 1, 0, -5⟩ ∧
      sinking.sync.2.sync.1 = .ok ⟨2, [2, 3], [], 2, 1, 0, -3⟩ := by
  have steady : Steady 50 sinking.desk.node.registry.activePeers (habits 50 sunken) sunken :=
    steady_scripted (by decide +kernel)
  exact ⟨Site.quiet_ofWidth _ 2 50 sunken, Registry.ordered_ofMembers _ _, steady, by cbv, by cbv⟩

end OrderCluster.Replication
