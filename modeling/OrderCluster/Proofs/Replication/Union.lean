import Mathlib
import OrderCluster.Catalog.Stock
import OrderCluster.Proofs.Replication.Record
import OrderCluster.Proofs.Replication.Settled
import OrderCluster.Rpc.Scripted

/-!
# A sync is a union

Whatever the log of a node holds, whatever its registry says and however its peers behave, a sync
that runs on its own adds to the log, for each number that was sent and is not held, the first
record of that number in the answer of the lowest peer that sent it, and changes nothing that is
held. Its report agrees with what the calls were answered, and the registry and the counter follow
from the report.
-/

namespace OrderCluster.Replication

/-! ## What a report counts -/

/-- The peers whose calls ended one way and those whose calls ended the other way are all peers. -/
theorem perm_peersWhere (p : Verdict → Bool) (ended : List Ended) :
    (peersWhere (fun v => !p v) ended ++ peersWhere p ended).Perm (ended.map Prod.fst) := by
  refine ((List.mergeSort_perm _ _).append (List.mergeSort_perm _ _)).trans ?_
  rw [← List.map_append]
  refine List.Perm.map _ (List.perm_append_comm.trans ?_)
  exact List.filter_append_perm (fun e : Ended => p e.2) ended

theorem ascending_peersWhere (p : Verdict → Bool) {ended : List Ended}
    (distinct : (ended.map Prod.fst).Nodup) : (peersWhere p ended).Pairwise (· < ·) := by
  refine ascending_mergeSort (fun id : NodeId => id) ?_
  rw [List.map_id']
  exact distinct.sublist (List.filter_sublist.map Prod.fst)

namespace Sync

/-- The number of records that were sent. -/
theorem received_eq (ended : List Ended) :
    (ended.flatMap fun (_, verdict) => verdict.orders).length =
      ((answers ended).map fun answer => answer.2.length).sum := by
  induction ended with
  | nil => rfl
  | cons e rest ih =>
    obtain ⟨peer, verdict⟩ := e
    rw [List.flatMap_cons, List.length_append, ih]
    cases verdict with
    | sent orders =>
      change _ = (((peer, orders) :: answers rest).map fun answer => answer.2.length).sum
      rw [List.map_cons, List.sum_cons]
      rfl
    | _ => exact Nat.zero_add _

theorem answers_sublist (ended : List Ended) :
    ((answers ended).map Prod.fst).Sublist (ended.map Prod.fst) := by
  induction ended with
  | nil => exact .slnil
  | cons e rest ih =>
    obtain ⟨peer, verdict⟩ := e
    cases verdict with
    | sent orders => exact ih.cons_cons peer
    | _ => exact ih.cons peer

/-- Where every call failed or brought an answer, the peers that did not fail are those that
answered. -/
theorem mem_responded {ended : List Ended}
    (told : ∀ e ∈ ended, e.2.isFailed = true ∨ ∃ orders, e.2 = .sent orders) {id : NodeId} :
    id ∈ peersWhere (!·.isFailed) ended ↔ ∃ orders, (id, orders) ∈ answers ended := by
  rw [mem_peersWhere]
  constructor
  · rintro ⟨⟨peer, verdict⟩, member, rfl, answered⟩
    rcases told _ member with failed | ⟨orders, rfl⟩
    · simp only [failed, Bool.not_true, Bool.false_eq_true] at answered
    · exact ⟨orders, List.mem_filterMap.mpr ⟨_, member, rfl⟩⟩
  · rintro ⟨orders, among⟩
    exact ⟨_, mem_answers among, rfl, rfl⟩

/-- What is held after the batch of a sync was written: what was held before, and the first record
of every other number that was sent. -/
theorem held_batch {ended : List Ended} (distinct : (ended.map Prod.fst).Nodup) (log : OrderLog)
    (n : OrderNumber) (order : Order) :
    (log.insertAll (batch ended)).2.get? n = some order ↔
      log.get? n = some order ∨ log.get? n = none ∧ First (answers ended) n order := by
  rw [OrderLog.get?_insertAll, batch, find?_merge, Option.or_eq_some_iff,
    find?_readingOrder_iff (distinct.sublist (answers_sublist ended))]

/-- A sync that ends with a report: the batch was written, also where it is empty because nobody was
asked. -/
structure Reported (s : Sync) (ended : List Ended) (d : Desk κ) (report : SyncReport)
    (d' : Desk κ) : Prop where
  told : report = reportOf s ended d.node.storage.log
  log : d'.node.storage.log = (d.node.storage.log.insertAll (batch ended)).2
  registry : d'.node.registry = d.node.registry
  catalog : d'.catalog = d.catalog
  counter : s.peers ≠ [] → d'.node.counter = d.node.counter.resetAbove report.maxNumber
  alone : s.peers = [] → d' = d ∧ report = ⟨0, [], [], 0, 0, 0, s.after⟩

theorem ConcludeEnd.reported {κ : Type} {s : Sync} {ended : List Ended} {d d' : Desk κ}
    {report : SyncReport} (how : ConcludeEnd s ended d (.ok report) d')
    (nobody : s.peers = [] → ended = []) (top : s.after = d.node.storage.log.maxNumber) :
    Reported s ended d report d' := by
  cases how with
  | alone none_asked =>
    obtain rfl := nobody none_asked
    have empty : d.node.storage.log.insertAll (batch []) = (0, d.node.storage.log) := by
      rw [batch_nil]
      rfl
    constructor
    · simp only [reportOf, empty, none_asked, top]
      simp [peersWhere, answers, merge, readingOrder]
    · rw [empty]
    · rfl
    · rfl
    · exact fun asked => absurd none_asked asked
    · exact fun _ => ⟨rfl, rfl⟩
  | merged asked _ _ =>
    exact ⟨rfl, rfl, rfl, rfl, fun _ => rfl, fun none_asked => absurd none_asked asked⟩

theorem ConcludeEnd.outage {κ : Type} {s : Sync} {ended : List Ended} {d d' : Desk κ}
    {cause : Failure} (how : ConcludeEnd s ended d (.error cause) d') :
    ∃ call, d.node.storage.outage call = some cause := by
  cases how with
  | failed _ outage => exact ⟨_, outage⟩
  | unread _ _ outage => exact ⟨_, outage⟩

end Sync

variable {κ σ : Type} [Catalog κ] [Peers σ]

/-- A request for orders fails, or it brings orders. -/
theorem Site.told_call {s : Site κ σ} (quiet : s.Quiet) (members : List Member)
    (request : FetchRequest) :
    ∀ e ∈ (s.call .fetch members (.fetch request)).1,
      e.2.isFailed = true ∨ ∃ orders, e.2 = .sent orders := by
  have handled : Handled (κ := κ) (σ := σ) (.fetch request) fun ended _ _ =>
      ∀ e ∈ ended, e.2.isFailed = true ∨ ∃ orders, e.2 = .sent orders := by
    constructor
    · exact fun told => told
    · intro m ended d peers departure told e among
      rcases List.mem_append.mp among with before | now
      · exact told e before
      · rw [List.mem_singleton.mp now]
        change (Verdict.ofFetch (Peers.arrive peers m departure .fetch request).1).isFailed =
          true ∨ ∃ orders, Verdict.ofFetch (Peers.arrive peers m departure .fetch request).1 =
            .sent orders
        cases (Peers.arrive peers m departure .fetch request).1 with
        | error e => exact Or.inl rfl
        | ok response => exact Or.inr ⟨response.orders, rfl⟩
    · intro m ended d peers deadline told e among
      rcases List.mem_append.mp among with before | now
      · exact told e before
      · rw [List.mem_singleton.mp now]
        exact Or.inl rfl
  apply handled_call handled quiet .fetch members
  exact fun e among => absurd among List.not_mem_nil

/-! ## What a sync does -/

/-- What a sync did to a site and what it reports, told by the record of its calls. -/
structure Unites (s : Site κ σ) (report : SyncReport) (s' : Site κ (Noted σ)) : Prop where
  /-- The sync without the record of its calls. -/
  bare : s.sync = (.ok report, s'.bare)
  /-- Every active peer was asked once for the orders above the greatest number held, and nobody was
  asked for anything else. -/
  asked : s'.lanes.peers.sent.map Sent.wanted =
    s.desk.node.registry.activePeers.map fun m =>
      (m, ⟨.fetch, ⟨s.desk.node.registry.selfId, s.desk.node.storage.log.maxNumber⟩⟩)
  /-- The calls in time arrived, each once, and no other call did. -/
  arrived : ((s'.lanes.peers.sent.filter (Sent.inTime s.lanes.deadline)).map Sent.member).Perm
    (s'.lanes.peers.heard.map Heard.member)
  contacted : report.contacted = s.desk.node.registry.activePeers.length
  received : report.received = (s'.lanes.peers.answers.map fun answer => answer.2.length).sum
  responded : ∀ id, id ∈ report.responded ↔ ∃ orders, (id, orders) ∈ s'.lanes.peers.answers
  parted : (report.responded ++ report.failed).Perm
    (s.desk.node.registry.activePeers.map Member.id)
  disjoint : ∀ id ∈ report.responded, id ∉ report.failed
  ascending : report.responded.Pairwise (· < ·) ∧ report.failed.Pairwise (· < ·)
  held : ∀ n order, s'.desk.node.storage.log.get? n = some order ↔
    s.desk.node.storage.log.get? n = some order ∨
      s.desk.node.storage.log.get? n = none ∧ First s'.lanes.peers.answers n order
  inserted : s'.desk.node.storage.log.all.length =
    s.desk.node.storage.log.all.length + report.inserted
  members : s'.desk.node.registry.members =
    s.desk.node.registry.members.map fun m =>
      if m.id ∈ report.failed then { m with status := .offline } else m
  selfId : s'.desk.node.registry.selfId = s.desk.node.registry.selfId
  leader : s'.desk.node.registry.leader = s.desk.node.registry.leader
  maxNumber : report.maxNumber = s'.desk.node.storage.log.maxNumber
  counter : s.desk.node.registry.activePeers ≠ [] →
    s'.desk.node.counter.next.toInt =
      max s.desk.node.counter.next.toInt
        (min (report.maxNumber.toInt + 1) OrderNumber.last.toInt)
  catalog : s'.desk.catalog = s.desk.catalog
  /-- With nobody to ask, nothing happens. -/
  alone : s.desk.node.registry.activePeers = [] →
    s'.desk = s.desk ∧ report = ⟨0, [], [], 0, 0, 0, s.desk.node.storage.log.maxNumber⟩

theorem distinct_activePeers {r : Registry} (ordered : r.Ordered) :
    (r.activePeers.map Member.id).Nodup := by
  have ascending : (r.activePeers.map Member.id).Pairwise (· < ·) :=
    List.pairwise_map.mpr (ordered.sublist List.filter_sublist)
  exact ascending.imp fun lt => UInt32.ne_of_lt lt

/-- The calls of a sync have ended, and their record agrees with how they ended. -/
structure Asked (s : Site κ σ) (ended : List Ended) (called : Site κ (Noted σ)) : Prop where
  asked : called.lanes.peers.sent.map Sent.wanted =
    s.desk.node.registry.activePeers.map fun m =>
      (m, ⟨.fetch, ⟨s.desk.node.registry.selfId, s.desk.node.storage.log.maxNumber⟩⟩)
  arrived : ((called.lanes.peers.sent.filter (Sent.inTime s.lanes.deadline)).map
    Sent.member).Perm (called.lanes.peers.heard.map Heard.member)
  answers : Sync.answers ended = called.lanes.peers.answers
  everyone : (ended.map Prod.fst).Perm (s.desk.node.registry.activePeers.map Member.id)
  told : ∀ e ∈ ended, e.2.isFailed = true ∨ ∃ orders, e.2 = .sent orders
  noticed : Noticed s.desk.node.registry ended called.desk.node.registry
  books : s.desk.SameBooks called.desk
  alone : s.desk.node.registry.activePeers = [] → called.desk = s.desk

theorem Site.asked_call {s : Site κ σ} (quiet : s.Quiet)
    (ordered : s.desk.node.registry.Ordered) {ended : List Ended} {called : Site κ (Noted σ)}
    (round : s.noted.call .fetch s.desk.node.registry.activePeers
      (.fetch ⟨s.desk.node.registry.selfId, s.desk.node.storage.log.maxNumber⟩) =
        (ended, called)) :
    Asked s ended called := by
  obtain ⟨rfl, rfl⟩ := Prod.mk.inj round
  obtain ⟨asked, arrived, answers⟩ := noted_call quiet .fetch s.desk.node.registry.activePeers
    (.fetch ⟨s.desk.node.registry.selfId, s.desk.node.storage.log.maxNumber⟩)
  constructor
  · exact asked
  · exact arrived
  · exact answers
  · exact everyone_ended quiet.noted .fetch _ _
  · exact told_call quiet.noted _ _
  · exact noticed_call quiet.noted ordered .fetch _ _
  · exact sameBooks_call s.noted .fetch _ _
  · intro nobody
    rw [nobody]
    rfl

/-- Once its calls have ended, a sync unites what the node holds and what the peers sent. -/
theorem Asked.unites {s : Site κ σ} {ended : List Ended} {called : Site κ (Noted σ)}
    (asked : Asked s ended called) (ordered : s.desk.node.registry.Ordered) {report : SyncReport}
    {d' : Desk κ}
    (reported : Sync.Reported
      ⟨s.desk.node.registry.selfId, s.desk.node.registry.activePeers,
        s.desk.node.storage.log.maxNumber⟩ ended called.desk report d')
    (finished : s.noted.sync = (.ok report, { called with desk := d' })) :
    Unites s report { called with desk := d' } := by
  have distinct : (ended.map Prod.fst).Nodup :=
    asked.everyone.nodup_iff.mpr (distinct_activePeers ordered)
  have parted := perm_peersWhere (·.isFailed) ended
  have log := reported.log
  rw [asked.books.storage] at log
  have told := reported.told
  rw [asked.books.storage] at told
  subst told
  constructor
  · rw [Site.sync_noted, finished]
  · exact asked.asked
  · exact asked.arrived
  · rfl
  · rw [← asked.answers]
    exact Sync.received_eq ended
  · intro id
    rw [← asked.answers]
    exact Sync.mem_responded asked.told
  · exact parted.trans asked.everyone
  · exact fun id answered failed =>
      (List.nodup_append.mp (parted.nodup_iff.mpr distinct)).2.2 id answered id failed rfl
  · exact ⟨ascending_peersWhere (!·.isFailed) distinct, ascending_peersWhere (·.isFailed) distinct⟩
  · intro n order
    rw [log, ← asked.answers]
    exact Sync.held_batch distinct _ n order
  · rw [log]
    exact OrderLog.length_insertAll _ _
  · rw [reported.registry, asked.noticed.members, fallen_eq]
    rfl
  · rw [reported.registry, asked.noticed.selfId]
  · rw [reported.registry, asked.noticed.leader]
  · rw [log]
    rfl
  · intro some_asked
    rw [reported.counter some_asked, Counter.toInt_resetAbove, asked.books.counter]
  · rw [reported.catalog, asked.books.catalog]
  · intro nobody
    obtain ⟨same, told⟩ := reported.alone nobody
    exact ⟨same.trans (asked.alone nobody), told⟩

/-- A sync that runs on its own makes its calls and ends with a report, unless the log of the node
fails. -/
theorem Site.asked_sync {s : Site κ σ} (quiet : s.Quiet)
    (ordered : s.desk.node.registry.Ordered) :
    (∃ ended called report d', Asked s ended called ∧
      Sync.Reported
        ⟨s.desk.node.registry.selfId, s.desk.node.registry.activePeers,
          s.desk.node.storage.log.maxNumber⟩ ended called.desk report d' ∧
      s.noted.sync = (.ok report, { called with desk := d' })) ∨
      ∃ call cause, s.desk.node.storage.outage call = some cause ∧
        s.noted.sync.1 = .error cause := by
  rcases sync_cases s.noted with ⟨cause, outage, eq⟩ |
    ⟨sync, ended, called, _, begun, answered, same, eq⟩
  · exact Or.inr ⟨_, cause, outage, by rw [eq]⟩
  have how := sync.concludeEnd_conclude ended called.desk
  have finished : s.noted.sync =
      (((sync.conclude ended).perform called.desk).1,
        { called with desk := ((sync.conclude ended).perform called.desk).2 }) := eq
  rw [finished]
  generalize (sync.conclude ended).perform called.desk = concluded at how
  obtain ⟨answer, d'⟩ := concluded
  cases answer with
  | error cause =>
    obtain ⟨call, outage⟩ := how.outage
    rw [same.storage] at outage
    exact Or.inr ⟨call, cause, outage, rfl⟩
  | ok report =>
    subst begun
    have asked : Asked s ended called := asked_call quiet ordered answered
    have nobody : s.desk.node.registry.activePeers = [] → ended = [] := by
      intro none_asked
      have none_ended := asked.everyone
      rw [none_asked, List.map_nil] at none_ended
      exact List.map_eq_nil_iff.mp none_ended.eq_nil
    have top : s.desk.node.storage.log.maxNumber = called.desk.node.storage.log.maxNumber := by
      rw [same.storage]
      rfl
    exact Or.inl ⟨ended, called, report, d', asked, how.reported nobody top, rfl⟩

/-- A sync that runs on its own is a union of what is held and of what the peers sent, unless the
log of the node fails. -/
theorem Site.unites_sync {s : Site κ σ} (quiet : s.Quiet)
    (ordered : s.desk.node.registry.Ordered) :
    (∃ report, s.sync.1 = .ok report ∧ Unites s report s.noted.sync.2) ∨
      ∃ call cause, s.desk.node.storage.outage call = some cause ∧ s.sync.1 = .error cause := by
  rcases asked_sync quiet ordered with ⟨ended, called, report, d', asked, reported, eq⟩ | failed
  · have unites := asked.unites ordered reported eq
    refine Or.inl ⟨report, congrArg Prod.fst unites.bare, ?_⟩
    rwa [eq]
  · rw [sync_noted]
    exact Or.inr failed

/-! ## Peers that disagree -/

/-- Five peers: two contradict each other, one of them also itself and the log of the node that
asks; one is down, one is slow and one is not asked at all. -/
def quarrel : ScriptedPeers where
  peers := [
    { id := 4, fetchAnswer := some [⟨7, "bee", 1⟩, ⟨7, "wasp", 1⟩, ⟨5, "fly", 2⟩, ⟨-3, "moth", 1⟩] },
    { id := 3, manner := .down },
    { id := 2, fetchAnswer := some [⟨7, "gnat", 1⟩] },
    { id := 6, orders := [⟨8, "mite", 1⟩], delay := 80 },
    { id := 5, orders := [⟨9, "louse", 1⟩] }]

/-- A node that holds one order and believes one of the peers offline. -/
def quarreled : Site Stock ScriptedPeers where
  desk :=
    { node :=
        { storage := { log := .table { medium := .inMemory, rows := [⟨5, "ant", 1⟩] } }
          counter := .startingAbove 5
          registry := ((Registry.ofMembers 1 quarrel.members).mark 5 .offline).2 }
      catalog := {} }
  lanes := .ofWidth 2 50 quarrel

theorem unites_quarreled :
    quarreled.sync.1 = .ok ⟨4, [2, 4], [3, 6], 5, 2, 2, 7⟩ ∧
      quarreled.sync.2.desk.node.storage.log.get? 7 = some ⟨7, "gnat", 1⟩ ∧
      quarreled.sync.2.desk.node.counter = ⟨8⟩ ∧
      ((∃ report, quarreled.sync.1 = .ok report ∧
          Unites quarreled report quarreled.noted.sync.2) ∨
        ∃ call cause, quarreled.desk.node.storage.outage call = some cause ∧
          quarreled.sync.1 = .error cause) := by
  have ordered : quarreled.desk.node.registry.Ordered :=
    Registry.ordered_mark (Registry.ordered_ofMembers _ _) _ _
  exact ⟨by cbv, by cbv, by cbv,
    Site.unites_sync (Site.quiet_ofWidth _ 2 50 quarrel) ordered⟩

end OrderCluster.Replication
