import OrderCluster.Proofs.Replication.Landing
import OrderCluster.Proofs.Replication.Merge

/-!
# How a sync concludes

Once every call of a sync has ended, what the peers sent is merged and written. The ways in which
that can end are listed with the desk that each leaves behind. A log may begin to fail while the
sync waits for its peers; if it takes the batch in and cannot be read again, the counter stays behind
what was written. Every other sync leaves a node ahead of its log that was ahead of it before.
-/

namespace OrderCluster

namespace Replication

variable {κ : Type} [Catalog κ]

namespace Sync

theorem perform_begin (d : Desk κ) :
    begin.perform d =
      (match d.node.storage.read .maxNumber fun log => log.maxNumber with
        | .ok after => .ok ⟨d.node.registry.selfId, d.node.registry.activePeers, after⟩
        | .error cause => .error cause, d) := by
  simp only [begin, Work.perform_bind, Work.perform_registry, Work.perform_maxNumber]
  cases d.node.storage.read .maxNumber fun log => log.maxNumber <;> rfl

/-- The report of a sync that wrote its batch. -/
def reportOf (s : Sync) (ended : List Ended) (log : OrderLog) : SyncReport where
  contacted := s.peers.length
  responded := peersWhere (!·.isFailed) ended
  failed := peersWhere (·.isFailed) ended
  received := (ended.flatMap fun (_, verdict) => verdict.orders).length
  inserted := (log.insertAll (batch ended)).1
  conflicts := (merge (answers ended)).conflicts
  maxNumber := (log.insertAll (batch ended)).2.maxNumber

/-- The desk after the batch of a sync was written. -/
def written (ended : List Ended) (d : Desk κ) : Desk κ :=
  { d with
    node :=
      { d.node with
        storage := { d.node.storage with log := (d.node.storage.log.insertAll (batch ended)).2 } } }

/-- The desk after a sync that wrote its batch. -/
def concluded (ended : List Ended) (d : Desk κ) : Desk κ :=
  let top := (written ended d).node.storage.log.maxNumber
  { d with
    node :=
      { (written ended d).node with
        counter := d.node.counter.resetAbove top
        metrics :=
          { d.node.metrics.add .syncInserted (d.node.storage.log.insertAll (batch ended)).1 with
            maxNumber := top } } }

/-- How a sync concludes, and the desk that it leaves behind. -/
inductive ConcludeEnd (s : Sync) (ended : List Ended) (d : Desk κ) :
    Except Failure SyncReport → Desk κ → Prop where
  | alone (nobody : s.peers = []) :
    ConcludeEnd s ended d (.ok ⟨0, [], [], 0, 0, 0, s.after⟩) d
  | failed (asked : s.peers ≠ []) {cause : Failure}
    (outage : d.node.storage.outage .insertAll = some cause) :
    ConcludeEnd s ended d (.error cause) d
  | unread (asked : s.peers ≠ []) {cause : Failure}
    (works : d.node.storage.outage .insertAll = none)
    (outage : d.node.storage.outage .maxNumber = some cause) :
    ConcludeEnd s ended d (.error cause) (written ended d)
  | merged (asked : s.peers ≠ []) (works : d.node.storage.outage .insertAll = none)
    (readable : d.node.storage.outage .maxNumber = none) :
    ConcludeEnd s ended d (.ok (reportOf s ended d.node.storage.log)) (concluded ended d)

theorem concludeEnd_conclude (s : Sync) (ended : List Ended) (d : Desk κ) :
    ConcludeEnd s ended d ((s.conclude ended).perform d).1 ((s.conclude ended).perform d).2 := by
  by_cases nobody : s.peers = []
  · have alone : s.conclude ended = .done (.ok ⟨0, [], [], 0, 0, 0, s.after⟩) := by
      simp only [conclude, nobody, List.isEmpty_nil, if_true]
      rfl
    rw [alone]
    exact .alone nobody
  · have some_asked : s.peers.isEmpty = false := List.isEmpty_eq_false_iff.mpr nobody
    simp only [conclude, some_asked, Bool.false_eq_true, if_false, Work.perform_bind,
      Work.perform_insertAll]
    cases outage : d.node.storage.outage .insertAll with
    | some cause =>
      simp only [Storage.write_of_outage outage]
      exact .failed nobody outage
    | none =>
      simp only [Storage.write_of_works outage, Work.perform_bind, Work.perform_maxNumber]
      cases unread : d.node.storage.outage .maxNumber with
      | some cause =>
        simp only [Storage.read, unread]
        exact .unread nobody outage unread
      | none =>
        simp only [Storage.read, unread]
        exact .merged nobody outage unread

omit [Catalog κ] in
/-- A batch that adds nothing leaves the desk as it is. -/
theorem written_of_unwritten {ended : List Ended} {d : Desk κ}
    (unwritten : ¬ d.node.storage.log.all.length <
      (written ended d).node.storage.log.all.length) : written ended d = d := by
  have nothing : (d.node.storage.log.insertAll (batch ended)).1 = 0 := by
    have grown := d.node.storage.log.length_insertAll (batch ended)
    change ¬ _ < (d.node.storage.log.insertAll (batch ended)).2.all.length at unwritten
    omega
  rw [written, OrderLog.insertAll_of_none nothing]

omit [Catalog κ] in
/-- A sync leaves a node ahead of its log, unless it writes something and cannot read the log
afterwards. -/
theorem ConcludeEnd.ahead {s : Sync} {ended : List Ended} {d d' : Desk κ}
    {answer : Except Failure SyncReport} (how : ConcludeEnd s ended d answer d')
    (ahead : d.node.Ahead)
    (steady : d.node.storage.log.all.length < d'.node.storage.log.all.length →
      d.node.storage.outage .maxNumber = none) : d'.node.Ahead := by
  cases how with
  | alone _ => exact ahead
  | failed _ _ => exact ahead
  | unread _ _ outage =>
    rw [written_of_unwritten fun grew => ?_]
    · exact ahead
    · cases outage.symm.trans (steady grew)
  | merged _ _ _ => exact Node.ahead_of_clears (Counter.clears_resetAbove _ (Int64.le_refl _))

omit [Catalog κ] in
/-- A sync that called somebody, could write its batch and could read the log afterwards leaves the
counter above the greatest number, wherever it stood. -/
theorem ConcludeEnd.clears {s : Sync} {ended : List Ended} {d d' : Desk κ}
    {answer : Except Failure SyncReport} (how : ConcludeEnd s ended d answer d')
    (asked : s.peers ≠ []) (works : d.node.storage.outage .insertAll = none)
    (readable : d.node.storage.outage .maxNumber = none) :
    d'.node.counter.Clears d'.node.storage.log.maxNumber := by
  cases how with
  | alone nobody => exact absurd nobody asked
  | failed _ outage => cases works.symm.trans outage
  | unread _ _ outage => cases readable.symm.trans outage
  | merged _ _ _ => exact Counter.clears_resetAbove _ (Int64.le_refl _)

omit [Catalog κ] in
/-- A sync whose batch can be written leaves it written. -/
theorem ConcludeEnd.log {s : Sync} {ended : List Ended} {d d' : Desk κ}
    {answer : Except Failure SyncReport} (how : ConcludeEnd s ended d answer d')
    (works : d.node.storage.outage .insertAll = none) (nobody : s.peers = [] → ended = []) :
    d'.node.storage.log = (d.node.storage.log.insertAll (batch ended)).2 := by
  cases how with
  | alone none_asked =>
    rw [nobody none_asked, batch_nil]
    rfl
  | failed _ outage =>
    rw [works] at outage
    cases outage
  | unread _ _ _ => rfl
  | merged _ _ _ => rfl

omit [Catalog κ] in
theorem ConcludeEnd.registry {s : Sync} {ended : List Ended} {d d' : Desk κ}
    {answer : Except Failure SyncReport} (how : ConcludeEnd s ended d answer d') :
    d'.node.registry = d.node.registry := by
  cases how with
  | _ => rfl

omit [Catalog κ] in
theorem ConcludeEnd.catalog {s : Sync} {ended : List Ended} {d d' : Desk κ}
    {answer : Except Failure SyncReport} (how : ConcludeEnd s ended d answer d') :
    d'.catalog = d.catalog := by
  cases how with
  | _ => rfl

omit [Catalog κ] in
/-- A sync whose log works ends with a report. -/
theorem ConcludeEnd.reports {s : Sync} {ended : List Ended} {d d' : Desk κ}
    {answer : Except Failure SyncReport} (how : ConcludeEnd s ended d answer d')
    (works : d.node.storage.outage .insertAll = none)
    (readable : d.node.storage.outage .maxNumber = none) : ∃ report, answer = .ok report := by
  cases how with
  | alone _ => exact ⟨_, rfl⟩
  | failed _ outage =>
    rw [works] at outage
    cases outage
  | unread _ _ outage =>
    rw [readable] at outage
    cases outage
  | merged _ _ _ => exact ⟨_, rfl⟩

omit [Catalog κ] in
/-- A peer that a report names as having responded has answered. -/
theorem ConcludeEnd.responded {s : Sync} {ended : List Ended} {d d' : Desk κ}
    {report : SyncReport} (how : ConcludeEnd s ended d (.ok report) d') {id : NodeId}
    (named : id ∈ report.responded) : ∃ e ∈ ended, e.1 = id ∧ e.2.isFailed = false := by
  cases how with
  | alone _ => cases named
  | merged _ _ _ =>
    change id ∈ peersWhere (!·.isFailed) ended at named
    obtain ⟨e, among, eq, answered⟩ := mem_peersWhere.mp named
    exact ⟨e, among, eq, (Bool.not_eq_true' _).mp answered⟩

end Sync

namespace Site

variable {σ : Type} [Peers σ]

/-- A site whose log calls fail like this from now on. -/
def failing (s : Site κ σ) (outage : LogCall → Option Failure) : Site κ σ :=
  { s with desk.node.storage.outage := outage }

/-- Catches up with the peers. When their calls have ended, log calls fail in another way than when
the sync began. -/
def syncMeeting (s : Site κ σ) (outage : LogCall → Option Failure) :
    Except Failure SyncReport × Site κ σ :=
  match s.work Sync.begin with
  | (.error cause, s) => (.error cause, s)
  | (.ok sync, s) =>
    let (ended, s) := s.call .fetch sync.peers sync.errand
    (s.failing outage).work (sync.conclude ended)

/-- Such a sync either cannot read the log and changes nothing, or makes its calls and concludes. -/
theorem syncMeeting_cases (s : Site κ σ) (outage : LogCall → Option Failure) :
    ((∃ cause, s.desk.node.storage.outage .maxNumber = some cause ∧
        s.syncMeeting outage = (.error cause, s)) ∨
      ∃ sync : Sync, ∃ ended : List Ended, ∃ called : Site κ σ,
        s.desk.node.storage.outage .maxNumber = none ∧
        sync = ⟨s.desk.node.registry.selfId, s.desk.node.registry.activePeers,
          s.desk.node.storage.log.maxNumber⟩ ∧
        s.call .fetch sync.peers sync.errand = (ended, called) ∧
        s.desk.SameBooks called.desk ∧
        s.syncMeeting outage = (called.failing outage).work (sync.conclude ended)) := by
  cases unread : s.desk.node.storage.outage .maxNumber with
  | some cause =>
    have begun : s.work Sync.begin = (.error cause, s) := by
      simp only [work, Sync.perform_begin, Storage.read, unread]
    refine Or.inl ⟨cause, rfl, ?_⟩
    simp only [syncMeeting, begun]
  | none =>
    let sync : Sync := ⟨s.desk.node.registry.selfId, s.desk.node.registry.activePeers,
      s.desk.node.storage.log.maxNumber⟩
    have begun : s.work Sync.begin = (.ok sync, s) := by
      simp only [work, Sync.perform_begin, Storage.read, unread, sync]
    refine Or.inr ⟨sync, (s.call .fetch sync.peers sync.errand).1,
      (s.call .fetch sync.peers sync.errand).2, rfl, rfl, rfl, sameBooks_call _ _ _ _, ?_⟩
    simp only [syncMeeting, begun]

/-- A sync is one during which nothing begins or ceases to fail. -/
theorem sync_eq_syncMeeting (s : Site κ σ) : s.sync = s.syncMeeting s.desk.node.storage.outage := by
  rw [sync, syncMeeting]
  rcases begun : s.work Sync.begin with ⟨cause | sync, begun_site⟩
  · rfl
  · have unchanged : begun_site.desk = s.desk := by
      have desk := congrArg (fun done => done.2.desk) begun
      rw [← desk]
      exact congrArg Prod.snd (Sync.perform_begin s.desk)
    have books := sameBooks_call begun_site .fetch sync.peers sync.errand
    have same : s.desk.node.storage.outage =
        (begun_site.call .fetch sync.peers sync.errand).2.desk.node.storage.outage := by
      rw [books.storage, unchanged]
    dsimp only
    rw [same]
    rfl

/-- A sync either cannot read the log and changes nothing, or makes its calls and concludes. -/
theorem sync_cases (s : Site κ σ) :
    ((∃ cause, s.desk.node.storage.outage .maxNumber = some cause ∧
        s.sync = (.error cause, s)) ∨
      ∃ sync : Sync, ∃ ended : List Ended, ∃ called : Site κ σ,
        s.desk.node.storage.outage .maxNumber = none ∧
        sync = ⟨s.desk.node.registry.selfId, s.desk.node.registry.activePeers,
          s.desk.node.storage.log.maxNumber⟩ ∧
        s.call .fetch sync.peers sync.errand = (ended, called) ∧
        s.desk.SameBooks called.desk ∧ s.sync = called.work (sync.conclude ended)) := by
  rw [sync_eq_syncMeeting]
  rcases s.syncMeeting_cases s.desk.node.storage.outage with failed |
    ⟨sync, ended, called, readable, asks, round, books, eq⟩
  · exact Or.inl failed
  · refine Or.inr ⟨sync, ended, called, readable, asks, round, books, ?_⟩
    rw [eq, ← books.storage]
    rfl

omit [Peers σ] in
theorem outage_concluded (called : Site κ σ) (outage : LogCall → Option Failure) (sync : Sync)
    (ended : List Ended) :
    ((called.failing outage).work (sync.conclude ended)).2.desk.node.storage.outage = outage :=
  (sync.conclude ended).outage_perform (called.failing outage).desk

section Meeting

variable {s : Site κ σ} (outage : LogCall → Option Failure)

theorem catalog_syncMeeting : (s.syncMeeting outage).2.desk.catalog = s.desk.catalog := by
  rcases s.syncMeeting_cases outage with ⟨_, _, eq⟩ | ⟨sync, ended, called, _, _, _, same, eq⟩
  · rw [eq]
  · rw [eq]
    exact (sync.concludeEnd_conclude ended (called.failing outage).desk).catalog.trans same.catalog

/-- A sync loses and changes nothing that is held. -/
theorem held_syncMeeting {k : OrderNumber} {order : Order}
    (found : s.desk.node.storage.log.get? k = some order) :
    (s.syncMeeting outage).2.desk.node.storage.log.get? k = some order := by
  rcases s.syncMeeting_cases outage with ⟨_, _, eq⟩ | ⟨sync, ended, called, _, _, _, same, eq⟩
  · rwa [eq]
  · rw [eq]
    refine Work.get?_perform (sync.conclude ended) ?_
    change called.desk.node.storage.log.get? k = some order
    rwa [same.storage]

/-- A sync does not move the counter back. -/
theorem next_le_syncMeeting :
    s.desk.node.counter.next ≤ (s.syncMeeting outage).2.desk.node.counter.next := by
  rcases s.syncMeeting_cases outage with ⟨_, _, eq⟩ | ⟨sync, ended, called, _, _, _, same, eq⟩
  · rw [eq]
    exact Int64.le_refl _
  · rw [eq, ← same.counter]
    exact (sync.conclude ended).next_le_perform (called.failing outage).desk

/-- A sync leaves a node ahead of its log, unless it writes something and cannot read the log
afterwards. -/
theorem ahead_syncMeeting (ahead : s.desk.node.Ahead)
    (steady : s.desk.node.storage.log.all.length <
        (s.syncMeeting outage).2.desk.node.storage.log.all.length →
      (s.syncMeeting outage).2.desk.node.storage.outage .maxNumber = none) :
    (s.syncMeeting outage).2.desk.node.Ahead := by
  rcases s.syncMeeting_cases outage with ⟨_, _, eq⟩ | ⟨sync, ended, called, _, _, _, same, eq⟩
  · rw [eq]
    exact ahead
  · rw [eq, ← same.storage, outage_concluded] at steady
    rw [eq]
    exact (sync.concludeEnd_conclude ended (called.failing outage).desk).ahead (same.ahead ahead)
      steady

/-- A sync that had somebody to ask and a log to write to and to read leaves the counter above the
whole log, wherever it stood. -/
theorem ahead_of_merged (called_some : s.desk.node.registry.activePeers ≠ [])
    (works : (s.syncMeeting outage).2.desk.node.storage.outage .insertAll = none)
    (readable : (s.syncMeeting outage).2.desk.node.storage.outage .maxNumber = none) :
    (s.syncMeeting outage).2.desk.node.Ahead := by
  rcases s.syncMeeting_cases outage with
    ⟨_, unread, eq⟩ | ⟨sync, ended, called, _, started, _, _, eq⟩
  · rw [eq] at readable
    cases unread.symm.trans readable
  · rw [eq, outage_concluded] at works readable
    rw [eq]
    have asked : sync.peers ≠ [] := by rwa [started]
    have how := sync.concludeEnd_conclude ended (called.failing outage).desk
    exact Node.ahead_of_clears (how.clears asked works readable)

end Meeting

theorem held_sync {s : Site κ σ} {k : OrderNumber} {order : Order}
    (found : s.desk.node.storage.log.get? k = some order) :
    s.sync.2.desk.node.storage.log.get? k = some order := by
  rw [sync_eq_syncMeeting]
  exact held_syncMeeting _ found

end Site

end Replication

end OrderCluster
