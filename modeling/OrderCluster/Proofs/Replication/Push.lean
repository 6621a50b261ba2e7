import OrderCluster.Proofs.Replication.Apart
import OrderCluster.Proofs.Replication.Record
import OrderCluster.Proofs.Replication.Union

/-!
# A push to all peers

A push that runs on its own calls every active peer once, and its report and the registry tell
afterwards how each call ended. In which order the calls end, and how many of them are made at a
time, cannot be told: among peers that stand apart the push comes to the same as calling them one
after the other.
-/

namespace OrderCluster.Replication

/-! ## Reports -/

/-- A report does not tell in which order the calls ended. -/
theorem peersWhere_perm (p : Verdict → Bool) {ended others : List Ended}
    (distinct : (ended.map Prod.fst).Nodup) (perm : ended.Perm others) :
    peersWhere p ended = peersWhere p others := by
  have ascending := ascending_peersWhere p distinct
  have ascending_too := ascending_peersWhere p ((perm.map Prod.fst).nodup_iff.mp distinct)
  apply List.Perm.eq_of_pairwise _ ascending ascending_too
  · apply (List.mergeSort_perm _ _).trans
    apply List.Perm.trans _ (List.mergeSort_perm _ _).symm
    exact (perm.filter _).map _
  · intro a b _ _ lower higher
    exact absurd (UInt32.lt_trans lower higher) (UInt32.lt_irrefl _)

namespace FanOut

theorem report_perm {ended others : List Ended} (distinct : (ended.map Prod.fst).Nodup)
    (perm : ended.Perm others) : report ended = report others := by
  simp only [report, peersWhere_perm _ distinct perm]

/-- An order that is pushed is stored, or held already, or the call fails. -/
def Answered (ended : List Ended) : Prop :=
  ∀ e ∈ ended, e.2 = .stored ∨ e.2 = .held ∨ e.2.isFailed = true

theorem Answered.snoc {ended : List Ended} (answered : Answered ended) (id : NodeId)
    (answer : Except PeerError AcceptResponse) : Answered (ended ++ [(id, .ofAccept answer)]) := by
  intro e among
  rcases List.mem_append.mp among with before | now
  · exact answered e before
  · rw [List.mem_singleton.mp now]
    cases answer with
    | error error => exact Or.inr (Or.inr rfl)
    | ok response =>
      simp only [Verdict.ofAccept]
      by_cases fresh : response.success = true
      · simp [fresh]
      · simp [fresh]

/-- A report has every peer once. -/
theorem perm_report {ended : List Ended} (answered : Answered ended) :
    ((report ended).accepted ++ (report ended).duplicates ++ (report ended).failed).Perm
      (ended.map Prod.fst) := by
  have parts : (ended.filter (fun e => decide (e.2 = .stored)) ++
      ended.filter (fun e => decide (e.2 = .held)) ++
      ended.filter fun e => e.2.isFailed).Perm ended := by
    induction ended with
    | nil => exact .refl _
    | cons e rest ih =>
      have later := ih fun e among => answered e (List.mem_cons_of_mem _ among)
      have now := answered e List.mem_cons_self
      obtain ⟨peer, verdict⟩ := e
      cases verdict with
      | stored => simpa [Verdict.isFailed] using later
      | held =>
        rw [List.append_assoc] at later
        simpa [Verdict.isFailed] using List.perm_middle.trans (later.cons (peer, .held))
      | failed error =>
        simpa [Verdict.isFailed] using List.perm_middle.trans (later.cons (peer, .failed error))
      | sent orders => simp [Verdict.isFailed] at now
  apply List.Perm.trans _ (parts.map Prod.fst)
  simp only [List.map_append]
  exact ((List.mergeSort_perm _ _).append (List.mergeSort_perm _ _)).append
    (List.mergeSort_perm _ _)

end FanOut

/-! ## What becomes of the registry -/

/-- The registry after some peers were noted as offline. -/
def withdrawn (r : Registry) (ids : List NodeId) : Registry :=
  ids.foldl (fun r id => (r.mark id .offline).2) r

theorem withdrawn_perm {ids others : List NodeId} (perm : ids.Perm others) (r : Registry) :
    withdrawn r ids = withdrawn r others := by
  apply perm.foldl_eq'
  intro id _ other _ r
  by_cases same : id = other
  · rw [same]
  · exact Registry.mark_comm same r .offline .offline

theorem registry_settledAll (kind : CallKind) (ended : List Ended) (d : Desk κ) :
    (settledAll kind ended d).node.registry =
      withdrawn d.node.registry (peersWhere (·.isFailed) ended) := by
  have one_by_one : (settledAll kind ended d).node.registry = withdrawn d.node.registry
      ((ended.filter fun e => e.2.isFailed).map Prod.fst) := by
    induction ended generalizing d with
    | nil => rfl
    | cons e rest ih =>
      have later := ih (settled kind e.1 e.2 d)
      change (settledAll kind rest (settled kind e.1 e.2 d)).node.registry = _
      rw [later]
      cases failed : e.2.isFailed
      · simp [settled, failed]
      · simp [settled, failed, withdrawn]
  rw [one_by_one]
  exact withdrawn_perm (List.mergeSort_perm _ _).symm _

/-! ## What a push does -/

variable {κ σ : Type} [Catalog κ] [Peers σ]

/-- A pushed order that was heard ended as it was answered. -/
theorem Heard.ended?_iff {h : Heard} (pushed : h.answer.1 = .accept) {e : Ended} :
    h.ended? = some e ↔ ∃ answer : Except PeerError AcceptResponse,
      h.answer = ⟨.accept, answer⟩ ∧ e = (h.member.id, .ofAccept answer) := by
  obtain ⟨m, method, answer⟩ := h
  cases pushed
  simp [ended?, eq_comm]

/-- The calls of a push, once they have ended. -/
structure Pushed (errand : Errand) (d : Desk κ) (ended : List Ended) (d' : Desk κ)
    (peers : Noted σ) : Prop where
  desk : d' = settledAll errand.kind ended d
  answered : FanOut.Answered ended
  heard : ∀ h ∈ peers.heard, h.answer.1 = .accept

theorem Site.pushed_call {s : Site κ σ} (quiet : s.Quiet) (members : List Member)
    (request : AcceptRequest) :
    let done := s.noted.call .accept members (.accept request)
    Pushed (.accept request) s.desk done.1 done.2.desk done.2.lanes.peers := by
  have handled : Handled (κ := κ) (σ := Noted σ) (.accept request)
      (Pushed (.accept request) s.desk) := by
    constructor
    · rintro m ended d peers ⟨desk, answered, heard⟩
      exact ⟨desk, answered, heard⟩
    · rintro m ended d peers departure ⟨desk, answered, heard⟩
      refine ⟨by rw [settledAll_snoc, desk], ?_, ?_⟩
      · exact answered.snoc m.id (Peers.arrive peers.peers m departure .accept request).1
      · intro h among
        rcases List.mem_append.mp among with before | now
        · exact heard h before
        · rw [List.mem_singleton.mp now]
    · rintro m ended d peers deadline ⟨desk, answered, heard⟩
      exact ⟨by rw [settledAll_snoc, desk], answered.snoc m.id (.error _), heard⟩
  apply handled_call handled quiet.noted .accept members
  refine ⟨rfl, fun e among => absurd among List.not_mem_nil, fun h among => ?_⟩
  exact absurd among List.not_mem_nil

theorem Verdict.ofAccept_eq_stored {answer : Except PeerError AcceptResponse} :
    Verdict.ofAccept answer = .stored ↔ answer = .ok ⟨true⟩ := by
  rcases answer with error | ⟨_ | _⟩ <;> simp [ofAccept]

theorem Verdict.ofAccept_eq_held {answer : Except PeerError AcceptResponse} :
    Verdict.ofAccept answer = .held ↔ answer = .ok ⟨false⟩ := by
  rcases answer with error | ⟨_ | _⟩ <;> simp [ofAccept]

theorem Verdict.isFailed_ofAccept {answer : Except PeerError AcceptResponse} :
    (Verdict.ofAccept answer).isFailed = true ↔ ∃ e, answer = .error e := by
  rcases answer with error | ⟨_ | _⟩ <;> simp [ofAccept, isFailed]

section Told

variable {ended : List Ended} {limit : Nat} {peers : Noted σ} {id : NodeId}
  (told : ended.Perm (peers.heard.filterMap Heard.ended? ++
    (peers.sent.filter fun c => !c.inTime limit).map fun c => givenUp limit c.member))
  (pushed : ∀ h ∈ peers.heard, h.answer.1 = .accept)

include told pushed

omit [Peers σ] in
/-- Which peers a report names can be told from the record of the calls. -/
theorem mem_peersWhere_told {p : Verdict → Bool} :
    id ∈ peersWhere p ended ↔
      (∃ h ∈ peers.heard, h.member.id = id ∧ ∃ answer : Except PeerError AcceptResponse,
        h.answer = ⟨.accept, answer⟩ ∧ p (.ofAccept answer) = true) ∨
      ∃ c ∈ peers.sent, c.member.id = id ∧ limit < c.delay ∧
        p (.failed (Peers.gaveUp c.member limit)) = true := by
  rw [mem_peersWhere]
  constructor
  · rintro ⟨e, among, rfl, named⟩
    rcases List.mem_append.mp (told.mem_iff.mp among) with kept | lost
    · obtain ⟨h, heard, ended⟩ := List.mem_filterMap.mp kept
      obtain ⟨answer, answered, rfl⟩ := (Heard.ended?_iff (pushed h heard)).mp ended
      exact Or.inl ⟨h, heard, rfl, answer, answered, named⟩
    · obtain ⟨c, late, rfl⟩ := List.mem_map.mp lost
      obtain ⟨sent, late⟩ := List.mem_filter.mp late
      exact Or.inr ⟨c, sent, rfl, by simpa [Sent.inTime] using late, named⟩
  · rintro (⟨h, heard, rfl, answer, answered, named⟩ | ⟨c, sent, rfl, late, named⟩)
    · refine ⟨(h.member.id, .ofAccept answer), told.mem_iff.mpr ?_, rfl, named⟩
      apply List.mem_append_left
      exact List.mem_filterMap.mpr
        ⟨h, heard, (Heard.ended?_iff (pushed h heard)).mpr ⟨answer, answered, rfl⟩⟩
    · refine ⟨givenUp limit c.member, told.mem_iff.mpr ?_, rfl, named⟩
      apply List.mem_append_right
      exact List.mem_map.mpr
        ⟨c, List.mem_filter.mpr ⟨sent, by simpa [Sent.inTime] using late⟩, rfl⟩

omit [Peers σ] in
theorem mem_accepted : id ∈ (FanOut.report ended).accepted ↔
    ∃ h ∈ peers.heard, h.member.id = id ∧ h.answer = ⟨.accept, .ok ⟨true⟩⟩ := by
  rw [FanOut.report, mem_peersWhere_told told pushed]
  simp [Verdict.ofAccept_eq_stored]

omit [Peers σ] in
theorem mem_duplicates : id ∈ (FanOut.report ended).duplicates ↔
    ∃ h ∈ peers.heard, h.member.id = id ∧ h.answer = ⟨.accept, .ok ⟨false⟩⟩ := by
  rw [FanOut.report, mem_peersWhere_told told pushed]
  simp [Verdict.ofAccept_eq_held]

omit [Peers σ] in
theorem mem_failed : id ∈ (FanOut.report ended).failed ↔
    (∃ h ∈ peers.heard, h.member.id = id ∧ ∃ e, h.answer = ⟨.accept, .error e⟩) ∨
      ∃ c ∈ peers.sent, c.member.id = id ∧ limit < c.delay := by
  rw [FanOut.report, mem_peersWhere_told told pushed]
  apply or_congr
  · constructor
    · rintro ⟨h, heard, named, answer, answered, failed⟩
      obtain ⟨e, rfl⟩ := Verdict.isFailed_ofAccept.mp failed
      exact ⟨h, heard, named, e, answered⟩
    · rintro ⟨h, heard, named, e, answered⟩
      exact ⟨h, heard, named, .error e, answered, rfl⟩
  · simp [Verdict.isFailed]

end Told

/-- Among peers that stand apart a push comes to the same as calling them one after the other. -/
theorem Site.fanOut_inTurn {ι π : Type} {place : Member → ι} {part : σ → ι → π}
    (apart : Apart place part) {s : Site κ σ} (quiet : s.Quiet)
    (ordered : s.desk.node.registry.Ordered)
    (places : (s.desk.node.registry.activePeers.map place).Nodup) (order : Order) {ended : List Ended}
    {d : Desk κ} {peers : σ}
    (turn : Errand.callInTurn (.accept ⟨order, s.desk.node.registry.selfId⟩) s.lanes.deadline
      s.desk.node.registry.activePeers s.desk s.lanes.peers = (ended, d, peers)) :
    (s.fanOut order).1 = FanOut.report ended ∧ (s.fanOut order).2.desk = d ∧
      part (s.fanOut order).2.lanes.peers = part peers := by
  let errand : Errand := .accept ⟨order, s.desk.node.registry.selfId⟩
  have mixed := calledEach apart quiet .accept places errand
  have inTurn : CalledEach place part errand s.lanes.deadline s.desk.node.registry.activePeers
      s.desk s.lanes.peers _ _ _ := CalledEach.callInTurn apart places s.desk s.lanes.peers
  rw [turn] at inTurn
  obtain ⟨agreed, desk, parts⟩ := mixed.agree inTurn (distinct_activePeers ordered)
  refine ⟨FanOut.report_perm ?_ agreed, desk, parts⟩
  have ids := mixed.ends.map Prod.fst
  rw [List.map_map] at ids
  exact ids.nodup_iff.mpr (distinct_activePeers ordered)

/-- What a push did to a site and what it reports, told by the record of its calls. -/
structure Pushes (s : Site κ σ) (order : Order) (report : FanOutReport) (s' : Site κ (Noted σ)) :
    Prop where
  /-- Every active peer was sent the order once, and nobody was sent anything else. -/
  sent : s'.lanes.peers.sent.map Sent.wanted = s.desk.node.registry.activePeers.map fun m =>
    (m, ⟨.accept, ⟨order, s.desk.node.registry.selfId⟩⟩)
  /-- The calls in time arrived, each once, and no other call did. -/
  arrived : ((s'.lanes.peers.sent.filter (Sent.inTime s.lanes.deadline)).map Sent.member).Perm
    (s'.lanes.peers.heard.map Heard.member)
  accepted : ∀ id, id ∈ report.accepted ↔
    ∃ h ∈ s'.lanes.peers.heard, h.member.id = id ∧ h.answer = ⟨.accept, .ok ⟨true⟩⟩
  duplicates : ∀ id, id ∈ report.duplicates ↔
    ∃ h ∈ s'.lanes.peers.heard, h.member.id = id ∧ h.answer = ⟨.accept, .ok ⟨false⟩⟩
  failed : ∀ id, id ∈ report.failed ↔
    (∃ h ∈ s'.lanes.peers.heard, h.member.id = id ∧ ∃ e, h.answer = ⟨.accept, .error e⟩) ∨
      ∃ c ∈ s'.lanes.peers.sent, c.member.id = id ∧ s.lanes.deadline < c.delay
  ascending : report.accepted.Pairwise (· < ·) ∧ report.duplicates.Pairwise (· < ·) ∧
    report.failed.Pairwise (· < ·)
  /-- Every peer that was active is told once, in one of the three ways. -/
  parted : (report.accepted ++ report.duplicates ++ report.failed).Perm
    (s.desk.node.registry.activePeers.map Member.id)
  disjoint : (report.accepted ++ report.duplicates ++ report.failed).Nodup
  /-- The peers that failed were noted as offline, and nothing else happened to the registry. -/
  registry : s'.desk.node.registry = withdrawn s.desk.node.registry report.failed
  members : s'.desk.node.registry.members = s.desk.node.registry.members.map fun m =>
    if m.id ∈ report.failed then { m with status := .offline } else m
  books : s.desk.SameBooks s'.desk
  /-- Among peers that stand apart it is as if they had been called one after the other. -/
  inTurn : ∀ {ι π : Type} {place : Member → ι} {part : σ → ι → π}, Apart place part →
    (s.desk.node.registry.activePeers.map place).Nodup →
      ∃ ended d peers,
        Errand.callInTurn (.accept ⟨order, s.desk.node.registry.selfId⟩) s.lanes.deadline
          s.desk.node.registry.activePeers s.desk s.lanes.peers = (ended, d, peers) ∧
        report = FanOut.report ended ∧ s'.desk = d ∧ part s'.lanes.peers.peers = part peers
  /-- Among such peers it does not matter how many calls are made at a time. -/
  anyWidth : ∀ {ι π : Type} {place : Member → ι} {part : σ → ι → π}, Apart place part →
    (s.desk.node.registry.activePeers.map place).Nodup → ∀ parallel,
      ∃ other, Site.fanOut { s with lanes := .ofWidth parallel s.lanes.deadline s.lanes.peers }
          order = (report, other) ∧
        other.desk = s'.desk ∧ part other.lanes.peers = part s'.lanes.peers.peers

/-- A push that runs on its own calls every active peer once, and comes to the same as calling them
one after the other. -/
theorem Site.pushes_fanOut {s : Site κ σ} (quiet : s.Quiet)
    (ordered : s.desk.node.registry.Ordered) (order : Order) :
    ∃ report s', s.noted.fanOut order = (report, s') ∧ s.fanOut order = (report, s'.bare) ∧
      Pushes s order report s' := by
  have recorded := fanOut_noted s order
  refine ⟨_, _, rfl, recorded, ?_⟩
  let errand : Errand := .accept ⟨order, s.desk.node.registry.selfId⟩
  let peers := s.desk.node.registry.activePeers
  obtain ⟨sent, arrived, _⟩ := noted_call quiet .accept peers errand
  have told := told_noted quiet .accept peers errand
  have pushed := pushed_call quiet peers ⟨order, s.desk.node.registry.selfId⟩
  have everyone := everyone_ended quiet.noted .accept peers errand
  have noticed := noticed_call quiet.noted ordered .accept peers errand
  have books := sameBooks_call s.noted .accept peers errand
  change s.fanOut order = (FanOut.report (s.noted.call .accept peers errand).1,
    (s.noted.call .accept peers errand).2.bare) at recorded
  change Pushes s order (FanOut.report (s.noted.call .accept peers errand).1)
    (s.noted.call .accept peers errand).2
  generalize s.noted.call .accept peers errand = done at *
  obtain ⟨ended, s'⟩ := done
  dsimp only at *
  have distinct : (ended.map Prod.fst).Nodup :=
    everyone.nodup_iff.mpr (distinct_activePeers ordered)
  have parted := (FanOut.perm_report pushed.answered).trans everyone
  constructor
  case sent => exact sent
  case arrived => exact arrived
  case accepted => exact fun id => mem_accepted told pushed.heard
  case duplicates => exact fun id => mem_duplicates told pushed.heard
  case failed => exact fun id => mem_failed told pushed.heard
  case ascending =>
    exact ⟨ascending_peersWhere (· = .stored) distinct, ascending_peersWhere (· = .held) distinct,
      ascending_peersWhere (·.isFailed) distinct⟩
  case parted => exact parted
  case disjoint => exact parted.nodup_iff.mpr (distinct_activePeers ordered)
  case registry =>
    rw [pushed.desk, registry_settledAll]
    rfl
  case members =>
    rw [noticed.members, fallen_eq]
    rfl
  case books => exact books
  case inTurn =>
    intro ι π place part apart places
    refine ⟨_, _, _, rfl, ?_⟩
    have same := fanOut_inTurn apart quiet ordered places order rfl
    rwa [recorded] at same
  case anyWidth =>
    intro ι π place part apart places parallel
    let wide : Site κ σ :=
      { s with lanes := .ofWidth parallel s.lanes.deadline s.lanes.peers }
    have quiet_too : wide.Quiet :=
      { quiet_ofWidth s.desk parallel s.lanes.deadline s.lanes.peers with
        no_rounds := quiet.no_rounds }
    obtain ⟨report, desk, parts⟩ := fanOut_inTurn apart quiet ordered places order rfl
    obtain ⟨report_too, desk_too, parts_too⟩ := fanOut_inTurn apart quiet_too ordered places order rfl
    rw [recorded] at report desk parts
    refine ⟨(wide.fanOut order).2, Prod.ext (report_too.trans report.symm) rfl, ?_, ?_⟩
    · exact desk_too.trans desk.symm
    · exact parts_too.trans parts.symm

/-! ## Peers of every sort -/

/-- Six peers: two store the order, one of them late but in time; one holds its number already; one
is down, one is too slow and one is not called. -/
def motley : ScriptedPeers where
  peers := [
    { id := 7, delay := 40 },
    { id := 3, manner := .down, delay := 10 },
    { id := 2, orders := [⟨6, "gnat", 1⟩] },
    { id := 4, orders := [⟨5, "wasp", 1⟩], delay := 20 },
    { id := 6, delay := 80 },
    { id := 5 }]

/-- A node with two lanes that believes one of the peers offline. -/
def surrounded : Site Stock ScriptedPeers where
  desk :=
    { node :=
        { storage := { log := .table { medium := .inMemory, rows := [⟨5, "ant", 1⟩] } }
          counter := .startingAbove 5
          registry := ((Registry.ofMembers 1 motley.members).mark 5 .offline).2 }
      catalog := {} }
  lanes := .ofWidth 2 50 motley

theorem pushes_surrounded :
    ∃ report s', surrounded.fanOut ⟨5, "ant", 1⟩ = (report, s'.bare) ∧
      report = ⟨[2, 7], [4], [3, 6]⟩ ∧ s'.desk.node.registry.publishedActive = 3 ∧
      Pushes surrounded ⟨5, "ant", 1⟩ report s' ∧
      ∃ other, Site.fanOut { surrounded with lanes := .ofWidth 1 50 motley } ⟨5, "ant", 1⟩ =
        (report, other) ∧ other.lanes.peers.peers = s'.lanes.peers.peers.peers := by
  have ordered : surrounded.desk.node.registry.Ordered :=
    Registry.ordered_mark (Registry.ordered_ofMembers _ _) _ _
  have quiet : surrounded.Quiet := Site.quiet_ofWidth _ 2 50 motley
  obtain ⟨report, s', _, eq, pushes⟩ := Site.pushes_fanOut quiet ordered ⟨5, "ant", 1⟩
  have places : (surrounded.desk.node.registry.activePeers.map Member.line).Nodup := by
    decide +kernel
  obtain ⟨other, alone, _, same⟩ := pushes.anyWidth apart_scripted places 1
  have told : (surrounded.fanOut ⟨5, "ant", 1⟩).1 = ⟨[2, 7], [4], [3, 6]⟩ := by cbv
  have shown : (surrounded.fanOut ⟨5, "ant", 1⟩).2.desk.node.registry.publishedActive = 3 := by cbv
  rw [eq] at told shown
  refine ⟨report, s', eq, told, shown, pushes, other, alone, ?_⟩
  apply List.ext_getElem?
  exact congrFun same

end OrderCluster.Replication
