import Mathlib
import OrderCluster.Proofs.Replication.Settled
import OrderCluster.Rpc.Scripted

/-!
# Peers that stand apart

Peers stand apart when each of them minds only the calls to itself: it keeps its part of the whole,
what it does depends on that part, and a call to another peer leaves the part alone. Then it does
not matter how the calls of a round are mixed. Each call ends as it would end if it were the only
one, and the round comes to the same as calling the peers one after the other.
-/

namespace OrderCluster

theorem Metrics.add_comm (m : Metrics) (first second : Tally) (n k : Nat) :
    (m.add first n).add second k = (m.add second k).add first n := by
  simp only [Metrics.add, Metrics.mk.injEq, and_true]
  funext tally
  split <;> split <;> omega

namespace Replication

/-! ## Settling in any order -/

/-- The desk after several calls were settled. -/
def settledAll (kind : CallKind) (ended : List Ended) (d : Desk κ) : Desk κ :=
  ended.foldl (fun d e => settled kind e.1 e.2 d) d

theorem settledAll_snoc (kind : CallKind) (ended : List Ended) (e : Ended) (d : Desk κ) :
    settledAll kind (ended ++ [e]) d = settled kind e.1 e.2 (settledAll kind ended d) :=
  List.foldl_concat _ _ _ _

/-- It does not matter which of two peers has its call settled first. -/
theorem settled_comm {peer other : NodeId} (apart : peer ≠ other) (kind : CallKind)
    (verdict verdict' : Verdict) (d : Desk κ) :
    settled kind other verdict' (settled kind peer verdict d) =
      settled kind peer verdict (settled kind other verdict' d) := by
  have marks := Registry.mark_comm apart d.node.registry .offline .offline
  have counts := d.node.metrics.add_comm (.replicationCalls kind verdict.outcome)
    (.replicationCalls kind verdict'.outcome) 1 1
  simp only [settled, counts]
  cases verdict.isFailed
  · rfl
  · cases verdict'.isFailed
    · rfl
    · simp only [if_true, marks]

/-- It does not matter in which order the calls to different peers are settled. -/
theorem settledAll_perm {kind : CallKind} {ended others : List Ended}
    (distinct : (ended.map Prod.fst).Nodup) (perm : ended.Perm others) (d : Desk κ) :
    settledAll kind ended d = settledAll kind others d := by
  apply perm.foldl_eq'
  intro first among second too d
  by_cases same : first = second
  · rw [same]
  · apply settled_comm
    exact fun named => same (List.inj_on_of_nodup_map distinct among too named)

/-! ## Calls to peers that stand apart -/

variable {κ σ ι π : Type} [Peers σ]

/-- Every peer keeps its part of the whole to itself. -/
structure Apart (place : Member → ι) (part : σ → ι → π) : Prop where
  depart_same : ∀ {peers peers' : σ} {m : Member} (method : Method) (request : method.Request),
    part peers (place m) = part peers' (place m) →
      (Peers.depart peers m method request).1 = (Peers.depart peers' m method request).1 ∧
        part (Peers.depart peers m method request).2 (place m) =
          part (Peers.depart peers' m method request).2 (place m)
  depart_other : ∀ {m : Member} {k : ι}, k ≠ place m → ∀ (peers : σ) (method : Method)
    (request : method.Request), part (Peers.depart peers m method request).2 k = part peers k
  arrive_same : ∀ {peers peers' : σ} {m : Member} (departure : Departure) (method : Method)
    (request : method.Request), part peers (place m) = part peers' (place m) →
      (Peers.arrive peers m departure method request).1 =
          (Peers.arrive peers' m departure method request).1 ∧
        part (Peers.arrive peers m departure method request).2 (place m) =
          part (Peers.arrive peers' m departure method request).2 (place m)
  arrive_other : ∀ {m : Member} {k : ι}, k ≠ place m → ∀ (peers : σ) (departure : Departure)
    (method : Method) (request : method.Request),
      part (Peers.arrive peers m departure method request).2 k = part peers k

/-- Peers with scripts stand apart, each in its line. -/
theorem apart_scripted :
    Apart Member.line fun (peers : ScriptedPeers) line => peers.peers[line]? := by
  constructor
  · intro peers peers' m method request same
    cases known : peers'.peers[m.line]? with
    | none =>
      have unknown : peers.peers[m.line]? = none := same.trans known
      simp [Peers.depart, known, unknown]
    | some p =>
      have too : peers.peers[m.line]? = some p := same.trans known
      simp [Peers.depart, ScriptedPeers.modify, known, too]
  · intro m line other peers method request
    simp only [Peers.depart]
    split
    · rfl
    · simp [ScriptedPeers.modify, other.symm]
  · intro peers peers' m departure method request same
    cases known : peers'.peers[m.line]? with
    | none =>
      have unknown : peers.peers[m.line]? = none := same.trans known
      simp [Peers.arrive, known, unknown]
    | some p =>
      have too : peers.peers[m.line]? = some p := same.trans known
      simp [Peers.arrive, ScriptedPeers.modify, known, too]
  · intro m line other peers departure method request
    simp only [Peers.arrive]
    split
    · rfl
    · simp [ScriptedPeers.modify, other.symm]

/-- Makes a call and waits for its end. -/
def Errand.call (peers : σ) (m : Member) (deadline : Nat) : Errand → Verdict × σ
  | .fetch request =>
    let (answer, peers) := Peers.call peers m deadline .fetch request
    (.ofFetch answer, peers)
  | .accept request =>
    let (answer, peers) := Peers.call peers m deadline .accept request
    (.ofAccept answer, peers)

theorem Errand.call_eq (peers : σ) (m : Member) (deadline : Nat) (errand : Errand) :
    errand.call peers m deadline =
      if deadline < (errand.depart peers m).1.delay then
        (.failed (Peers.gaveUp m deadline), (errand.depart peers m).2)
      else errand.arrive (errand.depart peers m).2 m (errand.depart peers m).1 := by
  cases errand with
  | fetch request =>
    by_cases late : deadline < (Peers.depart peers m .fetch request).1.delay
    · simp [call, Peers.call, depart, late, Nat.not_le.mpr late, Verdict.ofFetch]
    · simp [call, Peers.call, depart, arrive, late, Nat.not_lt.mp late]
  | accept request =>
    by_cases late : deadline < (Peers.depart peers m .accept request).1.delay
    · simp [call, Peers.call, depart, late, Nat.not_le.mpr late, Verdict.ofAccept]
    · simp [call, Peers.call, depart, arrive, late, Nat.not_lt.mp late]

/-- Calls members one after the other, and settles each call before the next sets out. -/
def Errand.callInTurn (errand : Errand) (deadline : Nat) :
    List Member → Desk κ → σ → List Ended × Desk κ × σ
  | [], d, peers => ([], d, peers)
  | m :: rest, d, peers =>
    let (verdict, peers) := errand.call peers m deadline
    let (ended, d, peers) :=
      errand.callInTurn deadline rest (settled errand.kind m.id verdict d) peers
    ((m.id, verdict) :: ended, d, peers)

namespace Apart

variable {place : Member → ι} {part : σ → ι → π} {peers peers' : σ} {m : Member}

theorem errand_depart (apart : Apart place part) (errand : Errand)
    (same : part peers (place m) = part peers' (place m)) :
    (errand.depart peers m).1 = (errand.depart peers' m).1 ∧
      part (errand.depart peers m).2 (place m) = part (errand.depart peers' m).2 (place m) := by
  cases errand with
  | fetch request => exact apart.depart_same .fetch request same
  | accept request => exact apart.depart_same .accept request same

theorem errand_depart_other (apart : Apart place part) (errand : Errand) (peers : σ) {k : ι}
    (other : k ≠ place m) : part (errand.depart peers m).2 k = part peers k := by
  cases errand with
  | fetch request => exact apart.depart_other other peers .fetch request
  | accept request => exact apart.depart_other other peers .accept request

theorem errand_arrive (apart : Apart place part) (errand : Errand) (departure : Departure)
    (same : part peers (place m) = part peers' (place m)) :
    (errand.arrive peers m departure).1 = (errand.arrive peers' m departure).1 ∧
      part (errand.arrive peers m departure).2 (place m) =
        part (errand.arrive peers' m departure).2 (place m) := by
  cases errand with
  | fetch request =>
    obtain ⟨answer, kept⟩ := apart.arrive_same departure .fetch request same
    exact ⟨congrArg Verdict.ofFetch answer, kept⟩
  | accept request =>
    obtain ⟨answer, kept⟩ := apart.arrive_same departure .accept request same
    exact ⟨congrArg Verdict.ofAccept answer, kept⟩

theorem errand_arrive_other (apart : Apart place part) (errand : Errand) (peers : σ)
    (departure : Departure) {k : ι} (other : k ≠ place m) :
    part (errand.arrive peers m departure).2 k = part peers k := by
  cases errand with
  | fetch request => exact apart.arrive_other other peers departure .fetch request
  | accept request => exact apart.arrive_other other peers departure .accept request

/-- A call that was on its way already ends as the whole call ends that starts from the beginning,
whatever happened to the other peers in between. -/
theorem call_on_its_way (apart : Apart place part) {errand : Errand} {deadline : Nat}
    {departure : Departure} (departed : departure = (errand.depart peers m).1)
    (same : part peers' (place m) = part (errand.depart peers m).2 (place m)) {landed : Verdict × σ}
    (lands : landed =
      if deadline < departure.delay then (.failed (Peers.gaveUp m deadline), peers')
      else errand.arrive peers' m departure) :
    landed.1 = (errand.call peers m deadline).1 ∧
      part landed.2 (place m) = part (errand.call peers m deadline).2 (place m) ∧
      ∀ k, k ≠ place m → part landed.2 k = part peers' k := by
  subst departed
  rw [lands, Errand.call_eq]
  by_cases late : deadline < (errand.depart peers m).1.delay
  · rw [if_pos late, if_pos late]
    exact ⟨rfl, same, fun _ _ => rfl⟩
  · rw [if_neg late, if_neg late]
    obtain ⟨verdict, kept⟩ := apart.errand_arrive errand (errand.depart peers m).1 same
    exact ⟨verdict, kept, fun k other => apart.errand_arrive_other errand peers' _ other⟩

theorem errand_call (apart : Apart place part) (errand : Errand) (deadline : Nat)
    (same : part peers' (place m) = part peers (place m)) :
    (errand.call peers' m deadline).1 = (errand.call peers m deadline).1 ∧
      part (errand.call peers' m deadline).2 (place m) =
        part (errand.call peers m deadline).2 (place m) ∧
      ∀ k, k ≠ place m → part (errand.call peers' m deadline).2 k = part peers' k := by
  obtain ⟨departure, kept⟩ := apart.errand_depart errand same
  obtain ⟨verdict, too, others⟩ := apart.call_on_its_way departure kept
    (errand.call_eq peers' m deadline)
  refine ⟨verdict, too, fun k other => (others k other).trans ?_⟩
  exact apart.errand_depart_other errand peers' other

end Apart

/-- What becomes of a desk and of peers that stand apart when each of some members is called once,
in whatever way the calls are mixed. -/
structure CalledEach (place : Member → ι) (part : σ → ι → π) (errand : Errand) (deadline : Nat)
    (members : List Member) (d : Desk κ) (peers : σ) (ended : List Ended) (d' : Desk κ)
    (peers' : σ) : Prop where
  /-- Each call ends as it would end if it were the only one. -/
  ends : ended.Perm (members.map fun m => (m.id, (errand.call peers m deadline).1))
  desk : d' = settledAll errand.kind ended d
  /-- Each peer has done what it would have done if no other had been called. -/
  called : ∀ m ∈ members,
    part peers' (place m) = part (errand.call peers m deadline).2 (place m)
  others : ∀ k, (∀ m ∈ members, place m ≠ k) → part peers' k = part peers k

namespace CalledEach

variable {place : Member → ι} {part : σ → ι → π} {errand : Errand} {deadline : Nat}
  {members : List Member} {d d' d'' : Desk κ} {peers peers' peers'' : σ}
  {ended ended' : List Ended}

/-- However the calls were mixed, it comes to the same. -/
theorem agree
    (one : CalledEach place part errand deadline members d peers ended d' peers')
    (other : CalledEach place part errand deadline members d peers ended' d'' peers'')
    (distinct : (members.map Member.id).Nodup) :
    ended.Perm ended' ∧ d' = d'' ∧ part peers' = part peers'' := by
  have perm := one.ends.trans other.ends.symm
  have ids : (ended.map Prod.fst).Nodup := by
    apply (one.ends.map Prod.fst).nodup_iff.mpr
    simpa [Function.comp_def] using distinct
  refine ⟨perm, ?_, ?_⟩
  · rw [one.desk, other.desk, settledAll_perm ids perm]
  · funext k
    by_cases somebody : ∃ m ∈ members, place m = k
    · obtain ⟨m, member, rfl⟩ := somebody
      rw [one.called m member, other.called m member]
    · have nobody : ∀ m ∈ members, place m ≠ k := fun m member named =>
        somebody ⟨m, member, named⟩
      rw [one.others k nobody, other.others k nobody]

theorem nil (d : Desk κ) (peers : σ) :
    CalledEach place part errand deadline [] d peers [] d peers :=
  ⟨.refl _, rfl, fun _ member => absurd member List.not_mem_nil, fun _ _ => rfl⟩

/-- Calling members one after the other. -/
theorem callInTurn (apart : Apart place part) (distinct : (members.map place).Nodup) (d : Desk κ)
    (peers : σ) :
    let done := errand.callInTurn deadline members d peers
    CalledEach place part errand deadline members d peers done.1 done.2.1 done.2.2 := by
  induction members generalizing d peers with
  | nil => exact nil d peers
  | cons m rest ih =>
    obtain ⟨alone, rest_distinct⟩ := List.nodup_cons.mp distinct
    have apart_of_rest : ∀ x ∈ rest, place x ≠ place m :=
      fun x later named => alone (List.mem_map.mpr ⟨x, later, named⟩)
    obtain ⟨-, -, untouched⟩ := apart.errand_call (m := m) errand deadline (rfl : part peers _ = _)
    have alike : ∀ x ∈ rest, part (errand.call peers m deadline).2 (place x) = part peers (place x) :=
      fun x later => untouched _ (apart_of_rest x later)
    have later := ih rest_distinct (settled errand.kind m.id (errand.call peers m deadline).1 d)
      (errand.call peers m deadline).2
    intro done
    constructor
    · have same : (rest.map fun x =>
          (x.id, (errand.call (errand.call peers m deadline).2 x deadline).1)) =
          rest.map fun x => (x.id, (errand.call peers x deadline).1) := by
        apply List.map_congr_left
        intro x among
        rw [(apart.errand_call errand deadline (alike x among)).1]
      exact (same ▸ later.ends).cons _
    · exact later.desk
    · intro x among
      rcases List.mem_cons.mp among with rfl | among
      · exact later.others _ apart_of_rest
      · exact (later.called x among).trans (apart.errand_call errand deadline (alike x among)).2.1
    · intro k elsewhere
      obtain ⟨not_first, not_later⟩ := List.forall_mem_cons.mp elsewhere
      exact (later.others k not_later).trans (untouched k not_first.symm)

end CalledEach

/-! ## Calls of one round -/

/-- A round midway: what has become of each of its members. -/
structure Midway (place : Member → ι) (part : σ → ι → π) (errand : Errand) (limit : Nat)
    (members : List Member) (d : Desk κ) (peers : σ) (done : List Member) (l : Lanes σ)
    (waiting : List Call) (ended : List Ended) (d' : Desk κ) : Prop where
  deadline : l.deadline = limit
  everyone : (done ++ (l.flights.map (·.call.member) ++ waiting.map Call.member)).Perm members
  errands : ∀ call ∈ l.flights.map Flight.call ++ waiting, call.errand = errand
  ends : ended = done.map fun m => (m.id, (errand.call peers m limit).1)
  desk : d' = settledAll errand.kind ended d
  called : ∀ m ∈ done, part l.peers (place m) = part (errand.call peers m limit).2 (place m)
  flying : ∀ f ∈ l.flights, f.departure = (errand.depart peers f.call.member).1 ∧
    part l.peers (place f.call.member) =
      part (errand.depart peers f.call.member).2 (place f.call.member)
  waits : ∀ call ∈ waiting, part l.peers (place call.member) = part peers (place call.member)
  others : ∀ k, (∀ m ∈ members, place m ≠ k) → part l.peers k = part peers k

namespace Midway

variable {place : Member → ι} {part : σ → ι → π} {errand : Errand} {limit : Nat}
  {members done : List Member} {d d' : Desk κ} {peers : σ} {l : Lanes σ} {waiting : List Call}
  {ended : List Ended}

omit [Peers σ] in
/-- Members in different places: whoever stands before or behind one of them stands elsewhere. -/
theorem elsewhere {front back : List Member} {m : Member}
    (perm : (front ++ m :: back).Perm members) (distinct : (members.map place).Nodup) :
    ∀ x ∈ front ++ back, place x ≠ place m := by
  have nodup := ((List.perm_middle.symm.trans perm).map place).nodup_iff.mpr distinct
  exact fun x among named => (List.nodup_cons.mp nodup).1 (List.mem_map.mpr ⟨x, among, named⟩)

theorem depart (apart : Apart place part) (distinct : (members.map place).Nodup) {call : Call}
    {rest : List Call}
    (midway : Midway place part errand limit members d peers done l (call :: rest) ended d') :
    Midway place part errand limit members d peers done (l.depart call) rest ended d' := by
  have mine : call.errand = errand :=
    midway.errands call (List.mem_append_right _ List.mem_cons_self)
  have perm : ((done ++ l.flights.map (·.call.member)) ++ call.member :: rest.map Call.member).Perm
      members := by simpa using midway.everyone
  have elsewhere := elsewhere perm distinct
  obtain ⟨departure, departed⟩ := apart.errand_depart errand
    (midway.waits call List.mem_cons_self)
  have kept : ∀ k, k ≠ place call.member →
      part (errand.depart l.peers call.member).2 k = part l.peers k :=
    fun k other => apart.errand_depart_other errand l.peers other
  subst mine
  constructor
  · exact midway.deadline
  · simpa [Lanes.depart] using midway.everyone
  · simpa [Lanes.depart, or_assoc, or_comm, or_left_comm] using midway.errands
  · exact midway.ends
  · exact midway.desk
  · intro m among
    rw [← midway.called m among]
    apply kept
    apply elsewhere
    simp [among]
  · intro f among
    rcases List.mem_append.mp among with old | new
    · obtain ⟨same, on_its_way⟩ := midway.flying f old
      refine ⟨same, ?_⟩
      rw [← on_its_way]
      apply kept
      apply elsewhere
      simp only [List.mem_append, List.mem_map]
      exact Or.inl (Or.inr ⟨f, old, rfl⟩)
    · rw [List.mem_singleton.mp new]
      exact ⟨departure, departed⟩
  · intro other among
    rw [← midway.waits other (List.mem_cons_of_mem _ among)]
    apply kept
    apply elsewhere
    simp only [List.mem_append, List.mem_map]
    exact Or.inr ⟨other, among, rfl⟩
  · intro k nobody
    rw [← midway.others k nobody]
    apply kept
    exact (nobody _ (perm.mem_iff.mp (by simp))).symm

theorem fill (apart : Apart place part) (distinct : (members.map place).Nodup)
    (midway : Midway place part errand limit members d peers done l waiting ended d') :
    Midway place part errand limit members d peers done (l.fill waiting) (l.fill waiting).waiting
      ended d' := by
  induction waiting generalizing l with
  | nil => exact { midway with }
  | cons call rest ih =>
    rw [Lanes.fill]
    split
    · exact { midway with }
    · exact ih (midway.depart apart distinct)

theorem land (apart : Apart place part) (distinct : (members.map place).Nodup)
    (midway : Midway place part errand limit members d peers done l l.waiting ended d')
    {f : Flight} {others : List Flight} (perm : l.flights.Perm (f :: others)) :
    Midway place part errand limit members d peers (done ++ [f.call.member])
      (l.land f others).lanes (l.land f others).lanes.waiting
      (ended ++ [(f.call.member.id, (l.land f others).verdict)])
      (settled f.call.errand.kind f.call.member.id (l.land f others).verdict d') := by
  have first : f ∈ l.flights := perm.mem_iff.mpr List.mem_cons_self
  have mine : f.call.errand = errand := by
    apply midway.errands
    exact List.mem_append_left _ (List.mem_map.mpr ⟨f, first, rfl⟩)
  have everyone : (done ++ f.call.member ::
      (others.map (·.call.member) ++ l.waiting.map Call.member)).Perm members :=
    ((((perm.map (·.call.member)).append_right _).append_left done).symm).trans midway.everyone
  have elsewhere := elsewhere everyone distinct
  obtain ⟨departed, on_its_way⟩ := midway.flying f first
  have verdict_eq : l.verdict f =
      if limit < f.departure.delay then (.failed (Peers.gaveUp f.call.member limit), l.peers)
      else errand.arrive l.peers f.call.member f.departure := by
    simp [Lanes.verdict, Flight.isLate, midway.deadline, mine]
  obtain ⟨verdict, called, kept⟩ := apart.call_on_its_way departed on_its_way verdict_eq
  rw [Lanes.land_eq]
  apply fill apart distinct
  subst mine
  constructor
  · exact midway.deadline
  · simpa using everyone
  · intro call among
    apply midway.errands
    rcases List.mem_append.mp among with flies | waits
    · exact List.mem_append_left _ ((perm.map Flight.call).mem_iff.mpr (List.mem_cons_of_mem _ flies))
    · exact List.mem_append_right _ waits
  · rw [midway.ends, List.map_append, List.map_singleton, verdict]
  · rw [settledAll_snoc, ← midway.desk]
  · intro m among
    rcases List.mem_append.mp among with before | now
    · rw [← midway.called m before]
      apply kept
      apply elsewhere
      exact List.mem_append_left _ before
    · rw [List.mem_singleton.mp now]
      exact called
  · intro g among
    obtain ⟨same, still⟩ := midway.flying g (perm.mem_iff.mpr (List.mem_cons_of_mem _ among))
    refine ⟨same, ?_⟩
    rw [← still]
    apply kept
    apply elsewhere
    simp only [List.mem_append, List.mem_map]
    exact Or.inr (Or.inl ⟨g, among, rfl⟩)
  · intro call among
    rw [← midway.waits call among]
    apply kept
    apply elsewhere
    simp only [List.mem_append, List.mem_map]
    exact Or.inr (Or.inr ⟨call, among, rfl⟩)
  · intro k nobody
    rw [← midway.others k nobody]
    apply kept
    exact (nobody _ (everyone.mem_iff.mp (by simp))).symm

end Midway

/-- A round of calls from a quiet site, in any number of lanes, calls each member once. -/
theorem Site.calledEach [Catalog κ] {place : Member → ι} {part : σ → ι → π}
    (apart : Apart place part) {s : Site κ σ} (quiet : s.Quiet) (kind : CallKind)
    {members : List Member} (distinct : (members.map place).Nodup) (errand : Errand) :
    let done := s.call kind members errand
    CalledEach place part errand s.lanes.deadline members s.desk s.lanes.peers done.1 done.2.desk
      done.2.lanes.peers := by
  intro done
  obtain ⟨no_flights, _⟩ := List.append_eq_nil_iff.mp quiet.no_calls
  have flights := List.map_eq_nil_iff.mp no_flights
  have begun : Midway place part errand s.lanes.deadline members s.desk s.lanes.peers [] s.lanes
      (s.planned members errand) [] s.desk := by
    refine ⟨rfl, ?_, ?_, rfl, rfl, ?_, ?_, fun _ _ => rfl, fun _ _ => rfl⟩
    · simp [flights, planned, Function.comp_def]
    · simp [flights, planned]
    · exact fun m none => absurd none List.not_mem_nil
    · simp [flights]
  obtain ⟨⟨all, ended⟩, none_left⟩ := call_lands
    (J := fun l ended d => ∃ done, Midway place part errand s.lanes.deadline members s.desk
      s.lanes.peers done l l.waiting ended d)
    (fun perm some_done => some_done.elim fun _ midway => ⟨_, midway.land apart distinct perm⟩)
    quiet kind members errand
    ⟨[], begun.fill apart distinct⟩
  obtain ⟨no_flights, no_waiting⟩ := List.append_eq_nil_iff.mp none_left
  have everyone := ended.everyone
  rw [List.map_eq_nil_iff.mp no_flights, no_waiting] at everyone
  have perm : all.Perm members := by simpa using everyone
  refine ⟨?_, ended.desk, ?_, ended.others⟩
  · rw [ended.ends]
    exact perm.map _
  · exact fun m member => ended.called m (perm.mem_iff.mpr member)

end Replication

end OrderCluster
