import OrderCluster.Proofs.Replication.Apart

/-!
# Peers of steady habits

A peer of steady habits meets every request for orders in one way: it always fails, or it always
sends those of its records that lie above the number asked, or it always sends one and the same
list. However the requests of a round are mixed, each of them then ends as its peer is used to.
-/

namespace OrderCluster.Replication

/-- How a peer always meets a request for orders. -/
inductive Habit where
  | fails
  /-- It sends those of its records that lie above the number asked, in whichever order. -/
  | serves (records : List Order)
  /-- It sends these records, whatever it is asked. -/
  | repeats (records : List Order)
  deriving DecidableEq, Repr

namespace Habit

/-- Whether a request for the orders above a number ends in accordance with a habit. -/
def Meets (after : OrderNumber) : Habit → Verdict → Prop
  | .fails, verdict => verdict.isFailed = true
  | .serves records, verdict => ∃ orders, verdict = .sent orders ∧
      ∀ order, order ∈ orders ↔ order ∈ records ∧ after < order.number
  | .repeats records, verdict => verdict = .sent records

variable {habit : Habit} {verdict verdict' : Verdict} {after later : OrderNumber}

/-- A peer that failed once always fails. -/
theorem Meets.isFailed_iff (meets : habit.Meets after verdict) :
    verdict.isFailed = true ↔ habit = .fails := by
  cases habit with
  | fails => exact iff_of_true meets rfl
  | serves records =>
    obtain ⟨orders, rfl, _⟩ := meets
    exact iff_of_false (by simp [Verdict.isFailed]) nofun
  | repeats records =>
    obtain rfl := meets
    exact iff_of_false (by simp [Verdict.isFailed]) nofun

/-- What a peer sends to one who asks for less was sent to one who asked for more. -/
theorem Meets.sent_before (meets : habit.Meets after verdict)
    (meets' : habit.Meets later verdict') (le : after ≤ later) {order : Order}
    (sent : order ∈ verdict'.orders) : order ∈ verdict.orders := by
  cases habit with
  | fails =>
    cases verdict' with
    | failed e => cases sent
    | _ => cases meets'
  | serves records =>
    obtain ⟨orders, rfl, among⟩ := meets
    obtain ⟨orders', rfl, among'⟩ := meets'
    obtain ⟨held, above⟩ := (among' order).mp sent
    exact (among order).mpr ⟨held, Int64.lt_of_le_of_lt le above⟩
  | repeats records =>
    obtain rfl := meets
    obtain rfl := meets'
    exact sent

end Habit

variable {κ σ : Type} [Catalog κ] [Peers σ]

/-- What may have become of peers that were asked for orders. -/
inductive Later (peers : σ) : σ → Prop where
  | now : Later peers peers
  | depart {later : σ} (before : Later peers later) (m : Member) (request : FetchRequest) :
    Later peers (Peers.depart later m .fetch request).2
  | arrive {later : σ} (before : Later peers later) (m : Member) (departure : Departure)
    (request : FetchRequest) : Later peers (Peers.arrive later m departure .fetch request).2

omit [Catalog κ] in
theorem Later.trans {first second third : σ} (before : Later first second)
    (after : Later second third) : Later first third := by
  induction after with
  | now => exact before
  | depart _ m request ih => exact ih.depart m request
  | arrive _ m departure request ih => exact ih.arrive m departure request

/-- Whenever a request to one of the members sets out and whenever it arrives, it ends in accordance
with the habit of the member. -/
def Steady (limit : Nat) (members : List Member) (habit : NodeId → Habit) (peers : σ) : Prop :=
  ∀ m ∈ members, ∀ (request : FetchRequest) (out land : σ), Later peers out → Later peers land →
    (habit m.id).Meets request.after
      (if limit < (Peers.depart out m .fetch request).1.delay then .failed (Peers.gaveUp m limit)
      else
        .ofFetch (Peers.arrive land m (Peers.depart out m .fetch request).1 .fetch request).1)

namespace Steady

variable {limit : Nat} {members : List Member} {habit : NodeId → Habit} {peers : σ}

omit [Catalog κ] in
theorem later (steady : Steady limit members habit peers) {peers' : σ}
    (after : Later peers peers') : Steady limit members habit peers' :=
  fun m among request out land departs arrives =>
    steady m among request out land (after.trans departs) (after.trans arrives)

omit [Catalog κ] in
theorem fewer (steady : Steady limit members habit peers) {others : List Member}
    (among : ∀ m ∈ others, m ∈ members) : Steady limit others habit peers :=
  fun m other => steady m (among m other)

end Steady

/-- A round of requests among steady peers, under way: each request that waits or flies is one to a
steady peer, and each that has ended did so in accordance with its peer's habit. -/
structure Habitual (limit : Nat) (members : List Member) (habit : NodeId → Habit) (peers : σ)
    (request : FetchRequest) (l : Lanes σ) (waiting : List Call) (ended : List Ended) : Prop where
  deadline : l.deadline = limit
  later : Later peers l.peers
  waits : ∀ call ∈ waiting, call.member ∈ members ∧ call.errand = .fetch request
  flies : ∀ f ∈ l.flights, f.call.member ∈ members ∧ f.call.errand = .fetch request ∧
    ∃ out, Later peers out ∧ f.departure = (Peers.depart out f.call.member .fetch request).1
  met : ∀ e ∈ ended, (habit e.1).Meets request.after e.2

namespace Habitual

variable {limit : Nat} {members : List Member} {habit : NodeId → Habit} {peers : σ}
  {request : FetchRequest} {l : Lanes σ} {ended : List Ended}

omit [Catalog κ] in
theorem depart {call : Call} {rest : List Call}
    (habitual : Habitual limit members habit peers request l (call :: rest) ended) :
    Habitual limit members habit peers request (l.depart call) rest ended := by
  obtain ⟨among, errand⟩ := habitual.waits call List.mem_cons_self
  have departed : call.errand.depart l.peers call.member =
      Peers.depart l.peers call.member .fetch request := by rw [errand]; rfl
  have waits : ∀ other ∈ rest, other.member ∈ members ∧ other.errand = .fetch request :=
    fun other later => habitual.waits other (List.mem_cons_of_mem _ later)
  constructor
  · exact habitual.deadline
  · change Later peers (call.errand.depart l.peers call.member).2
    rw [departed]
    exact habitual.later.depart _ _
  · exact waits
  · intro f flies
    rcases List.mem_append.mp flies with before | now
    · exact habitual.flies f before
    · rw [List.mem_singleton.mp now]
      exact ⟨among, errand, l.peers, habitual.later, congrArg Prod.fst departed⟩
  · exact habitual.met

omit [Catalog κ] in
theorem fill {waiting : List Call}
    (habitual : Habitual limit members habit peers request l waiting ended) :
    Habitual limit members habit peers request (l.fill waiting) (l.fill waiting).waiting ended := by
  induction waiting generalizing l with
  | nil => exact ⟨habitual.deadline, habitual.later, nofun, habitual.flies, habitual.met⟩
  | cons call rest ih =>
    rw [Lanes.fill]
    split
    · exact ⟨habitual.deadline, habitual.later, habitual.waits, habitual.flies, habitual.met⟩
    · exact ih habitual.depart

omit [Catalog κ] in
theorem land (steady : Steady limit members habit peers)
    (habitual : Habitual limit members habit peers request l l.waiting ended) {f : Flight}
    {others : List Flight} (perm : l.flights.Perm (f :: others)) :
    Habitual limit members habit peers request (l.land f others).lanes
      (l.land f others).lanes.waiting
      (ended ++ [(f.call.member.id, (l.land f others).verdict)]) := by
  obtain ⟨among, errand, out, departs, departure⟩ :=
    habitual.flies f (perm.mem_iff.mpr List.mem_cons_self)
  have arrived : f.call.errand.arrive l.peers f.call.member f.departure =
      (.ofFetch (Peers.arrive l.peers f.call.member f.departure .fetch request).1,
        (Peers.arrive l.peers f.call.member f.departure .fetch request).2) := by rw [errand]; rfl
  have meets := steady f.call.member among request out l.peers departs habitual.later
  have flies : ∀ other ∈ others, _ := fun other flying =>
    habitual.flies other (perm.mem_iff.mpr (List.mem_cons_of_mem _ flying))
  have met : ∀ verdict, (habit f.call.member.id).Meets request.after verdict →
      ∀ e ∈ ended ++ [(f.call.member.id, verdict)], (habit e.1).Meets request.after e.2 := by
    intro verdict meets e ends
    rcases List.mem_append.mp ends with before | now
    · exact habitual.met e before
    · rw [List.mem_singleton.mp now]
      exact meets
  rw [← departure] at meets
  rw [Lanes.land_eq]
  apply fill
  by_cases late : f.isLate limit = true
  · have verdict : l.verdict f = (.failed (Peers.gaveUp f.call.member limit), l.peers) := by
      rw [Lanes.verdict, habitual.deadline, if_pos late]
    rw [if_pos (of_decide_eq_true late)] at meets
    rw [verdict]
    exact ⟨habitual.deadline, habitual.later, habitual.waits, flies, met _ meets⟩
  · have verdict : l.verdict f = f.call.errand.arrive l.peers f.call.member f.departure := by
      rw [Lanes.verdict, habitual.deadline, if_neg late]
    rw [if_neg (by simpa [Flight.isLate] using late)] at meets
    rw [verdict, arrived]
    exact ⟨habitual.deadline, habitual.later.arrive _ _ _, habitual.waits, flies, met _ meets⟩

end Habitual

namespace Site

/-- Requests to steady peers end in accordance with the habits of the peers, which are as steady
afterwards. -/
theorem habitual_call {s : Site κ σ} (quiet : s.Quiet) {members : List Member}
    {habit : NodeId → Habit} (steady : Steady s.lanes.deadline members habit s.lanes.peers)
    (request : FetchRequest) :
    (∀ e ∈ (s.call .fetch members (.fetch request)).1, (habit e.1).Meets request.after e.2) ∧
      Later s.lanes.peers (s.call .fetch members (.fetch request)).2.lanes.peers ∧
      (s.call .fetch members (.fetch request)).2.lanes.deadline = s.lanes.deadline := by
  obtain ⟨no_flights, _⟩ := List.append_eq_nil_iff.mp quiet.no_calls
  have begun : Habitual s.lanes.deadline members habit s.lanes.peers request s.lanes
      (s.planned members (.fetch request)) [] := by
    refine ⟨rfl, .now, fun call planned => ?_, fun f flies => ?_, nofun⟩
    · obtain ⟨m, among, rfl⟩ := List.mem_map.mp planned
      exact ⟨among, rfl⟩
    · rw [List.map_eq_nil_iff.mp no_flights] at flies
      cases flies
  obtain ⟨habitual, _⟩ := call_lands
    (J := fun l ended _ =>
      Habitual s.lanes.deadline members habit s.lanes.peers request l l.waiting ended)
    (fun perm habitual => habitual.land steady perm) quiet .fetch members (.fetch request)
    begun.fill
  exact ⟨habitual.met, habitual.later, habitual.deadline⟩

end Site

/-! ## Peers that follow a script -/

/-- The habit of a peer that follows a script. -/
def habitOf (limit : Nat) (p : ScriptedPeer) : Habit :=
  if p.touches .fetch ∧ (limit < p.delay ∨ p.manner ≠ .answers) then .fails
  else
    match p.fetchAnswer with
    | none => .serves p.orders
    | some orders => .repeats orders

theorem arrive_fetch_of_answers {p : ScriptedPeer} {departure : Departure}
    (answers : departure.heedful = true → p.manner = .answers) (request : FetchRequest) :
    p.arrive departure .fetch request =
      (.ok ⟨p.fetchAnswer.getD (p.after request.after), request.after⟩, p) := by
  cases heeds : departure.heedful with
  | false => simp [ScriptedPeer.arrive, ScriptedPeer.answer, heeds]
  | true => simp [ScriptedPeer.arrive, ScriptedPeer.answer, heeds, answers heeds]

theorem arrive_fetch_of_fails {p : ScriptedPeer} {departure : Departure}
    (heeds : departure.heedful = true) (fails : p.manner ≠ .answers) (request : FetchRequest) :
    ∃ e, p.arrive departure .fetch request = (.error e, p) := by
  unfold ScriptedPeer.arrive
  rw [heeds]
  cases manner : p.manner with
  | answers => exact absurd manner fails
  | _ => exact ⟨_, rfl⟩

theorem arrive_fetch_snd (p : ScriptedPeer) (departure : Departure) (request : FetchRequest) :
    (p.arrive departure .fetch request).2 = p := by
  by_cases answers : departure.heedful = true → p.manner = .answers
  · rw [arrive_fetch_of_answers answers]
  · obtain ⟨heeds, fails⟩ := Classical.not_imp.mp answers
    obtain ⟨e, eq⟩ := arrive_fetch_of_fails heeds fails request
    rw [eq]

/-- Requests for orders change nothing about a peer with a script but its notes. -/
theorem script_of_later {peers later : ScriptedPeers} (after : Later peers later) {line : Nat}
    {p : ScriptedPeer} (found : peers.peers[line]? = some p) :
    ∃ calls, later.peers[line]? = some { p with calls } := by
  induction after with
  | now => exact ⟨p.calls, found⟩
  | @depart later _ m request ih =>
    obtain ⟨calls, kept⟩ := ih
    by_cases here : m.line = line
    · subst here
      exact ⟨calls ++ [⟨.fetch, request⟩], by
        simp [Peers.depart, kept, ScriptedPeers.modify, ScriptedPeer.depart]⟩
    · refine ⟨calls, ?_⟩
      rw [← kept]
      exact apart_scripted.depart_other (Ne.symm here) later .fetch request
  | @arrive later _ m departure request ih =>
    obtain ⟨calls, kept⟩ := ih
    by_cases here : m.line = line
    · subst here
      exact ⟨calls, by simp [Peers.arrive, kept, ScriptedPeers.modify, arrive_fetch_snd]⟩
    · refine ⟨calls, ?_⟩
      rw [← kept]
      exact apart_scripted.arrive_other (Ne.symm here) later departure .fetch request

/-- How a call of a peer with a script sets out. -/
def departureOf (p : ScriptedPeer) : Departure :=
  ⟨if p.touches .fetch then p.delay else 0, p.touches .fetch⟩

/-- A peer with a script keeps to its habit. -/
theorem meets_habitOf (limit : Nat) (p : ScriptedPeer) (m : Member) (request : FetchRequest) :
    (habitOf limit p).Meets request.after
      (if limit < (departureOf p).delay then .failed (Peers.gaveUp m limit)
      else .ofFetch (p.arrive (departureOf p) .fetch request).1) := by
  by_cases fails : p.touches .fetch = true ∧ (limit < p.delay ∨ p.manner ≠ .answers)
  · rw [habitOf, if_pos fails]
    obtain ⟨touched, late | silent⟩ := fails
    · rw [departureOf, if_pos touched, if_pos late]
      rfl
    · have heeds : (departureOf p).heedful = true := touched
      obtain ⟨e, failed⟩ := arrive_fetch_of_fails heeds silent request
      rw [failed]
      split <;> rfl
  · have inTime : ¬ limit < (departureOf p).delay := by
      rw [departureOf]
      dsimp only
      split
      · rename_i touched
        exact fun late => fails ⟨touched, Or.inl late⟩
      · exact Nat.not_lt_zero limit
    have answers : (departureOf p).heedful = true → p.manner = .answers := fun touched =>
      Classical.byContradiction fun silent => fails ⟨touched, Or.inr silent⟩
    rw [habitOf, if_neg fails, if_neg inTime, arrive_fetch_of_answers answers]
    cases p.fetchAnswer with
    | none =>
      refine ⟨_, rfl, fun order => ?_⟩
      rw [Option.getD_none, ScriptedPeer.after, List.mem_mergeSort, List.mem_filter,
        decide_eq_true_iff]
    | some orders => rfl

/-- The habits of peers with scripts, each under the id of its script. -/
def habits (limit : Nat) (peers : ScriptedPeers) (id : NodeId) : Habit :=
  ((peers.peers.find? fun p => p.id = id).map (habitOf limit)).getD .fails

/-- Peers with scripts are steady. -/
theorem steady_scripted {limit : Nat} {members : List Member} {peers : ScriptedPeers}
    (scripts : ∀ m ∈ members,
      (peers.peers[m.line]?).map (habitOf limit) = some (habits limit peers m.id)) :
    Steady limit members (habits limit peers) peers := by
  intro m among request out land departs arrives
  obtain ⟨p, found, eq⟩ := Option.map_eq_some_iff.mp (scripts m among)
  obtain ⟨calls, at_first⟩ := script_of_later departs found
  obtain ⟨calls', at_last⟩ := script_of_later arrives found
  have departed : (Peers.depart out m .fetch request).1 = departureOf p := by
    simp only [Peers.depart, at_first]
    rfl
  have arrived : (Peers.arrive land m (departureOf p) .fetch request).1 =
      (({ p with calls := calls' } : ScriptedPeer).arrive (departureOf p) .fetch request).1 := by
    simp only [Peers.arrive, at_last]
  rw [← eq, departed, arrived]
  exact meets_habitOf limit { p with calls := calls' } m request

end OrderCluster.Replication
