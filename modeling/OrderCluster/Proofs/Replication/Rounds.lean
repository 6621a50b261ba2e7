import OrderCluster.Proofs.Replication.Landing

/-!
# Rounds of calls

A node with empty lanes makes a round of calls and waits for its end. Whatever the calls do to the
peers, and in whichever order they land, every call of the round departs, ends and is settled once.
So a property of the calls that have not ended, of those that have, of the desk and of the peers is
true at the end of a round if it is true at its beginning and kept by each departure and each
landing.
-/

namespace OrderCluster.Replication

/-- The first flight to land is taken out of the list, and no other. -/
theorem Flight.earliest?_perm {deadline : Nat} {flights others : List Flight} {f : Flight}
    (h : earliest? deadline flights = some (f, others)) : flights.Perm (f :: others) := by
  induction flights generalizing f others with
  | nil => cases h
  | cons g rest ih =>
    rw [earliest?] at h
    cases later : earliest? deadline rest with
    | none =>
      rw [later] at h
      cases h
      cases rest with
      | nil => exact .refl _
      | cons _ _ =>
        rw [earliest?] at later
        split at later
        · cases later
        · split at later <;> cases later
    | some found =>
      obtain ⟨g', others'⟩ := found
      simp only [later] at h
      split at h
      · cases h
        exact .refl _
      · cases h
        exact ((ih later).cons g).trans (.swap _ _ _)

theorem Flight.earliest?_isSome {deadline : Nat} {flights : List Flight} (some_fly : flights ≠ []) :
    (earliest? deadline flights).isSome := by
  cases flights with
  | nil => exact absurd rfl some_fly
  | cons f rest =>
    rw [earliest?]
    split
    · rfl
    · split <;> rfl

namespace Lanes

variable {σ : Type} [Peers σ]

def calls (l : Lanes σ) : List Call := l.flights.map Flight.call ++ l.waiting

omit [Peers σ] in
theorem length_calls (l : Lanes σ) : l.calls.length = l.load := by
  rw [calls, List.length_append, List.length_map]
  rfl

/-- There are lanes, and no call waits while one is free. -/
structure Flowing (l : Lanes σ) : Prop where
  some_lane : 0 < l.free + l.flights.length
  no_idle : l.waiting ≠ [] → l.free = 0

omit [Peers σ] in
theorem Flowing.flies {l : Lanes σ} (flowing : l.Flowing) (busy : l.calls ≠ []) :
    l.flights ≠ [] := by
  intro nothing
  have some_lane := flowing.some_lane
  rw [nothing, List.length_nil] at some_lane
  have waits : l.waiting ≠ [] := by
    intro none_waits
    exact busy (by rw [calls, nothing, none_waits, List.map_nil, List.append_nil])
  have full := flowing.no_idle waits
  omega

/-- Filling the lanes loses no call. -/
theorem calls_fill (l : Lanes σ) (waiting : List Call) :
    (l.fill waiting).calls = l.flights.map Flight.call ++ waiting := by
  induction waiting generalizing l with
  | nil => rfl
  | cons call rest ih =>
    rw [fill]
    split
    · rfl
    · rw [ih]
      simp only [depart, List.map_append, List.map_cons, List.map_nil, List.append_assoc,
        List.singleton_append]

theorem flowing_fill {l : Lanes σ} (some_lane : 0 < l.free + l.flights.length)
    (waiting : List Call) : (l.fill waiting).Flowing := by
  induction waiting generalizing l with
  | nil => exact ⟨some_lane, fun waits => absurd rfl waits⟩
  | cons call rest ih =>
    rw [fill]
    split
    · rename_i full
      exact ⟨some_lane, fun _ => full⟩
    · refine ih ?_
      simp only [depart, List.length_append, List.length_singleton]
      omega

/-- While a call flies, another landing is to come. -/
theorem landNext?_of_flies {l : Lanes σ} (flies : l.flights ≠ []) :
    ∃ f others, l.flights.Perm (f :: others) ∧ l.landNext? none = some (l.land f others) := by
  obtain ⟨⟨f, others⟩, found⟩ := Option.isSome_iff_exists.mp
    (@Flight.earliest?_isSome l.deadline _ flies)
  exact ⟨f, others, Flight.earliest?_perm found, by simp only [landNext?, found]; rfl⟩

/-- What became of a call, and the peers after it. -/
def verdict (l : Lanes σ) (f : Flight) : Verdict × σ :=
  if f.isLate l.deadline then (.failed (Peers.gaveUp f.call.member l.deadline), l.peers)
  else f.call.errand.arrive l.peers f.call.member f.departure

theorem land_eq (l : Lanes σ) (f : Flight) (others : List Flight) :
    l.land f others =
      ⟨f.call, (l.verdict f).1,
        { l with
          now := f.landsAt l.deadline
          free := l.free + 1
          flights := others
          peers := (l.verdict f).2 }.fill l.waiting⟩ := rfl

theorem flowing_land {l : Lanes σ} {f : Flight} {others : List Flight} :
    (l.land f others).lanes.Flowing := by
  rw [land_eq]
  refine flowing_fill ?_ _
  change 0 < l.free + 1 + _
  omega

theorem calls_land (l : Lanes σ) (f : Flight) (others : List Flight) :
    (l.land f others).lanes.calls = others.map Flight.call ++ l.waiting := by
  rw [land_eq, calls_fill]

theorem perm_land {l : Lanes σ} {f : Flight} {others : List Flight}
    (perm : l.flights.Perm (f :: others)) :
    l.calls.Perm (f.call :: (l.land f others).lanes.calls) := by
  rw [calls_land]
  exact (perm.map Flight.call).append_right l.waiting

end Lanes

/-- What every departure and every landing of a round keeps, of the calls that have not ended, those
that have, the desk of the node that calls and the peers. -/
structure Kept {κ σ : Type} [Peers σ]
    (I : List Call → List Ended → Desk κ → σ → Prop) : Prop where
  perm : ∀ {pending pending' ended d peers}, pending.Perm pending' →
    I pending ended d peers → I pending' ended d peers
  depart : ∀ {call pending ended d peers}, call ∈ pending → I pending ended d peers →
    I pending ended d (call.errand.depart peers call.member).2
  arrive : ∀ {call pending ended d peers} (departure : Departure),
    I (call :: pending) ended d peers →
      I pending
        (ended ++ [(call.member.id, (call.errand.arrive peers call.member departure).1)])
        (settled call.errand.kind call.member.id
          (call.errand.arrive peers call.member departure).1 d)
        (call.errand.arrive peers call.member departure).2
  giveUp : ∀ {call pending ended d peers} (deadline : Nat),
    I (call :: pending) ended d peers →
      I pending
        (ended ++ [(call.member.id, .failed (Peers.gaveUp call.member deadline))])
        (settled call.errand.kind call.member.id
          (.failed (Peers.gaveUp call.member deadline)) d)
        peers

/-- What every departure and every end of a call with one errand keeps. -/
structure Handled {κ σ : Type} [Peers σ] (errand : Errand)
    (I : List Ended → Desk κ → σ → Prop) : Prop where
  depart : ∀ {m ended d peers}, I ended d peers → I ended d (errand.depart peers m).2
  arrive : ∀ {m ended d peers} (departure : Departure), I ended d peers →
    I (ended ++ [(m.id, (errand.arrive peers m departure).1)])
      (settled errand.kind m.id (errand.arrive peers m departure).1 d)
      (errand.arrive peers m departure).2
  giveUp : ∀ {m ended d peers} (deadline : Nat), I ended d peers →
    I (ended ++ [(m.id, .failed (Peers.gaveUp m deadline))])
      (settled errand.kind m.id (.failed (Peers.gaveUp m deadline)) d) peers

section Rounds

variable {κ σ : Type} [Peers σ] {I : List Call → List Ended → Desk κ → σ → Prop}

theorem Kept.fill (kept : Kept I) {l : Lanes σ} {pending : List Call} {ended : List Ended}
    {d : Desk κ} (holds : I pending ended d l.peers) {waiting : List Call}
    (among : ∀ call ∈ waiting, call ∈ pending) : I pending ended d (l.fill waiting).peers := by
  induction waiting generalizing l with
  | nil => exact holds
  | cons call rest ih =>
    rw [Lanes.fill]
    split
    · exact holds
    · refine ih ?_ fun other later => among other (List.mem_cons_of_mem _ later)
      exact kept.depart (among call List.mem_cons_self) holds

/-- A landing, together with its settling, keeps what is kept. -/
theorem Kept.land (kept : Kept I) {l : Lanes σ} {f : Flight} {others : List Flight}
    (perm : l.flights.Perm (f :: others)) {ended : List Ended} {d : Desk κ}
    (holds : I l.calls ended d l.peers) :
    I (l.land f others).lanes.calls
      (ended ++ [(f.call.member.id, (l.land f others).verdict)])
      (settled f.call.errand.kind f.call.member.id (l.land f others).verdict d)
      (l.land f others).lanes.peers := by
  have ready : I (f.call :: (l.land f others).lanes.calls) ended d l.peers :=
    kept.perm (Lanes.perm_land perm) holds
  have among : ∀ call ∈ l.waiting, call ∈ (l.land f others).lanes.calls := by
    intro call waits
    rw [Lanes.calls_land]
    exact List.mem_append_right _ waits
  have landed : I (l.land f others).lanes.calls
      (ended ++ [(f.call.member.id, (l.verdict f).1)])
      (settled f.call.errand.kind f.call.member.id (l.verdict f).1 d) (l.verdict f).2 := by
    unfold Lanes.verdict
    split
    · exact kept.giveUp l.deadline ready
    · exact kept.arrive f.departure ready
  rw [Lanes.land_eq] at among landed ⊢
  exact kept.fill landed among

namespace Site

variable [Catalog κ]

/-- The only round of a site, with a call for each one that has not landed. -/
structure Underway (s : Site κ σ) (ticket : Nat) (kind : CallKind) (ended : List Ended) : Prop where
  flowing : s.lanes.Flowing
  tickets : ∀ call ∈ s.lanes.calls, call.ticket = ticket
  rounds : s.rounds = [⟨ticket, kind, s.lanes.calls.length, ended⟩]

/-- While a round is under way, its next call lands and is noted. -/
theorem Underway.next {s : Site κ σ} {ticket : Nat} {kind : CallKind} {ended : List Ended}
    (underway : s.Underway ticket kind ended) (busy : s.lanes.calls ≠ []) :
    ∃ f others, s.lanes.flights.Perm (f :: others) ∧
      s.landNext? none =
        some (s.completed? (s.lanes.land f others), s.landed (s.lanes.land f others)) ∧
      (s.rounds.map (Round.note f.call (s.lanes.land f others).verdict)) =
        [⟨ticket, kind, (s.lanes.land f others).lanes.calls.length,
          ended ++ [(f.call.member.id, (s.lanes.land f others).verdict)]⟩] := by
  obtain ⟨f, others, perm, lands⟩ := Lanes.landNext?_of_flies (underway.flowing.flies busy)
  have calls := Lanes.perm_land perm
  have mine : f.call.ticket = ticket :=
    underway.tickets f.call (calls.mem_iff.mpr List.mem_cons_self)
  have left : s.lanes.calls.length - 1 = (s.lanes.land f others).lanes.calls.length := by
    rw [calls.length_eq, List.length_cons, Nat.add_sub_cancel]
  refine ⟨f, others, perm, ?_, ?_⟩
  · rw [landNext?_eq, lands, Option.map_some]
  · simp only [underway.rounds, List.map_singleton, Round.note, mine, if_true, left]

omit [Catalog κ] in
/-- The landing of the last call completes the round, and no other landing does. -/
theorem Underway.completed?_eq {s : Site κ σ} {ticket : Nat} {kind : CallKind} {ended : List Ended}
    {f : Flight} {others : List Flight}
    (noted : s.rounds.map (Round.note f.call (s.lanes.land f others).verdict) =
      [⟨ticket, kind, (s.lanes.land f others).lanes.calls.length,
        ended ++ [(f.call.member.id, (s.lanes.land f others).verdict)]⟩]) :
    s.completed? (s.lanes.land f others) =
      if (s.lanes.land f others).lanes.calls.length = 0 then
        some ⟨ticket, kind, (s.lanes.land f others).lanes.calls.length,
          ended ++ [(f.call.member.id, (s.lanes.land f others).verdict)]⟩
      else none := by
  change (s.rounds.map (Round.note f.call (s.lanes.land f others).verdict)).find? _ = _
  rw [noted, List.find?_singleton]
  simp only [decide_eq_true_eq]

omit [Catalog κ] in
/-- A landing leaves the rest of its round under way. -/
theorem Underway.landed {s : Site κ σ} {ticket : Nat} {kind : CallKind} {ended : List Ended}
    (underway : s.Underway ticket kind ended) {f : Flight} {others : List Flight}
    (perm : s.lanes.flights.Perm (f :: others))
    (noted : s.rounds.map (Round.note f.call (s.lanes.land f others).verdict) =
      [⟨ticket, kind, (s.lanes.land f others).lanes.calls.length,
        ended ++ [(f.call.member.id, (s.lanes.land f others).verdict)]⟩])
    (busy : (s.lanes.land f others).lanes.calls ≠ []) :
    (s.landed (s.lanes.land f others)).Underway ticket kind
      (ended ++ [(f.call.member.id, (s.lanes.land f others).verdict)]) := by
  refine ⟨Lanes.flowing_land, fun call later => ?_, ?_⟩
  · exact underway.tickets call ((Lanes.perm_land perm).mem_iff.mpr (List.mem_cons_of_mem _ later))
  · have some_left : (s.lanes.land f others).lanes.calls.length ≠ 0 :=
      fun none_left => busy (List.length_eq_zero_iff.mp none_left)
    change (s.rounds.map (Round.note f.call (s.lanes.land f others).verdict)).filter _ = _
    rw [noted, List.filter_cons_of_pos (by simpa using some_left), List.filter_nil]
    rfl

/-- A round that is waited for ends with every call landed, and with what each landing keeps of the
lanes, of the calls that have ended and of the desk. -/
theorem awaitWith_lands {J : Lanes σ → List Ended → Desk κ → Prop}
    (land : ∀ {l : Lanes σ} {f : Flight} {others : List Flight} {ended : List Ended} {d : Desk κ},
      l.flights.Perm (f :: others) → J l ended d →
        J (l.land f others).lanes (ended ++ [(f.call.member.id, (l.land f others).verdict)])
          (settled f.call.errand.kind f.call.member.id (l.land f others).verdict d))
    {s : Site κ σ} {ticket : Nat} {kind : CallKind} {ended : List Ended}
    (underway : s.Underway ticket kind ended) (busy : s.lanes.calls ≠ [])
    (holds : J s.lanes ended s.desk) {fuel : Nat} (enough : s.lanes.calls.length ≤ fuel) :
    J (s.awaitWith ticket fuel).2.lanes (s.awaitWith ticket fuel).1
        (s.awaitWith ticket fuel).2.desk ∧
      (s.awaitWith ticket fuel).2.lanes.calls = [] := by
  induction fuel generalizing s ended with
  | zero => exact absurd (List.length_eq_zero_iff.mp (Nat.le_zero.mp enough)) busy
  | succ fuel ih =>
    obtain ⟨f, others, perm, lands, noted⟩ := underway.next busy
    have later := land perm holds
    have fewer : s.lanes.calls.length = (s.lanes.land f others).lanes.calls.length + 1 := by
      rw [(Lanes.perm_land perm).length_eq, List.length_cons, Lanes.land_eq]
    rw [awaitWith, lands, Underway.completed?_eq noted]
    by_cases last : (s.lanes.land f others).lanes.calls.length = 0
    · simp only [last, if_true]
      exact ⟨later, List.length_eq_zero_iff.mp last⟩
    · have more : (s.lanes.land f others).lanes.calls ≠ [] :=
        fun none_left => last (by rw [none_left, List.length_nil])
      have next_enough : (s.lanes.land f others).lanes.calls.length ≤ fuel := by omega
      simp only [last, if_false]
      exact ih (underway.landed perm noted more) more later next_enough

/-- Once a round that is waited for has ended, no round is left. -/
theorem rounds_awaitWith {s : Site κ σ} {ticket : Nat} {kind : CallKind} {ended : List Ended}
    (underway : s.Underway ticket kind ended) (busy : s.lanes.calls ≠ []) {fuel : Nat}
    (enough : s.lanes.calls.length ≤ fuel) : (s.awaitWith ticket fuel).2.rounds = [] := by
  induction fuel generalizing s ended with
  | zero => exact absurd (List.length_eq_zero_iff.mp (Nat.le_zero.mp enough)) busy
  | succ fuel ih =>
    obtain ⟨f, others, perm, lands, noted⟩ := underway.next busy
    have fewer : s.lanes.calls.length = (s.lanes.land f others).lanes.calls.length + 1 := by
      rw [(Lanes.perm_land perm).length_eq, List.length_cons, Lanes.land_eq]
    rw [awaitWith, lands, Underway.completed?_eq noted]
    by_cases last : (s.lanes.land f others).lanes.calls.length = 0
    · simp only [last, if_true]
      change (s.rounds.map (Round.note f.call (s.lanes.land f others).verdict)).filter _ = []
      rw [noted, last]
      rfl
    · have more : (s.lanes.land f others).lanes.calls ≠ [] :=
        fun none_left => last (by rw [none_left, List.length_nil])
      have next_enough : (s.lanes.land f others).lanes.calls.length ≤ fuel := by omega
      simp only [last, if_false]
      exact ih (underway.landed perm noted more) more next_enough

/-- Nothing is under way at a site. -/
structure Quiet (s : Site κ σ) : Prop where
  flowing : s.lanes.Flowing
  no_calls : s.lanes.calls = []
  no_rounds : s.rounds = []

/-- The calls of a round, before the first of them departs. -/
def planned (s : Site κ σ) (members : List Member) (errand : Errand) : List Call :=
  members.map fun member => ⟨s.nextTicket, member, errand⟩

omit [Peers σ] [Catalog κ] in
theorem planned_ne_nil {s : Site κ σ} {members : List Member} {errand : Errand}
    (some_asked : members ≠ []) : s.planned members errand ≠ [] :=
  fun nothing => some_asked (List.map_eq_nil_iff.mp nothing)

omit [Catalog κ] in
/-- A quiet site that launches calls has just their round under way. -/
theorem Quiet.launch {s : Site κ σ} (quiet : s.Quiet) (kind : CallKind) {members : List Member}
    (errand : Errand) (some_asked : members ≠ []) :
    (s.launch kind members errand).2.lanes = s.lanes.fill (s.planned members errand) ∧
      (s.launch kind members errand).2.lanes.calls = s.planned members errand ∧
      (s.launch kind members errand).2.Underway s.nextTicket kind [] := by
  obtain ⟨no_flights, no_waiting⟩ := List.append_eq_nil_iff.mp quiet.no_calls
  have lanes : (s.launch kind members errand).2.lanes =
      s.lanes.fill (s.planned members errand) := by
    change s.lanes.fill (s.lanes.waiting ++ s.planned members errand) = _
    rw [no_waiting, List.nil_append]
  have calls : (s.launch kind members errand).2.lanes.calls = s.planned members errand := by
    rw [lanes, Lanes.calls_fill, no_flights, List.nil_append]
  refine ⟨lanes, calls, ?_, ?_, ?_⟩
  · rw [lanes]
    exact Lanes.flowing_fill quiet.flowing.some_lane _
  · intro call among
    rw [calls] at among
    obtain ⟨member, _, rfl⟩ := List.mem_map.mp among
    rfl
  · have none_empty : (s.planned members errand).isEmpty = false :=
      List.isEmpty_eq_false_iff.mpr (planned_ne_nil some_asked)
    rw [calls]
    change (if (s.planned members errand).isEmpty then s.rounds
      else s.rounds ++ [⟨s.nextTicket, kind, (s.planned members errand).length, []⟩]) = _
    rw [none_empty, quiet.no_rounds]
    rfl

/-- A round of calls from a quiet site ends with every call landed, and with what each landing
keeps. -/
theorem call_lands {J : Lanes σ → List Ended → Desk κ → Prop}
    (land : ∀ {l : Lanes σ} {f : Flight} {others : List Flight} {ended : List Ended} {d : Desk κ},
      l.flights.Perm (f :: others) → J l ended d →
        J (l.land f others).lanes (ended ++ [(f.call.member.id, (l.land f others).verdict)])
          (settled f.call.errand.kind f.call.member.id (l.land f others).verdict d))
    {s : Site κ σ} (quiet : s.Quiet) (kind : CallKind) (members : List Member) (errand : Errand)
    (holds : J (s.lanes.fill (s.planned members errand)) [] s.desk) :
    J (s.call kind members errand).2.lanes (s.call kind members errand).1
        (s.call kind members errand).2.desk ∧
      (s.call kind members errand).2.lanes.calls = [] := by
  by_cases nobody : members = []
  · obtain ⟨no_flights, no_waiting⟩ := List.append_eq_nil_iff.mp quiet.no_calls
    have lanes : (s.launch kind [] errand).2.lanes = s.lanes.fill [] := by
      change s.lanes.fill (s.lanes.waiting ++ []) = _
      rw [no_waiting, List.append_nil]
    subst nobody
    simp only [call, List.isEmpty_nil, if_true, lanes]
    refine ⟨holds, ?_⟩
    rw [Lanes.calls_fill, no_flights, List.append_nil]
  · obtain ⟨lanes, calls, underway⟩ := quiet.launch kind errand nobody
    have busy : (s.launch kind members errand).2.lanes.calls ≠ [] := by
      rw [calls]
      exact planned_ne_nil nobody
    have begun : J (s.launch kind members errand).2.lanes [] s.desk := by
      rw [lanes]
      exact holds
    simp only [call, List.isEmpty_eq_false_iff.mpr nobody, Bool.false_eq_true, if_false]
    exact awaitWith_lands land underway busy begun (Nat.le_of_eq (Lanes.length_calls _))

/-- A quiet site is quiet again after a round of calls. -/
theorem Quiet.call {s : Site κ σ} (quiet : s.Quiet) (kind : CallKind) (members : List Member)
    (errand : Errand) : (s.call kind members errand).2.Quiet := by
  obtain ⟨flowing, no_calls⟩ := call_lands (J := fun l _ _ => l.Flowing)
    (fun _ _ => Lanes.flowing_land) quiet kind members errand
    (Lanes.flowing_fill quiet.flowing.some_lane _)
  refine ⟨flowing, no_calls, ?_⟩
  by_cases nobody : members = []
  · subst nobody
    exact quiet.no_rounds
  · obtain ⟨_, calls, underway⟩ := quiet.launch kind errand nobody
    have busy : (s.launch kind members errand).2.lanes.calls ≠ [] := by
      rw [calls]
      exact planned_ne_nil nobody
    simp only [Site.call, List.isEmpty_eq_false_iff.mpr nobody, Bool.false_eq_true, if_false]
    exact rounds_awaitWith underway busy (Nat.le_of_eq (Lanes.length_calls _))

/-- A round of calls from a quiet site settles every call once. -/
theorem kept_call (kept : Kept I) {s : Site κ σ} (quiet : s.Quiet) (kind : CallKind)
    (members : List Member) (errand : Errand)
    (holds : I (s.planned members errand) [] s.desk s.lanes.peers) :
    I [] (s.call kind members errand).1 (s.call kind members errand).2.desk
      (s.call kind members errand).2.lanes.peers := by
  obtain ⟨no_flights, _⟩ := List.append_eq_nil_iff.mp quiet.no_calls
  have calls : (s.lanes.fill (s.planned members errand)).calls = s.planned members errand := by
    rw [Lanes.calls_fill, no_flights, List.nil_append]
  have begun : I (s.lanes.fill (s.planned members errand)).calls [] s.desk
      (s.lanes.fill (s.planned members errand)).peers := by
    rw [calls]
    exact kept.fill holds fun call among => among
  obtain ⟨settled, none_left⟩ := call_lands
    (J := fun l ended d => I l.calls ended d l.peers) (fun perm holds => kept.land perm holds)
    quiet kind members errand begun
  rwa [none_left] at settled

/-- A round of calls with one errand keeps what each of its calls keeps. -/
theorem handled_call {I : List Ended → Desk κ → σ → Prop} {errand : Errand}
    (handled : Handled errand I) {s : Site κ σ} (quiet : s.Quiet) (kind : CallKind)
    (members : List Member) (holds : I [] s.desk s.lanes.peers) :
    I (s.call kind members errand).1 (s.call kind members errand).2.desk
      (s.call kind members errand).2.lanes.peers := by
  have kept : Kept fun pending ended d peers =>
      (∀ call ∈ pending, call.errand = errand) ∧ I ended d peers := by
    constructor
    · rintro pending pending' ended d peers perm ⟨same, holds⟩
      exact ⟨fun call later => same call (perm.mem_iff.mpr later), holds⟩
    · rintro call pending ended d peers among ⟨same, holds⟩
      rw [same call among]
      exact ⟨same, handled.depart holds⟩
    · rintro call pending ended d peers departure ⟨same, holds⟩
      rw [same call List.mem_cons_self]
      exact ⟨fun call later => same call (List.mem_cons_of_mem _ later),
        handled.arrive departure holds⟩
    · rintro call pending ended d peers deadline ⟨same, holds⟩
      rw [same call List.mem_cons_self]
      exact ⟨fun call later => same call (List.mem_cons_of_mem _ later),
        handled.giveUp deadline holds⟩
  apply (kept_call kept quiet kind members errand ⟨fun call among => ?_, holds⟩).2
  obtain ⟨member, _, rfl⟩ := List.mem_map.mp among
  rfl

omit [Peers σ] [Catalog κ] in
theorem quiet_ofWidth (d : Desk κ) (parallel deadline : Nat) (peers : σ) :
    ({ desk := d, lanes := .ofWidth parallel deadline peers } : Site κ σ).Quiet := by
  refine ⟨⟨?_, fun waits => absurd rfl waits⟩, rfl, rfl⟩
  change 0 < max parallel 1 + 0
  omega

end Site

end Rounds

end OrderCluster.Replication
