import OrderCluster.Proofs.Replication.Rounds

/-!
# The limiter

All replication calls of a node share its lanes. Calls are taken in at any time, end in any way, and
may be dropped before they end, while they wait or while they fly; time passes until a call ends.
Whatever comes, no lane is lost and none is made up, no call waits while a lane is free, and no call
flies beyond its deadline, which counts from the moment at which it got its lane.
-/

namespace OrderCluster.Replication

/-- Of the flights, the first to land is not after any other. -/
theorem Flight.earliest?_first {deadline : Nat} {flights others : List Flight} {f : Flight}
    (h : earliest? deadline flights = some (f, others)) :
    ∀ g ∈ flights, f.landsAt deadline ≤ g.landsAt deadline := by
  induction flights generalizing f others with
  | nil => cases h
  | cons head rest ih =>
    rw [earliest?] at h
    cases later : earliest? deadline rest with
    | none =>
      rw [later] at h
      cases h
      have nobody : rest = [] := by
        cases rest with
        | nil => rfl
        | cons g rest =>
          have found := @earliest?_isSome deadline (g :: rest) (List.cons_ne_nil _ _)
          rw [later] at found
          cases found
      intro g member
      rw [nobody, List.mem_singleton] at member
      subst member
      exact Nat.le_refl _
    | some found =>
      obtain ⟨next, others'⟩ := found
      have first := ih later
      simp only [later] at h
      split at h
      · rename_i earlier
        cases h
        intro g member
        rcases List.mem_cons.mp member with rfl | among
        · exact Nat.le_refl _
        · exact Nat.le_trans earlier (first g among)
      · rename_i not_earlier
        cases h
        intro g member
        rcases List.mem_cons.mp member with rfl | among
        · omega
        · exact first g among

namespace Lanes

variable {σ : Type} [Peers σ]

/-- What happens to the calls of a node without its doing. -/
inductive Drift : Lanes σ → Lanes σ → Prop where
  /-- Time passes, but not beyond the end of a call. -/
  | elapse (l : Lanes σ) {now : Nat} (later : l.now ≤ now)
    (due : ∀ f ∈ l.flights, now ≤ f.landsAt l.deadline) : Drift l { l with now }
  /-- Calls that wait change places. -/
  | reorder (l : Lanes σ) {waiting : List Call} (perm : l.waiting.Perm waiting) :
    Drift l { l with waiting }
  /-- Calls are dropped. -/
  | drop (l : Lanes σ) (gone : Call → Bool) : Drift l (l.drop gone)
  /-- The peers change. -/
  | stir (l : Lanes σ) (peers : σ) : Drift l { l with peers }

/-- All that can happen on the lanes of a node. -/
inductive Move : Lanes σ → Lanes σ → Prop where
  /-- Calls are taken in. -/
  | enqueue (l : Lanes σ) (calls : List Call) : Move l (l.enqueue calls)
  /-- A call lands, and no other would land earlier. -/
  | land {l : Lanes σ} {f : Flight} {others : List Flight} (perm : l.flights.Perm (f :: others))
    (first : ∀ g ∈ l.flights, f.landsAt l.deadline ≤ g.landsAt l.deadline) :
    Move l (l.land f others).lanes
  | drift {l l' : Lanes σ} (drift : Drift l l') : Move l l'

/-- So many lanes, of which none is lost. -/
structure Limited (width deadline : Nat) (l : Lanes σ) : Prop where
  patience : l.deadline = deadline
  /-- Every lane is free or has one call on it. -/
  permits : l.free + l.flights.length = width
  /-- No call waits while a lane is free. -/
  busy : l.waiting ≠ [] → l.free = 0
  /-- No call is late. -/
  timely : ∀ f ∈ l.flights, f.departed ≤ l.now ∧ l.now ≤ f.landsAt deadline

variable {l l' : Lanes σ} {width deadline : Nat}

/-- Filling the lanes leaves nobody waiting at a free one. -/
theorem limited_fill (patience : l.deadline = deadline)
    (permits : l.free + l.flights.length = width)
    (timely : ∀ f ∈ l.flights, f.departed ≤ l.now ∧ l.now ≤ f.landsAt deadline)
    (waiting : List Call) : (l.fill waiting).Limited width deadline := by
  induction waiting generalizing l with
  | nil => exact ⟨patience, permits, fun waits => absurd rfl waits, timely⟩
  | cons call rest ih =>
    rw [fill]
    split
    · rename_i full
      exact ⟨patience, permits, fun _ => full, timely⟩
    · rename_i open_lane
      apply ih
      · exact patience
      · simp only [depart, List.length_append, List.length_singleton]
        omega
      · intro f member
        rcases List.mem_append.mp member with flying | new
        · exact timely f flying
        · rw [List.mem_singleton.mp new]
          exact ⟨Nat.le_refl _, Nat.le_add_right _ _⟩

/-- Where no call waits at a free lane, taking nothing in changes nothing. -/
theorem enqueue_nil (busy : l.waiting ≠ [] → l.free = 0) : l.enqueue [] = l := by
  obtain ⟨now, deadline, free, flights, waiting, peers⟩ := l
  cases waiting with
  | nil => rfl
  | cons call rest =>
    have full : free = 0 := busy (List.cons_ne_nil _ _)
    rw [enqueue, List.append_nil, fill, if_pos full]

omit [Peers σ] in
theorem limited_ofWidth (parallel deadline : Nat) (peers : σ) :
    (ofWidth parallel deadline peers).Limited (max parallel 1) deadline := by
  refine ⟨rfl, rfl, fun waits => absurd rfl waits, ?_⟩
  intro f none_flies
  cases none_flies

omit [Peers σ] in
theorem Limited.flowing (limited : l.Limited width deadline)
    (roomy : 0 < width) : l.Flowing := by
  refine ⟨?_, limited.busy⟩
  rw [limited.permits]
  exact roomy

/-- Whatever happens on the lanes, none of them is lost. -/
theorem Move.limited (move : Move l l') (limited : l.Limited width deadline) :
    l'.Limited width deadline := by
  obtain ⟨patience, permits, busy, timely⟩ := limited
  cases move with
  | enqueue calls => exact limited_fill patience permits timely _
  | @land f others perm first =>
    rw [land_eq]
    have landing := timely f (perm.mem_iff.mpr List.mem_cons_self)
    apply limited_fill
    · exact patience
    · have count := perm.length_eq
      rw [List.length_cons] at count
      dsimp only
      omega
    · intro g flies
      have among : g ∈ l.flights := perm.mem_iff.mpr (List.mem_cons_of_mem _ flies)
      have before := timely g among
      have not_first := first g among
      rw [patience] at not_first
      dsimp only
      rw [patience]
      omega
  | drift drift =>
    cases drift with
    | elapse later due =>
      refine ⟨patience, permits, busy, fun f flies => ?_⟩
      have before := timely f flies
      have not_over := due f flies
      rw [patience] at not_over
      exact ⟨Nat.le_trans before.1 later, not_over⟩
    | reorder perm =>
      refine ⟨patience, permits, fun waits => busy ?_, timely⟩
      intro nobody
      rw [nobody] at perm
      exact waits perm.nil_eq.symm
    | drop gone =>
      apply limited_fill
      · exact patience
      · have fewer := List.length_filter_le (fun f : Flight => !gone f.call) l.flights
        dsimp only
        omega
      · exact fun f flies => timely f (List.mem_filter.mp flies).1
    | stir peers => exact ⟨patience, permits, busy, timely⟩

theorem now_fill (l : Lanes σ) (waiting : List Call) : (l.fill waiting).now = l.now := by
  induction waiting generalizing l with
  | nil => rfl
  | cons call rest ih =>
    rw [fill]
    split
    · rfl
    · exact ih _

/-- Calls that depart when lanes are filled depart at that moment. -/
theorem departed_fill {waiting : List Call} {f : Flight} (flies : f ∈ (l.fill waiting).flights) :
    f ∈ l.flights ∨ f.departed = l.now := by
  induction waiting generalizing l with
  | nil => exact Or.inl flies
  | cons call rest ih =>
    rw [fill] at flies
    split at flies
    · exact Or.inl flies
    · rcases ih flies with flying | now
      · rcases List.mem_append.mp flying with old | new
        · exact Or.inl old
        · rw [List.mem_singleton.mp new]
          exact Or.inr rfl
      · exact Or.inr now

/-- A call that gets a lane departs at that moment. -/
theorem Move.departed (move : Move l l') {f : Flight} (flies : f ∈ l'.flights) :
    f ∈ l.flights ∨ f.departed = l'.now := by
  cases move with
  | enqueue calls =>
    rw [Lanes.enqueue, now_fill]
    exact departed_fill flies
  | @land g others perm first =>
    rw [land_eq] at flies ⊢
    rw [now_fill]
    rcases departed_fill flies with flying | now
    · exact Or.inl (perm.mem_iff.mpr (List.mem_cons_of_mem _ flying))
    · exact Or.inr now
  | drift drift =>
    cases drift with
    | drop gone =>
      rw [Lanes.drop, now_fill]
      exact (departed_fill flies).imp_left fun kept => (List.mem_filter.mp kept).1
    | elapse | reorder | stir => exact Or.inl flies

omit [Peers σ] in
/-- Of two lists of flights, the calls of the one are among those of the other. -/
theorem mem_calls_of_subset {flights : List Flight} {waiting : List Call}
    (fewer : ∀ f ∈ flights, f ∈ l.flights) (less : ∀ call ∈ waiting, call ∈ l.waiting) {call : Call}
    (called : call ∈ flights.map Flight.call ++ waiting) : call ∈ l.calls := by
  rcases List.mem_append.mp called with flies | waits
  · obtain ⟨f, member, rfl⟩ := List.mem_map.mp flies
    exact List.mem_append_left _ (List.mem_map_of_mem (fewer f member))
  · exact List.mem_append_right _ (less call waits)

/-- No call comes from nowhere. -/
theorem Drift.calls (drift : Drift l l') {call : Call} (called : call ∈ l'.calls) :
    call ∈ l.calls := by
  cases drift with
  | elapse | stir => exact called
  | reorder perm =>
    exact mem_calls_of_subset (fun f flies => flies) (fun other waits => perm.mem_iff.mpr waits)
      called
  | drop gone =>
    rw [Lanes.drop, calls_fill] at called
    exact mem_calls_of_subset (fun f kept => (List.mem_filter.mp kept).1)
      (fun other kept => (List.mem_filter.mp kept).1) called

/-- While a call is under way, another landing is to come, and it ends a call. -/
theorem landNext?_of_busy {l : Lanes σ} (flowing : l.Flowing) (busy : l.calls ≠ []) :
    ∃ landing, l.landNext? none = some landing ∧
      landing.lanes.calls.length + 1 = l.calls.length := by
  obtain ⟨f, others, perm, lands⟩ := landNext?_of_flies (flowing.flies busy)
  exact ⟨_, lands, (perm_land perm).length_eq.symm⟩

/-- If no call lands by the horizon, all land later. -/
theorem later_of_landNext? {horizon : Nat} (h : l.landNext? (some horizon) = none) :
    ∀ f ∈ l.flights, horizon < f.landsAt l.deadline := by
  intro f flies
  unfold landNext? at h
  split at h
  · rename_i nobody
    have found := @Flight.earliest?_isSome l.deadline _ (List.ne_nil_of_mem flies)
    rw [nobody] at found
    cases found
  · rename_i first others found
    have not_first := Flight.earliest?_first found f flies
    split at h
    · cases h
    · rename_i later
      simp only [Option.all_some, decide_eq_true_eq] at later
      omega

theorem land_of_landNext? {horizon : Option Nat} {landing : Landing σ}
    (h : l.landNext? horizon = some landing) :
    ∃ f others, l.flights.Perm (f :: others) ∧
      (∀ g ∈ l.flights, f.landsAt l.deadline ≤ g.landsAt l.deadline) ∧
      horizon.all (f.landsAt l.deadline ≤ ·) = true ∧ landing = l.land f others := by
  unfold landNext? at h
  split at h
  · cases h
  · rename_i f others found
    split at h
    · rename_i by_then
      cases h
      exact ⟨f, others, Flight.earliest?_perm found, Flight.earliest?_first found, by_then, rfl⟩
    · cases h

end Lanes

/-! ## The lanes of a node that does one thing after the other -/

namespace Site

variable {κ σ : Type} [Catalog κ] [Peers σ] {s s' : Site κ σ} {width deadline : Nat}

/-- What lands is a flight that lands first, and by the horizon. -/
theorem landed_of_landNext? {horizon : Option Nat} {finished : Option Round}
    (h : s.landNext? horizon = some (finished, s')) :
    ∃ f others, s.lanes.flights.Perm (f :: others) ∧
      (∀ g ∈ s.lanes.flights, f.landsAt s.lanes.deadline ≤ g.landsAt s.lanes.deadline) ∧
      horizon.all (f.landsAt s.lanes.deadline ≤ ·) = true ∧
      finished = s.completed? (s.lanes.land f others) ∧
      s' = s.landed (s.lanes.land f others) := by
  rw [landNext?_eq, Option.map_eq_some_iff] at h
  obtain ⟨landing, lands, eq⟩ := h
  obtain ⟨f, others, perm, first, by_then, rfl⟩ := Lanes.land_of_landNext? lands
  cases eq
  exact ⟨f, others, perm, first, by_then, rfl, rfl⟩

theorem limited_landNext? {horizon : Option Nat} {finished : Option Round}
    (h : s.landNext? horizon = some (finished, s')) (limited : s.lanes.Limited width deadline) :
    s'.lanes.Limited width deadline := by
  obtain ⟨f, others, perm, first, _, _, rfl⟩ := landed_of_landNext? h
  exact (Lanes.Move.land perm first).limited limited

/-- After all calls have landed that land by the horizon, the others land later. -/
theorem due_landAllWith {horizon fuel : Nat} (enough : s.lanes.load ≤ fuel)
    (limited : s.lanes.Limited width deadline) (soon : s.lanes.now ≤ horizon) :
    (landAllWith horizon fuel s).lanes.Limited width deadline ∧
      (landAllWith horizon fuel s).lanes.now ≤ horizon ∧
      ∀ f ∈ (landAllWith horizon fuel s).lanes.flights, horizon ≤ f.landsAt deadline := by
  induction fuel generalizing s with
  | zero =>
    have nobody : s.lanes.flights = [] := by
      have empty : s.lanes.flights.length = 0 := by
        unfold Lanes.load at enough
        omega
      exact List.length_eq_zero_iff.mp empty
    refine ⟨limited, soon, fun f flies => ?_⟩
    rw [landAllWith, nobody] at flies
    cases flies
  | succ fuel ih =>
    rw [landAllWith]
    cases h : s.landNext? (some horizon) with
    | none =>
      rw [landNext?_eq, Option.map_eq_none_iff] at h
      refine ⟨limited, soon, fun f flies => Nat.le_of_lt ?_⟩
      rw [← limited.patience]
      exact Lanes.later_of_landNext? h f flies
    | some landed =>
      obtain ⟨finished, s'⟩ := landed
      have after := limited_landNext? h limited
      rw [landNext?_eq, Option.map_eq_some_iff] at h
      obtain ⟨landing, lands, eq⟩ := h
      obtain ⟨f, others, perm, first, by_then, rfl⟩ := Lanes.land_of_landNext? lands
      cases eq
      refine ih ?_ after ?_
      · have fewer := (Lanes.perm_land perm).length_eq
        rw [List.length_cons, Lanes.length_calls, Lanes.length_calls] at fewer
        change (s.lanes.land f others).lanes.load ≤ fuel
        omega
      · change (s.lanes.land f others).lanes.now ≤ horizon
        rw [Lanes.land_eq, Lanes.now_fill]
        simpa using by_then

end Site

end OrderCluster.Replication
