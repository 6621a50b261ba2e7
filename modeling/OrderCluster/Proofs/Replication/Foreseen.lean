import OrderCluster.Proofs.Replication.Tickets

/-!
# The pushes that will end

A site that is left to itself lets its calls land one after the other until none is left, and then
every round has ended. When each of them ends can be foreseen. Time that passes up to some horizon
ends the rounds that are foreseen to end by then, and leaves the others.
-/

namespace OrderCluster.Replication

/-- A round that ended, and when. -/
structure Finish where
  time : Nat
  round : Round

def Finish.ticket (f : Finish) : Nat := f.round.ticket

/-- The only element that passes a test is the first that passes it. -/
theorem filter_eq_toList_find? {α : Type} {p : α → Bool} {l : List α}
    (once : l.Pairwise fun a b => p a = true → p b = false) :
    l.filter p = (l.find? p).toList := by
  induction once with
  | nil => rfl
  | @cons a rest alone _ ih =>
    by_cases first : p a = true
    · have nobody : rest.filter p = [] :=
        List.filter_eq_nil_iff.mpr fun b among => by simp [alone b among first]
      simp [first, nobody]
    · simp [first, ih]

namespace Site

variable {κ σ : Type} [Catalog κ] [Peers σ]

/-- The rounds that end, the first one first, by a horizon or at any time; each landing takes one
call away. -/
def finishesWith (horizon : Option Nat) : Nat → Site κ σ → List Finish
  | 0, _ => []
  | fuel + 1, s =>
    match s.landNext? horizon with
    | none => []
    | some (finished, s) =>
      (finished.map (Finish.mk s.lanes.now)).toList ++ finishesWith horizon fuel s

def finishes (s : Site κ σ) : List Finish := finishesWith none s.lanes.load s

def finishesBy (s : Site κ σ) (horizon : Nat) : List Finish :=
  finishesWith (some horizon) s.lanes.load s

/-- When the last round will have ended. -/
def lastFinish (s : Site κ σ) : Nat := (s.finishes.getLast?.map Finish.time).getD s.lanes.now

/-- Every call belongs to a round that is not over, and every round knows how many calls it has. -/
structure Tidy (s : Site κ σ) (width : Nat) : Prop where
  limited : s.lanes.Limited width s.lanes.deadline
  roomy : 0 < width
  distinct : (s.rounds.map Round.ticket).Nodup
  older : ∀ r ∈ s.rounds, r.ticket < s.nextTicket
  left : ∀ r ∈ s.rounds, r.left = (s.lanes.callsOf r.ticket).length
  unfinished : ∀ r ∈ s.rounds, r.left ≠ 0
  owned : ∀ call ∈ s.lanes.calls, ∃ r ∈ s.rounds, r.ticket = call.ticket

/-! ## One landing -/

section Landing

variable {s : Site κ σ} {width : Nat} {f : Flight} {others : List Flight}

omit [Catalog κ] in
theorem now_landed : (s.landed (s.lanes.land f others)).lanes.now = f.landsAt s.lanes.deadline := by
  change (s.lanes.land f others).lanes.now = _
  rw [Lanes.land_eq, Lanes.now_fill]

omit [Catalog κ] in
/-- After a landing every round knows how many of its calls are left. -/
theorem Tidy.left_note (tidy : s.Tidy width) (perm : s.lanes.flights.Perm (f :: others)) {r : Round}
    (among : r ∈ s.rounds) (verdict : Verdict) :
    (r.note f.call verdict).left = ((s.lanes.land f others).lanes.callsOf r.ticket).length := by
  have before := tidy.left r among
  by_cases mine : r.ticket = f.call.ticket
  · have fewer := (Lanes.callsOf_land perm).length_eq
    rw [List.length_cons] at fewer
    rw [mine, fewer] at before
    rw [Round.note_of_eq mine, mine]
    dsimp only
    omega
  · rw [Round.note_of_ne mine, before, (Lanes.callsOf_land_of_ne perm (Ne.symm mine)).length_eq]

omit [Catalog κ] in
theorem Tidy.landed (tidy : s.Tidy width) (perm : s.lanes.flights.Perm (f :: others))
    (first : ∀ g ∈ s.lanes.flights, f.landsAt s.lanes.deadline ≤ g.landsAt s.lanes.deadline) :
    (s.landed (s.lanes.land f others)).Tidy width := by
  have limited := (Lanes.Move.land perm first).limited tidy.limited
  constructor
  · rw [← limited.patience] at limited
    exact limited
  · exact tidy.roomy
  · exact tidy.distinct.sublist tickets_landed
  · intro noted among
    obtain ⟨r, before, rfl, _⟩ := mem_landed.mp among
    rw [Round.ticket_note]
    exact tidy.older r before
  · intro noted among
    obtain ⟨r, before, rfl, _⟩ := mem_landed.mp among
    rw [Round.ticket_note]
    exact tidy.left_note perm before _
  · intro noted among
    obtain ⟨_, _, _, unfinished⟩ := mem_landed.mp among
    exact unfinished
  · intro call called
    obtain ⟨r, before, ticket⟩ :=
      tidy.owned call ((Lanes.perm_land perm).mem_iff.mpr (List.mem_cons_of_mem _ called))
    refine ⟨_, mem_landed.mpr ⟨r, before, rfl, ?_⟩, (Round.ticket_note _ _ r).trans ticket⟩
    have mine : call ∈ (s.lanes.land f others).lanes.callsOf r.ticket :=
      Lanes.mem_callsOf.mpr ⟨called, ticket.symm⟩
    have left := tidy.left_note perm before (s.lanes.land f others).verdict
    have some_left := List.length_pos_of_mem mine
    change (r.note f.call (s.lanes.land f others).verdict).left ≠ 0
    omega

omit [Catalog κ] [Peers σ] in
/-- A landing ends at most one round and leaves the others. -/
theorem Tidy.completed (tidy : s.Tidy width) (landing : Landing σ) :
    ((s.completed? landing).toList.map Round.ticket ++
      (s.landed landing).rounds.map Round.ticket).Perm (s.rounds.map Round.ticket) := by
  have once : (s.rounds.map (Round.note landing.call landing.verdict)).Pairwise fun a b =>
      decide (a.left = 0) = true → decide (b.left = 0) = false := by
    rw [List.pairwise_map]
    refine (List.pairwise_map.mp tidy.distinct).imp_of_mem fun {a b} among too apart none_left => ?_
    have mine : a.ticket = landing.call.ticket := by
      by_contra other
      rw [Round.note_of_ne other] at none_left
      exact tidy.unfinished a among (of_decide_eq_true none_left)
    have other : b.ticket ≠ landing.call.ticket := fun same => apart (mine.trans same.symm)
    rw [Round.note_of_ne other]
    exact decide_eq_false (tidy.unfinished b too)
  have parts := List.filter_append_perm (fun r : Round => decide (r.left = 0))
    (s.rounds.map (Round.note landing.call landing.verdict))
  rw [filter_eq_toList_find? once] at parts
  have tickets := parts.map Round.ticket
  rw [List.map_append, List.map_map] at tickets
  have same : s.rounds.map (Round.ticket ∘ Round.note landing.call landing.verdict) =
      s.rounds.map Round.ticket := List.map_congr_left fun r _ => Round.ticket_note _ _ r
  rw [same] at tickets
  simpa [Site.landed, completed?] using tickets

end Landing

/-! ## Until the horizon -/

section Horizon

variable {s s' : Site κ σ} {width horizon : Nat} {finished : Option Round}

theorem Tidy.landNext? {limit : Option Nat} (tidy : s.Tidy width)
    (h : s.landNext? limit = some (finished, s')) :
    s'.Tidy width ∧ s.lanes.now ≤ s'.lanes.now ∧ s'.lanes.load + 1 = s.lanes.load ∧
      limit.all (s'.lanes.now ≤ ·) = true ∧
      (finished.toList.map Round.ticket ++ s'.rounds.map Round.ticket).Perm
        (s.rounds.map Round.ticket) := by
  obtain ⟨f, others, perm, first, by_then, rfl, rfl⟩ := landed_of_landNext? h
  refine ⟨tidy.landed perm first, ?_, ?_, ?_, tidy.completed _⟩
  · rw [now_landed]
    exact (tidy.limited.timely f (perm.mem_iff.mpr List.mem_cons_self)).2
  · have fewer := (Lanes.perm_land perm).length_eq
    rw [List.length_cons, Lanes.length_calls, Lanes.length_calls] at fewer
    exact fewer.symm
  · rw [now_landed]
    exact by_then

/-- What lands by a horizon is what lands at all, if it lands by then. -/
theorem landNext?_horizon (s : Site κ σ) (horizon : Nat) :
    s.landNext? (some horizon) =
      (s.landNext? none).filter fun (_, s') => s'.lanes.now ≤ horizon := by
  rw [landNext?_eq, landNext?_eq, Lanes.landNext?, Lanes.landNext?]
  cases Flight.earliest? s.lanes.deadline s.lanes.flights with
  | none => rfl
  | some next =>
    obtain ⟨f, others⟩ := next
    by_cases soon : f.landsAt s.lanes.deadline ≤ horizon
    · simp [soon, Option.filter, now_landed]
    · simp [soon, Option.filter, now_landed]

/-- No round ends before now. -/
theorem Tidy.le_time (tidy : s.Tidy width) {limit : Option Nat} {fuel : Nat} :
    ∀ f ∈ finishesWith limit fuel s, s.lanes.now ≤ f.time := by
  induction fuel generalizing s with
  | zero => exact fun f none_ends => absurd none_ends List.not_mem_nil
  | succ fuel ih =>
    intro f among
    rw [finishesWith] at among
    cases next : s.landNext? limit with
    | none => simp [next] at among
    | some landed =>
      obtain ⟨finished, s'⟩ := landed
      obtain ⟨tidy_then, later, _⟩ := tidy.landNext? next
      simp only [next] at among
      rcases List.mem_append.mp among with now | after
      · obtain ⟨r, _, rfl⟩ := by simpa using now
        exact later
      · exact Nat.le_trans later (ih tidy_then f after)

/-- The rounds end in the order in which they are foreseen to end. -/
theorem Tidy.ascending (tidy : s.Tidy width) (limit : Option Nat) (fuel : Nat) :
    (finishesWith limit fuel s).Pairwise fun f g => f.time ≤ g.time := by
  induction fuel generalizing s with
  | zero => exact .nil
  | succ fuel ih =>
    rw [finishesWith]
    cases next : s.landNext? limit with
    | none => exact .nil
    | some landed =>
      obtain ⟨finished, s'⟩ := landed
      obtain ⟨tidy_then, _⟩ := tidy.landNext? next
      cases finished with
      | none => exact ih tidy_then
      | some r => exact .cons (fun f after => tidy_then.le_time f after) (ih tidy_then)

/-- By a horizon those rounds end that are foreseen to end by then. -/
theorem Tidy.finishesWith_horizon (tidy : s.Tidy width) (horizon fuel : Nat) :
    finishesWith (some horizon) fuel s =
      (finishesWith none fuel s).filter fun f => f.time ≤ horizon := by
  induction fuel generalizing s with
  | zero => rfl
  | succ fuel ih =>
    rw [finishesWith, finishesWith, landNext?_horizon]
    cases next : s.landNext? none with
    | none => rfl
    | some landed =>
      obtain ⟨finished, s'⟩ := landed
      obtain ⟨tidy_then, _⟩ := tidy.landNext? next
      by_cases soon : s'.lanes.now ≤ horizon
      · cases finished with
        | none => simp [Option.filter, soon, ih tidy_then]
        | some r => simp [Option.filter, soon, ih tidy_then]
      · have later : ∀ f ∈ finishesWith none fuel s', ¬ f.time ≤ horizon := by
          intro f after
          have not_before := tidy_then.le_time f after
          omega
        cases finished with
        | none => simpa [Option.filter, soon] using later
        | some r => simpa [Option.filter, soon] using later

omit [Catalog κ] [Peers σ] in
/-- Where no call is left, no round is left. -/
theorem Tidy.rounds_of_idle (tidy : s.Tidy width) (idle : s.lanes.calls = []) : s.rounds = [] := by
  apply List.eq_nil_iff_forall_not_mem.mpr
  intro r among
  apply tidy.unfinished r among
  rw [tidy.left r among, Lanes.callsOf, idle]
  rfl

theorem Tidy.perm_finishes (tidy : s.Tidy width) {fuel : Nat} (enough : s.lanes.load ≤ fuel) :
    ((finishesWith none fuel s).map Finish.ticket).Perm (s.rounds.map Round.ticket) := by
  induction fuel generalizing s with
  | zero =>
    have idle : s.lanes.calls = [] := by
      apply List.length_eq_zero_iff.mp
      rw [Lanes.length_calls]
      omega
    rw [tidy.rounds_of_idle idle]
    exact .refl _
  | succ fuel ih =>
    rw [finishesWith]
    cases next : s.landNext? none with
    | none =>
      have idle : s.lanes.calls = [] := by
        by_contra busy
        obtain ⟨landing, lands, _⟩ :=
          Lanes.landNext?_of_busy (tidy.limited.flowing tidy.roomy) busy
        rw [landNext?_eq, lands] at next
        cases next
      rw [tidy.rounds_of_idle idle]
      exact .refl _
    | some landed =>
      obtain ⟨finished, s'⟩ := landed
      obtain ⟨tidy_then, _, fewer, _, tickets⟩ := tidy.landNext? next
      have later := ih tidy_then (by omega)
      apply List.Perm.trans _ tickets
      cases finished with
      | none => exact later
      | some r => exact later.cons r.ticket

/-- The rounds that do not end by a horizon are left. -/
theorem Tidy.parted (tidy : s.Tidy width) (horizon fuel : Nat) :
    (landAllWith horizon fuel s).Tidy width ∧
      ((finishesWith (some horizon) fuel s).map Finish.ticket ++
        (landAllWith horizon fuel s).rounds.map Round.ticket).Perm (s.rounds.map Round.ticket) := by
  induction fuel generalizing s with
  | zero => exact ⟨tidy, .refl _⟩
  | succ fuel ih =>
    rw [landAllWith, finishesWith]
    cases next : s.landNext? (some horizon) with
    | none => exact ⟨tidy, .refl _⟩
    | some landed =>
      obtain ⟨finished, s'⟩ := landed
      obtain ⟨tidy_then, _, _, _, tickets⟩ := tidy.landNext? next
      obtain ⟨tidy_after, parted⟩ := ih tidy_then
      refine ⟨tidy_after, ?_⟩
      apply List.Perm.trans _ tickets
      cases finished with
      | none => exact parted
      | some r => exact parted.cons r.ticket

/-- Where every round ends by a horizon, time stands at the end of the last one. -/
theorem Tidy.now_landAllWith (tidy : s.Tidy width) {horizon fuel : Nat}
    (empty : (landAllWith horizon fuel s).rounds = []) :
    (landAllWith horizon fuel s).lanes.now =
      ((finishesWith (some horizon) fuel s).getLast?.map Finish.time).getD s.lanes.now := by
  induction fuel generalizing s with
  | zero => rfl
  | succ fuel ih =>
    rw [landAllWith] at empty ⊢
    rw [finishesWith]
    cases next : s.landNext? (some horizon) with
    | none => rfl
    | some landed =>
      obtain ⟨finished, s'⟩ := landed
      obtain ⟨tidy_then, _, fewer, _, tickets⟩ := tidy.landNext? next
      simp only [next] at empty ⊢
      rw [ih tidy_then empty]
      cases finished with
      | some r =>
        simp only [Option.map_some, Option.toList_some, List.singleton_append, List.getLast?_cons]
        cases (finishesWith (some horizon) fuel s').getLast? <;> rfl
      | none =>
        -- The call that landed was not the last of its round, which ends later.
        have busy : s.lanes.calls ≠ [] := by
          intro idle
          have nothing := s.lanes.length_calls
          rw [idle] at nothing
          simp only [List.length_nil] at nothing
          omega
        obtain ⟨call, called⟩ := List.exists_mem_of_ne_nil _ busy
        obtain ⟨r, among, _⟩ := tidy.owned call called
        have parted := (tidy_then.parted horizon fuel).2.trans tickets
        rw [empty] at parted
        have some_end : finishesWith (some horizon) fuel s' ≠ [] := by
          intro none_ends
          rw [none_ends] at parted
          exact List.ne_nil_of_mem (List.mem_map_of_mem among) parted.nil_eq.symm
        obtain ⟨last, ends⟩ := Option.ne_none_iff_exists'.mp
          (fun none_ends => some_end (List.getLast?_eq_none_iff.mp none_ends))
        simp [ends]

end Horizon

end Site

end OrderCluster.Replication
