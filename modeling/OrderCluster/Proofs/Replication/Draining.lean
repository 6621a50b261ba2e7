import OrderCluster.Proofs.Replication.Foreseen

/-!
# Draining

A drain waits for the rounds that are under way, but no longer than its grace period. It ends with
the last of them, or at the end of the grace period if one of them would end later; those are
counted and abandoned. What it leaves is a site on which no call was ever made: nothing remains of
an abandoned round that could call a peer, be answered or change the registry.
-/

namespace OrderCluster.Replication

namespace Lanes

variable {σ : Type} [Peers σ]

/-- Lanes with no call on them. -/
def idle (width deadline now : Nat) (peers : σ) : Lanes σ := { now, deadline, free := width, peers }

omit [Peers σ] in
/-- Lanes that have no call are all free. -/
theorem Limited.eq_idle {l : Lanes σ} {width deadline : Nat} (limited : l.Limited width deadline)
    (nobody : l.calls = []) : l = idle width deadline l.now l.peers := by
  obtain ⟨no_flights, no_waiting⟩ := List.append_eq_nil_iff.mp nobody
  have flights := List.map_eq_nil_iff.mp no_flights
  have permits := limited.permits
  have patience := limited.patience
  obtain ⟨now, deadline, free, flights, waiting, peers⟩ := l
  dsimp only at *
  subst flights no_waiting patience
  rw [List.length_nil, Nat.add_zero] at permits
  rw [permits]
  rfl

theorem calls_clear (l : Lanes σ) : l.clear.calls = [] := by
  simp [clear, drop, calls_fill]

theorem peers_clear (l : Lanes σ) : l.clear.peers = l.peers := by
  simp [clear, drop, fill]

theorem now_clear (l : Lanes σ) : l.clear.now = l.now := by
  simp [clear, drop, fill]

end Lanes

namespace Site

variable {κ σ : Type} [Catalog κ] [Peers σ] {s : Site κ σ} {width : Nat}

/-! ## What time and launches do -/

theorem nextTicket_landAllWith (horizon fuel : Nat) (s : Site κ σ) :
    (landAllWith horizon fuel s).nextTicket = s.nextTicket := by
  induction fuel generalizing s with
  | zero => rfl
  | succ fuel ih =>
    rw [landAllWith]
    cases next : s.landNext? (some horizon) with
    | none => rfl
    | some landed =>
      obtain ⟨finished, s'⟩ := landed
      obtain ⟨f, others, _, _, _, _, rfl⟩ := landed_of_landNext? next
      exact ih _

omit [Catalog κ] [Peers σ] in
/-- No call bears the ticket of the next round. -/
theorem Tidy.unused (tidy : s.Tidy width) : ∀ call ∈ s.lanes.calls, call.ticket ≠ s.nextTicket := by
  intro call called
  obtain ⟨r, among, ticket⟩ := tidy.owned call called
  rw [← ticket]
  exact Nat.ne_of_lt (tidy.older r among)

omit [Catalog κ] in
/-- A launch begins one more round, if there is anybody to call. -/
theorem Tidy.launch (tidy : s.Tidy width) (kind : CallKind) (members : List Member)
    (errand : Errand) : (s.launch kind members errand).2.Tidy width := by
  have limited := (Lanes.Move.enqueue s.lanes
    (members.map fun m => ⟨s.nextTicket, m, errand⟩)).limited tidy.limited
  constructor
  · rw [← limited.patience] at limited
    exact limited
  · exact tidy.roomy
  · exact nodup_launch tidy.distinct tidy.older kind members errand
  · intro r among
    rcases mem_launch.mp among with before | ⟨_, rfl⟩
    · exact Nat.lt_succ_of_lt (tidy.older r before)
    · exact Nat.lt_succ_self _
  · intro r among
    rcases mem_launch.mp among with before | ⟨_, rfl⟩
    · rw [callsOf_launch_of_ne (Nat.ne_of_lt (tidy.older r before)), tidy.left r before]
    · rw [callsOf_launch tidy.unused, List.length_map]
  · intro r among
    rcases mem_launch.mp among with before | ⟨somebody, rfl⟩
    · exact tidy.unfinished r before
    · exact fun nobody => somebody (List.length_eq_zero_iff.mp nobody)
  · intro call called
    rcases mem_calls_launch.mp called with before | ⟨m, asked, rfl⟩
    · obtain ⟨r, among, ticket⟩ := tidy.owned call before
      exact ⟨r, mem_launch.mpr (Or.inl among), ticket⟩
    · exact ⟨_, mem_launch.mpr (Or.inr ⟨List.ne_nil_of_mem asked, rfl⟩), rfl⟩

/-- What has not landed when some time has passed lands later. -/
theorem Tidy.due (tidy : s.Tidy width) (millis : Nat) :
    (s.landAll (s.lanes.now + millis)).lanes.Limited width s.lanes.deadline ∧
      (s.landAll (s.lanes.now + millis)).lanes.now ≤ s.lanes.now + millis ∧
      ∀ f ∈ (s.landAll (s.lanes.now + millis)).lanes.flights,
        s.lanes.now + millis ≤ f.landsAt s.lanes.deadline :=
  due_landAllWith (Nat.le_refl _) tidy.limited (Nat.le_add_right _ _)

/-- Calls land up to a horizon, and then time stands at the horizon. -/
theorem Tidy.advance (tidy : s.Tidy width) (millis : Nat) : (s.advance millis).Tidy width := by
  obtain ⟨limited, soon, due⟩ := tidy.due millis
  have after := (tidy.parted (s.lanes.now + millis) s.lanes.load).1
  refine { after with limited := ?_ }
  have elapsed := (Lanes.Move.drift (.elapse _ soon (by rwa [limited.patience]))).limited limited
  rw [← limited.patience] at elapsed
  exact elapsed

omit [Catalog κ] [Peers σ] in
theorem tidy_idle (d : Desk κ) (deadline now : Nat) (peers : σ) (ticket : Nat) (roomy : 0 < width) :
    ({ desk := d, lanes := .idle width deadline now peers, nextTicket := ticket } :
      Site κ σ).Tidy width := by
  refine ⟨⟨rfl, rfl, fun waits => absurd rfl waits, ?_⟩, roomy, .nil, ?_, ?_, ?_, ?_⟩
  all_goals exact fun x none => absurd none List.not_mem_nil

/-! ## What a drain does -/

/-- A drain leaves a site without calls. Time stands where the last call has landed, if none is
left, and at the end of the grace period otherwise. -/
theorem drain_eq (tidy : s.Tidy width) (grace : Nat) :
    let landed := s.landAll (s.lanes.now + grace)
    s.drain grace = (landed.rounds.length,
      { desk := landed.desk
        lanes := .idle width s.lanes.deadline
          (if landed.rounds = [] then landed.lanes.now else s.lanes.now + grace) landed.lanes.peers
        nextTicket := s.nextTicket }) := by
  intro landed
  obtain ⟨limited, soon, due⟩ := tidy.due grace
  have after : landed.Tidy width := (tidy.parted (s.lanes.now + grace) s.lanes.load).1
  have ticket : landed.nextTicket = s.nextTicket := nextTicket_landAllWith _ _ s
  change landed.lanes.Limited width s.lanes.deadline at limited
  by_cases empty : landed.rounds = []
  · have nobody : landed.lanes.calls = [] := by
      apply List.eq_nil_iff_forall_not_mem.mpr
      intro call called
      obtain ⟨r, among, _⟩ := after.owned call called
      rw [empty] at among
      cases among
    have all_idle := limited.eq_idle nobody
    have drained : s.drain grace = (0, landed) := by
      have gone : (s.landAll (s.lanes.now + grace)).rounds = [] := empty
      simp only [drain, gone]
      rfl
    rw [drained, if_pos empty, empty, ← all_idle, ← ticket]
    obtain ⟨desk, lanes, rounds, nextTicket⟩ := landed
    cases empty
    rfl
  · let waited : Lanes σ := { landed.lanes with now := s.lanes.now + grace }
    have elapsed : waited.clear.Limited width s.lanes.deadline := by
      apply (Lanes.Move.drift (.drop waited fun _ => true)).limited
      apply (Lanes.Move.drift (.elapse landed.lanes soon _)).limited limited
      rwa [limited.patience]
    have all_idle := elapsed.eq_idle waited.calls_clear
    rw [Lanes.now_clear, Lanes.peers_clear] at all_idle
    have drained : s.drain grace =
        (landed.rounds.length, { landed with lanes := waited.clear, rounds := [] }) := by
      obtain ⟨r, rest, some_left⟩ := List.exists_cons_of_ne_nil empty
      have left : (s.landAll (s.lanes.now + grace)).rounds = r :: rest := some_left
      simp only [drain, left, some_left]
      rfl
    rw [drained, all_idle, if_neg empty, ← ticket]

/-- What a drain does, told by the rounds that would end if the site were left to itself. -/
structure Drains (s : Site κ σ) (width grace : Nat) : Prop where
  /-- Every round that is under way would end, and when is foreseen. -/
  everyone : (s.finishes.map Finish.ticket).Perm (s.rounds.map Round.ticket)
  ascending : s.finishes.Pairwise fun f g => f.time ≤ g.time
  /-- A drain ends with the last round, if that ends within the grace period, -/
  inTime : (∀ f ∈ s.finishes, f.time ≤ s.lanes.now + grace) →
    (s.drain grace).2.lanes.now = s.lastFinish
  /-- and otherwise at the end of the grace period. -/
  overdue : (∃ f ∈ s.finishes, s.lanes.now + grace < f.time) →
    (s.drain grace).2.lanes.now = s.lanes.now + grace
  /-- It counts the rounds that have not ended by then. -/
  counted : (s.drain grace).1 = s.finishes.countP fun f => (s.drain grace).2.lanes.now < f.time
  /-- Until then it is as if time had passed. -/
  landed : (s.drain grace).2.desk = (s.advance grace).desk ∧
    (s.drain grace).2.lanes.peers = (s.advance grace).lanes.peers
  pending : (s.drain grace).2.pending = 0
  /-- Nothing remains but what a site is on which no call was ever made. -/
  afresh : (s.drain grace).2 =
    { desk := (s.drain grace).2.desk
      lanes := .idle width s.lanes.deadline (s.drain grace).2.lanes.now
        (s.drain grace).2.lanes.peers
      nextTicket := s.nextTicket }
  /-- From then on time passes without a trace. -/
  silent : ∀ millis, ((s.drain grace).2.advance millis).desk = (s.drain grace).2.desk ∧
    ((s.drain grace).2.advance millis).lanes.peers = (s.drain grace).2.lanes.peers

/-- The rounds that are left at a horizon are those that are foreseen to end later. -/
theorem Tidy.length_landAll (tidy : s.Tidy width) (horizon : Nat) :
    (s.landAll horizon).rounds.length = s.finishes.countP fun f => horizon < f.time := by
  have all := (tidy.perm_finishes (Nat.le_refl s.lanes.load)).length_eq
  have parts := (tidy.parted horizon s.lanes.load).2.length_eq
  have split := s.finishes.length_eq_countP_add_countP fun f => f.time ≤ horizon
  simp only [List.length_append, List.length_map, tidy.finishesWith_horizon,
    ← List.countP_eq_length_filter] at all parts
  simp only [decide_eq_true_eq, Nat.not_le] at split
  change _ + (s.landAll horizon).rounds.length = _ at parts
  change s.finishes.length = _ at all
  change s.finishes.countP _ + _ = _ at parts
  omega

theorem Tidy.landAll_eq_nil (tidy : s.Tidy width) (horizon : Nat) :
    (s.landAll horizon).rounds = [] ↔ ∀ f ∈ s.finishes, f.time ≤ horizon := by
  rw [← List.length_eq_zero_iff, tidy.length_landAll, List.countP_eq_zero]
  simp

/-- No round ends after the last one. -/
theorem Tidy.le_lastFinish (tidy : s.Tidy width) :
    ∀ f ∈ s.finishes, f.time ≤ s.lastFinish := by
  intro f among
  have ascending : s.finishes.Pairwise fun f g => f.time ≤ g.time := tidy.ascending none _
  rw [lastFinish]
  rcases List.eq_nil_or_concat' s.finishes with nothing | ⟨front, last, split⟩
  · rw [nothing] at among
    cases among
  · rw [split] at among ascending ⊢
    rw [List.getLast?_concat]
    rcases List.mem_append.mp among with before | now
    · exact (List.pairwise_append.mp ascending).2.2 f before last List.mem_cons_self
    · rw [List.mem_singleton.mp now]
      exact Nat.le_refl _

theorem Tidy.drains (tidy : s.Tidy width) (grace : Nat) : s.Drains width grace := by
  have drained := drain_eq tidy grace
  dsimp only at drained
  have inTime : (∀ f ∈ s.finishes, f.time ≤ s.lanes.now + grace) →
      (s.drain grace).2.lanes.now = s.lastFinish := by
    intro soon
    have empty := (tidy.landAll_eq_nil _).mpr soon
    have all : (finishesWith none s.lanes.load s).filter
        (fun f => decide (f.time ≤ s.lanes.now + grace)) = s.finishes :=
      List.filter_eq_self.mpr fun f among => decide_eq_true (soon f among)
    have now := tidy.now_landAllWith empty
    rw [tidy.finishesWith_horizon, all] at now
    rw [drained, if_pos empty]
    exact now
  constructor
  case everyone => exact tidy.perm_finishes (Nat.le_refl _)
  case ascending => exact tidy.ascending none _
  case inTime => exact inTime
  case overdue =>
    rintro ⟨f, among, late⟩
    have some_left : (s.landAll (s.lanes.now + grace)).rounds ≠ [] := by
      intro empty
      have soon := (tidy.landAll_eq_nil _).mp empty f among
      omega
    rw [drained, if_neg some_left]
    rfl
  case counted =>
    by_cases empty : (s.landAll (s.lanes.now + grace)).rounds = []
    · rw [inTime ((tidy.landAll_eq_nil _).mp empty), drained, empty]
      apply (List.countP_eq_zero.mpr _).symm
      intro f among late
      have not_after := tidy.le_lastFinish f among
      exact absurd (of_decide_eq_true late) (Nat.not_lt.mpr not_after)
    · have now : (s.drain grace).2.lanes.now = s.lanes.now + grace := by
        rw [drained, if_neg empty]
        rfl
      rw [now, drained]
      exact tidy.length_landAll _
  case landed =>
    rw [drained]
    exact ⟨rfl, rfl⟩
  case pending =>
    rw [drained]
    rfl
  case afresh =>
    rw [drained]
    rfl
  case silent =>
    intro millis
    rw [drained]
    exact ⟨rfl, rfl⟩

end Site

end OrderCluster.Replication
