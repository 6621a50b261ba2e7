import Mathlib
import OrderCluster.Proofs.Interleaving.Bookkeeping
import OrderCluster.Proofs.Interleaving.Station

/-!
# The counts balance with the log

However the operations of a node interleave, its counts are the sums of what the operations counted,
and its log has grown by the sum of what they stored. So once the operations concerned have come to
their ends, the counts and the size of the log can be told from what they have come to.
-/

namespace OrderCluster

/-- The peers of a push whose answers are counted in some way. -/
def Replication.FanOutReport.listed (r : FanOutReport) : CallOutcome → List NodeId
  | .ok => r.accepted
  | .duplicate => r.duplicates
  | .failed => r.failed

namespace Interleaving

open Replication

/-- Every reason for which a buy places no order. -/
def reasons : List BuyFailure :=
  [.invalid, .notLeader, .catalogUnavailable, .stock, .exhausted, .storage]

/-! ## What operations have come to -/

namespace Outcome

def places : Outcome → Bool
  | .bought outcome => outcome.owed?.isSome
  | _ => false

def refuses : Outcome → Bool
  | .bought outcome => outcome.owed?.isNone
  | _ => false

def accepts : Outcome → Bool
  | .accepted (.ok response) => response.success
  | _ => false

def syncReport? : Outcome → Option SyncReport
  | .synced (.ok report) => some report
  | _ => none

def pushReport? : Outcome → Option FanOutReport
  | .pushed report => some report
  | _ => none

end Outcome

namespace Thread

/-- What an operation has come to, unless it is still under way. -/
def outcome? (t : Thread) : Option Outcome :=
  match t.rest with
  | .done (.calling ..) => none
  | .done outcome => some outcome
  | .act .. => none

/-- Whether an operation has come to its end, or has nothing to tell yet. -/
def IsSettled (t : Thread) : Prop := t.outcome?.isSome = true ∨ Tells t.trace [] 0

/-- Whether an operation ended with an error although it had stored orders. -/
def Strays (t : Thread) : Prop :=
  stored t.trace ≠ 0 ∧
    ((∃ error, t.outcome? = some (.accepted (.error error))) ∨
      ∃ cause, t.outcome? = some (.synced (.error cause)))

/-- The number of the calls that no report tells of, since their sync ended with an error. -/
def unreported (t : Thread) : Nat :=
  match t.outcome? with
  | some (.synced (.error _)) => (landings t.trace).length
  | _ => 0

end Thread

def outcomes (threads : List Thread) : List Outcome := threads.filterMap Thread.outcome?

/-! ## Sums -/

/-- A sum over those of which there is something to count. -/
theorem sum_filterMap (f : α → Option β) (g : β → Nat) (l : List α) :
    ((l.filterMap f).map g).sum = (l.map fun a => (f a).elim 0 g).sum := by
  induction l with
  | nil => rfl
  | cons a rest ih =>
    cases h : f a with
    | none => simp [h, ih]
    | some b => simp [h, ih]

theorem countP_eq_sum (p : α → Bool) (l : List α) :
    l.countP p = (l.map fun a => (p a).toNat).sum := by
  induction l with
  | nil => rfl
  | cons a rest ih =>
    rw [List.countP_cons, List.map_cons, List.sum_cons, ih, Nat.add_comm]
    cases p a <;> rfl

/-- Counts of several things, summed up over several lists. -/
theorem sum_sum (g : α → β → Nat) (as : List α) (bs : List β) :
    (as.map fun a => (bs.map fun b => g a b).sum).sum =
      (bs.map fun b => (as.map fun a => g a b).sum).sum := by
  induction as with
  | nil => simp
  | cons a rest ih => simp only [List.map_cons, List.sum_cons, List.sum_map_add, ih]

/-! ## What an operation that has come to its end has counted -/

/-- Of the calls for orders those that ended well and those that failed are all. -/
theorem countP_fetches {ended : List Ended} (fits : ∀ e ∈ ended, e.2.Fits .fetch) :
    ((ended.countP fun e => e.2.outcome = .ok) + ended.countP fun e => e.2.outcome = .failed) =
        ended.length ∧
      (ended.countP fun e => e.2.outcome = .duplicate) = 0 := by
  have ends : ∀ e ∈ ended, e.2.outcome = .ok ∨ e.2.outcome = .failed := by
    intro e among
    have fit := fits e among
    obtain ⟨peer, verdict⟩ := e
    cases verdict with
    | failed => exact Or.inr rfl
    | sent => exact Or.inl rfl
    | stored | held => cases fit
  constructor
  · rw [List.length_eq_countP_add_countP fun e : Ended => decide (e.2.outcome = .ok)]
    congr 1
    refine List.countP_congr fun e among => ?_
    rcases ends e among with well | failed
    · simp [well]
    · simp [failed]
  · refine List.countP_eq_zero.mpr fun e among => ?_
    rcases ends e among with well | failed
    · simp [well]
    · simp [failed]

/-- A report lists a peer for each call that ended so. -/
theorem length_listed {ended : List Ended} (fits : ∀ e ∈ ended, e.2.Fits .accept)
    (outcome : CallOutcome) :
    ((FanOut.report ended).listed outcome).length = ended.countP fun e => e.2.outcome = outcome := by
  have each : ∀ (p : Verdict → Bool) (outcome : CallOutcome),
      (∀ verdict : Verdict, verdict.Fits .accept → (p verdict = true ↔ verdict.outcome = outcome)) →
      (peersWhere p ended).length = ended.countP fun e => e.2.outcome = outcome := by
    intro p outcome same
    rw [peersWhere, List.length_mergeSort, List.length_map, ← List.countP_eq_length_filter]
    refine List.countP_congr fun e among => ?_
    rw [same _ (fits e among), decide_eq_true_iff]
  cases outcome with
  | ok =>
    refine each (· = .stored) .ok fun verdict fit => ?_
    cases verdict with
    | sent => cases fit
    | failed | stored | held => simp [Verdict.outcome]
  | duplicate =>
    refine each (· = .held) .duplicate fun verdict fit => ?_
    cases verdict <;> simp [Verdict.outcome]
  | failed =>
    refine each (·.isFailed) .failed fun verdict fit => ?_
    cases verdict <;> simp [Verdict.outcome, Verdict.isFailed]

namespace Thread.Kept

variable {t : Thread}

/-- What a thread that has come to its end has counted and stored is as its outcome says. -/
theorem settles (kept : t.Kept) {outcome : Outcome} (come : t.outcome? = some outcome) :
    outcome.kind = t.operation.kind ∧ Settles t.trace outcome := by
  obtain ⟨operation, trace, rest⟩ := t
  have keeps := kept.keeps
  unfold outcome? at come
  dsimp only at come keeps
  split at come
  · cases come
  · cases come
    exact keeps
  · cases come

/-- An operation whose calls are under way has not come to its end. -/
theorem not_calling {purpose : Purpose} {waiting : List Member} {ended : List Ended}
    (come : t.outcome? = some (.calling purpose waiting ended)) : False := by
  unfold outcome? at come
  split at come
  · cases come
  · rename_i outcome other done
    cases come
    exact other _ _ _ rfl
  · cases come

/-- A thread that goes on has not counted what is counted at most once it has come to its end. -/
theorem amount_of_ongoing (kept : t.Kept) {what : Tally}
    (settled : t.operation.kind = countedBy what → t.IsSettled) (ongoing : t.outcome? = none) :
    amount what (tallies t.trace) = 0 := by
  by_cases mine : t.operation.kind = countedBy what
  · rcases settled mine with come | untold
    · rw [ongoing] at come
      cases come
    · rw [untold.tallies]
      rfl
  · exact kept.amount_eq_zero fun same => mine same.symm

/-- A thread has not counted what operations of another kind count. -/
theorem amount_of_other (kept : t.Kept) {what : Tally} {outcome : Outcome}
    (come : t.outcome? = some outcome) (other : countedBy what ≠ outcome.kind) :
    amount what (tallies t.trace) = 0 :=
  kept.amount_eq_zero fun same => other (same.trans (kept.settles come).1.symm)

/-- A buy that has come to its end has counted whether it placed an order. -/
theorem amount_buys (kept : t.Kept) (settled : t.operation.kind = .buy → t.IsSettled) :
    amount .ordersCreated (tallies t.trace) = (t.outcome?.elim 0 fun o => o.places.toNat) ∧
      (reasons.map fun reason => amount (.buyFailures reason) (tallies t.trace)).sum =
        t.outcome?.elim 0 fun o => o.refuses.toNat := by
  have idle (nothing : ∀ what, countedBy what = .buy → amount what (tallies t.trace) = 0) :
      amount .ordersCreated (tallies t.trace) = 0 ∧
        (reasons.map fun reason => amount (.buyFailures reason) (tallies t.trace)).sum = 0 := by
    simp only [nothing _ (rfl : countedBy (.buyFailures _) = .buy)]
    exact ⟨nothing _ rfl, rfl⟩
  cases come : t.outcome? with
  | none => exact idle fun what mine => kept.amount_of_ongoing (mine ▸ settled) come
  | some outcome =>
    obtain ⟨_, told⟩ := kept.settles come
    cases outcome with
    | bought outcome =>
      cases outcome with
      | placed order =>
        rw [Tells.tallies told]
        exact ⟨rfl, rfl⟩
      | declined | refused =>
        obtain ⟨reason, told⟩ := told
        rw [told.tallies]
        cases reason <;> exact ⟨rfl, rfl⟩
    | calling => exact (not_calling come).elim
    | _ => exact idle fun what mine => kept.amount_of_other come (mine ▸ nofun)

/-- An operation that does not stray has stored nothing if it failed. -/
theorem stored_of_failed (calm : ¬ t.Strays)
    (failed : (∃ error, t.outcome? = some (.accepted (.error error))) ∨
      ∃ cause, t.outcome? = some (.synced (.error cause))) : stored t.trace = 0 :=
  Decidable.byContradiction fun some_stored => calm ⟨some_stored, failed⟩

/-- What an operation stored shows in the counts, or in the answer of an accept. -/
theorem stored_eq (kept : t.Kept)
    (settled : t.operation.kind.stores = true → t.IsSettled ∧ ¬ t.Strays) :
    stored t.trace = amount .ordersCreated (tallies t.trace) +
      (t.outcome?.elim 0 fun o => o.accepts.toNat) + amount .syncInserted (tallies t.trace) := by
  have idle (other : t.operation.kind.stores = false) :
      stored t.trace = 0 ∧ amount .ordersCreated (tallies t.trace) = 0 ∧
        amount .syncInserted (tallies t.trace) = 0 := by
    refine ⟨kept.stored_eq_zero other, kept.amount_eq_zero fun same => ?_,
      kept.amount_eq_zero fun same => ?_⟩
    · rw [← same] at other
      cases other
    · rw [← same] at other
      cases other
  cases come : t.outcome? with
  | none =>
    cases stores : t.operation.kind.stores with
    | false =>
      obtain ⟨nothing, uncreated, unsynced⟩ := idle stores
      rw [nothing, uncreated, unsynced]
      rfl
    | true =>
      obtain ⟨ended | untold, _⟩ := settled stores
      · rw [come] at ended
        cases ended
      · rw [untold.stored, untold.tallies]
        rfl
  | some outcome =>
    obtain ⟨mine, told⟩ := kept.settles come
    cases outcome with
    | bought outcome =>
      cases outcome with
      | placed order =>
        rw [Tells.stored told, Tells.tallies told]
        rfl
      | declined | refused =>
        obtain ⟨reason, told⟩ := told
        rw [told.stored, told.tallies]
        rfl
    | accepted answer =>
      cases answer with
      | ok response =>
        rw [Tells.stored told, Tells.tallies told]
        exact (Nat.zero_add _).symm
      | error error =>
        have calm := (settled (mine ▸ rfl)).2
        rw [stored_of_failed calm (Or.inl ⟨error, come⟩), show tallies t.trace = [] from told]
        rfl
    | synced answer =>
      have called : amount .syncInserted ((landings t.trace).map (counted .fetch)) = 0 :=
        Interleaving.amount_eq_zero fun e among => by
          obtain ⟨ended, _, rfl⟩ := List.mem_map.mp among
          nofun
      have uncreated : amount .ordersCreated (tallies t.trace) = 0 :=
        kept.amount_of_other come nofun
      rw [uncreated]
      cases answer with
      | ok report =>
        obtain ⟨counts, told, inserted, _⟩ := told
        rw [told.stored, told.tallies, amount_append, called]
        rcases inserted with rfl | ⟨rfl, none⟩
        · simp [Outcome.accepts]
        · simp [Outcome.accepts, none]
      | error cause =>
        have calm := (settled (mine ▸ rfl)).2
        rw [stored_of_failed calm (Or.inr ⟨cause, come⟩), told.1, called]
        rfl
    | calling => exact (not_calling come).elim
    | _ =>
      obtain ⟨nothing, uncreated, unsynced⟩ := idle (mine ▸ rfl)
      rw [nothing, uncreated, unsynced]
      rfl

/-- The calls of a sync are counted as they ended, and reported unless it ended with an error. -/
theorem amount_fetches (kept : t.Kept) (settled : t.operation.kind = .sync → t.IsSettled) :
    amount (.replicationCalls .fetch .ok) (tallies t.trace) +
        amount (.replicationCalls .fetch .failed) (tallies t.trace) =
      (t.outcome?.elim 0 fun o => o.syncReport?.elim 0 (·.contacted)) + t.unreported ∧
      amount (.replicationCalls .fetch .duplicate) (tallies t.trace) = 0 := by
  have idle (nothing : ∀ outcome, amount (.replicationCalls .fetch outcome) (tallies t.trace) = 0)
      (unsaid : t.unreported = 0) :
      amount (.replicationCalls .fetch .ok) (tallies t.trace) +
        amount (.replicationCalls .fetch .failed) (tallies t.trace) = 0 + t.unreported ∧
      amount (.replicationCalls .fetch .duplicate) (tallies t.trace) = 0 := by
    rw [nothing, nothing, nothing, unsaid]
    exact ⟨rfl, rfl⟩
  cases come : t.outcome? with
  | none =>
    refine idle (fun _ => kept.amount_of_ongoing settled come) ?_
    rw [unreported, come]
  | some outcome =>
    obtain ⟨mine, told⟩ := kept.settles come
    cases outcome with
    | synced answer =>
      cases answer with
      | ok report =>
        obtain ⟨counts, told, inserted, fits, called⟩ := told
        obtain ⟨all, none_twice⟩ := countP_fetches fits
        have later : ∀ outcome, amount (.replicationCalls .fetch outcome) counts = 0 := by
          intro outcome
          rcases inserted with rfl | ⟨rfl, _⟩ <;> rfl
        simp only [told.tallies, amount_append, amount_counted, later, Nat.add_zero, unreported, come]
        exact ⟨all.trans called, none_twice⟩
      | error cause =>
        obtain ⟨told, fits⟩ := told
        obtain ⟨all, none_twice⟩ := countP_fetches fits
        simp only [told, amount_counted, unreported, come]
        exact ⟨all.trans (Nat.zero_add _).symm, none_twice⟩
    | calling => exact (not_calling come).elim
    | _ =>
      refine idle (fun _ => kept.amount_of_other come nofun) ?_
      rw [unreported, come]

/-- The calls of a push are counted as it reports them. -/
theorem amount_accepts (kept : t.Kept) (settled : t.operation.kind = .push → t.IsSettled)
    (outcome : CallOutcome) :
    amount (.replicationCalls .accept outcome) (tallies t.trace) =
      t.outcome?.elim 0 fun o => o.pushReport?.elim 0 fun r => (r.listed outcome).length := by
  cases come : t.outcome? with
  | none => exact kept.amount_of_ongoing settled come
  | some come_to =>
    obtain ⟨mine, told⟩ := kept.settles come
    cases come_to with
    | pushed report =>
      obtain ⟨told, fits, rfl⟩ := told
      rw [told.tallies, amount_counted]
      exact (length_listed fits outcome).symm
    | calling => exact (not_calling come).elim
    | _ => exact kept.amount_of_other come nofun

end Thread.Kept

/-! ## Runs and the operations that were broken off -/

namespace Station

variable {κ σ : Type} [Catalog κ] [Peers σ]

/-- A run, with the operations that were broken off in the course of it. -/
inductive Chronicle (first : Station κ σ) : List Thread → Station κ σ → Prop where
  | nil : Chronicle first [] first
  /-- A step in which no operation is broken off. -/
  | step {gone : List Thread} {s s' : Station κ σ} (before : Chronicle first gone s)
    (step : s.Step s') (all : s.threads.length ≤ s'.threads.length) : Chronicle first gone s'
  | quit {gone : List Thread} {s : Station κ σ} {last : Nat × Thread}
    {front back : List (Nat × Thread)} (before : Chronicle first gone s)
    (among : s.threads = front ++ last :: back) :
    Chronicle first (gone ++ [last.2]) { s with threads := front ++ back }

/-- All operations that ever began. -/
def begun (gone : List Thread) (s : Station κ σ) : List Thread := gone ++ s.threads.map Prod.snd

/-- Every run has its chronicle. -/
theorem Run.chronicle {first s : Station κ σ} (run : Run first s) :
    ∃ gone, Chronicle first gone s := by
  induction run with
  | refl => exact ⟨[], .nil⟩
  | tail before step ih =>
    obtain ⟨gone, chronicle⟩ := ih
    cases step with
    | quit among => exact ⟨_, chronicle.quit among⟩
    | begin operation fresh =>
      refine ⟨gone, chronicle.step (.begin operation fresh) ?_⟩
      rw [List.length_append]
      exact Nat.le_add_right _ _
    | move among step =>
      refine ⟨gone, chronicle.step (.move among step) ?_⟩
      rw [among, List.length_append, List.length_append]
      exact Nat.le_refl _
    | land perm nearest => exact ⟨gone, chronicle.step (.land perm nearest) (Nat.le_refl _)⟩
    | drift drift => exact ⟨gone, chronicle.step (.drift drift) (Nat.le_refl _)⟩
    | disturb outage catalog =>
      exact ⟨gone, chronicle.step (.disturb _ outage catalog) (Nat.le_refl _)⟩

def count (s : Station κ σ) (what : Tally) : Nat := s.desk.node.metrics.total what

def size (s : Station κ σ) : Nat := s.desk.node.storage.log.all.length

/-- What every step keeps, whatever the operations have come to. -/
structure Books (first s : Station κ σ) (threads : List Thread) : Prop where
  kept : ∀ t ∈ threads, t.Kept
  counted : ∀ what,
    s.count what = first.count what + (threads.map fun t => amount what (tallies t.trace)).sum
  grown : s.size = first.size + (threads.map fun t => stored t.trace).sum
  fits : ∀ e ∈ s.landed, e.2.Fits e.1.errand.kind

section Steps

variable {first s s' : Station κ σ} {gone : List Thread} {front back : List (Nat × Thread)}
  {ticket : Nat} {t t' : Thread}

omit [Catalog κ] [Peers σ] in
/-- A sum over the operations grows by what is added for one of them. -/
theorem sum_replaced (f : Thread → Nat) (among : s.threads = front ++ (ticket, t) :: back)
    (replaced : s'.threads = front ++ (ticket, t') :: back) {n : Nat} (more : f t' = f t + n) :
    ((s'.begun gone).map f).sum = ((s.begun gone).map f).sum + n := by
  simp only [begun, among, replaced, List.map_append, List.map_cons, List.sum_append, List.sum_cons,
    more]
  omega

omit [Catalog κ] [Peers σ] in
/-- An operation that is broken off is still one of those that began. -/
theorem perm_begun {last : Nat × Thread} (among : s.threads = front ++ last :: back) :
    (begun (gone ++ [last.2]) { s with threads := front ++ back }).Perm (s.begun gone) := by
  simp only [begun, among, List.map_append, List.map_cons, List.append_assoc, List.singleton_append]
  exact List.Perm.append_left gone List.perm_middle.symm

omit [Catalog κ] [Peers σ] in
/-- What an operation counts and stores is entered for it. -/
theorem Books.replaced (books : Books first s (s.begun gone))
    (among : s.threads = front ++ (ticket, t) :: back)
    (replaced : s'.threads = front ++ (ticket, t') :: back) (landed : s'.landed = s.landed)
    (kept : t'.Kept) {counts : List (Tally × Nat)} {n : Nat}
    (told : tallies t'.trace = tallies t.trace ++ counts)
    (wrote : stored t'.trace = stored t.trace + n)
    (counted : ∀ what, s'.count what = s.count what + amount what counts)
    (grown : s'.size = s.size + n) : Books first s' (s'.begun gone) := by
  constructor
  · intro other began
    rcases List.mem_append.mp began with before | present
    · exact books.kept other (List.mem_append_left _ before)
    · obtain ⟨e, here, rfl⟩ := List.mem_map.mp present
      rw [replaced] at here
      rcases mem_of_replaced here (ticket, t) with rfl | elsewhere
      · exact kept
      · refine books.kept e.2 (List.mem_append_right _ (List.mem_map_of_mem ?_))
        rw [among]
        exact elsewhere
  · intro what
    have more : amount what (tallies t'.trace) = amount what (tallies t.trace) + amount what counts :=
      told ▸ amount_append _ _ _
    rw [sum_replaced (fun t => amount what (tallies t.trace)) among replaced more, counted,
      books.counted, Nat.add_assoc]
  · rw [sum_replaced (fun t => stored t.trace) among replaced wrote, grown, books.grown,
      Nat.add_assoc]
  · rw [landed]
    exact books.fits

omit [Catalog κ] [Peers σ] in
theorem Books.begin (books : Books first s (s.begun gone)) (ticket : Nat) (operation : Operation) :
    Books first { s with threads := s.threads ++ [(ticket, .start operation)] }
      (begun gone { s with threads := s.threads ++ [(ticket, .start operation)] }) := by
  have all : begun gone { s with threads := s.threads ++ [(ticket, .start operation)] } =
      s.begun gone ++ [.start operation] := by
    simp [begun]
  rw [all]
  constructor
  · intro t began
    rcases List.mem_append.mp began with before | last
    · exact books.kept t before
    · rw [List.mem_singleton.mp last]
      exact kept_start operation
  · intro what
    rw [List.map_append, List.sum_append]
    exact books.counted what
  · rw [List.map_append, List.sum_append]
    exact books.grown
  · exact books.fits

/-- A step in which no operation is broken off keeps the books. -/
theorem Books.step (books : Books first s (s.begun gone)) (step : s.Step s')
    (all : s.threads.length ≤ s'.threads.length) : Books first s' (s'.begun gone) := by
  cases step with
  | begin operation fresh => exact books.begin _ operation
  | @move ticket t t' d' front back among step =>
    have mine : t ∈ s.begun gone := by
      rw [begun, among]
      simp
    have kept := step.kept (fun _ _ _ landed => books.fits (_, _) landed) (books.kept t mine)
    cases step with
    | act operation trace action next =>
      exact books.replaced among rfl rfl kept (tallies_append _ _) (stored_append _ _)
        (total_perform action s.desk) (length_perform action s.desk)
    | land operation trace purpose waiting ended called allowed =>
      exact books.replaced among rfl rfl kept (tallies_append _ _) (stored_append _ _)
        (fun _ => rfl) rfl
    | conclude operation trace purpose ended =>
      exact books.replaced among rfl rfl kept (List.append_nil _).symm (n := 0) rfl
        (fun _ => rfl) rfl
  | @land f others perm nearest =>
    refine ⟨books.kept, books.counted, books.grown, fun e landed => ?_⟩
    rcases List.mem_append.mp landed with before | last
    · exact books.fits e before
    · rw [List.mem_singleton.mp last]
      exact s.lanes.fits_land f others
  | quit among =>
    rw [among, List.length_append, List.length_append, List.length_cons] at all
    omega
  | drift | disturb => exact ⟨books.kept, books.counted, books.grown, books.fits⟩

omit [Catalog κ] [Peers σ] in
/-- The books are about all operations that ever began, also those that were broken off. -/
theorem Books.quit {last : Nat × Thread} (books : Books first s (s.begun gone))
    (among : s.threads = front ++ last :: back) :
    Books first { s with threads := front ++ back }
      (begun (gone ++ [last.2]) { s with threads := front ++ back }) := by
  have perm : (begun (gone ++ [last.2]) { s with threads := front ++ back }).Perm (s.begun gone) :=
    perm_begun among
  constructor
  · exact fun t began => books.kept t (perm.mem_iff.mp began)
  · intro what
    rw [(perm.map _).sum_eq]
    exact books.counted what
  · rw [(perm.map _).sum_eq]
    exact books.grown
  · exact books.fits

end Steps

/-- Whatever happened, the books were kept. -/
theorem Chronicle.books {d : Desk κ} {parallel deadline : Nat} {peers : σ} {s : Station κ σ}
    {gone : List Thread} (chronicle : Chronicle (opened d parallel deadline peers) gone s) :
    Books (opened d parallel deadline peers) s (s.begun gone) := by
  induction chronicle with
  | nil =>
    constructor
    · intro t began
      cases began
    · exact fun _ => rfl
    · rfl
    · intro e landed
      cases landed
  | step before step all ih => exact ih.step step all
  | quit before among ih => exact ih.quit among

/-- What the counts and the log of a node have to do with the operations that ever began at it. -/
structure Balanced (first s : Station κ σ) (threads : List Thread) : Prop where
  /-- A count is the sum of what the operations counted. -/
  counted : ∀ what, s.count what = (threads.map fun t => amount what (tallies t.trace)).sum
  /-- A buy that has come to its end has counted one thing, once: that it placed an order or why it
  did not. -/
  buys : ∀ t ∈ threads, ∀ outcome, t.outcome? = some (.bought outcome) →
    (∃ order, outcome = .placed order) ∧ tallies t.trace = [(.ordersCreated, 1)] ∨
      (∀ order, outcome ≠ .placed order) ∧ ∃ reason, tallies t.trace = [(.buyFailures reason, 1)]
  /-- So these counts tell how many orders were placed, and how many buys placed none. -/
  created : (∀ t ∈ threads, t.operation.kind = .buy → t.IsSettled) →
    s.count .ordersCreated = (outcomes threads).countP Outcome.places ∧
      (reasons.map fun reason => s.count (.buyFailures reason)).sum =
        (outcomes threads).countP Outcome.refuses
  /-- The log has grown by the orders that were placed, accepted and fetched. -/
  size : (∀ t ∈ threads, t.operation.kind.stores = true → t.IsSettled ∧ ¬ t.Strays) →
    s.size = first.size + s.count .ordersCreated + (outcomes threads).countP Outcome.accepts +
      s.count .syncInserted
  /-- The calls for orders are those that the syncs report, and those of the syncs that failed. -/
  fetches : (∀ t ∈ threads, t.operation.kind = .sync → t.IsSettled) →
    s.count (.replicationCalls .fetch .ok) + s.count (.replicationCalls .fetch .failed) =
        (((outcomes threads).filterMap Outcome.syncReport?).map (·.contacted)).sum +
          (threads.map Thread.unreported).sum ∧
      s.count (.replicationCalls .fetch .duplicate) = 0
  /-- The calls that push orders are those that the pushes report, outcome by outcome. -/
  accepts : (∀ t ∈ threads, t.operation.kind = .push → t.IsSettled) → ∀ outcome,
    s.count (.replicationCalls .accept outcome) =
      (((outcomes threads).filterMap Outcome.pushReport?).map fun r => (r.listed outcome).length).sum

/-- From its opening on, the counts of a node balance with its log and with what its operations
report, however these interleave and whichever of them are broken off. -/
theorem balanced_of_chronicle {storage : Storage} {registry : Registry} {d : Desk κ}
    (fresh : Service.openNode storage registry = .ok d.node) {parallel deadline : Nat} {peers : σ}
    {s : Station κ σ} {gone : List Thread}
    (chronicle : Chronicle (opened d parallel deadline peers) gone s) :
    Balanced (opened d parallel deadline peers) s (s.begun gone) := by
  have books := chronicle.books
  have counted : ∀ what, s.count what =
      ((s.begun gone).map fun t => amount what (tallies t.trace)).sum := by
    intro what
    have zero : d.node.metrics.total what = 0 := by
      unfold Service.openNode at fresh
      split at fresh
      · cases fresh
      · injection fresh with opened
        rw [← opened]
    rw [books.counted]
    change d.node.metrics.total what + _ = _
    rw [zero, Nat.zero_add]
  constructor
  case counted => exact counted
  case buys =>
    intro t began outcome come
    obtain ⟨_, told⟩ := (books.kept t began).settles come
    cases outcome with
    | placed order => exact Or.inl ⟨⟨order, rfl⟩, told.tallies⟩
    | declined | refused =>
      obtain ⟨reason, told⟩ := told
      exact Or.inr ⟨nofun, reason, told.tallies⟩
  case created =>
    intro settled
    constructor
    · rw [counted, countP_eq_sum, outcomes, sum_filterMap]
      refine congrArg List.sum (List.map_congr_left fun t began => ?_)
      exact ((books.kept t began).amount_buys (settled t began)).1
    · simp only [counted]
      rw [sum_sum, countP_eq_sum, outcomes, sum_filterMap]
      refine congrArg List.sum (List.map_congr_left fun t began => ?_)
      exact ((books.kept t began).amount_buys (settled t began)).2
  case size =>
    intro settled
    have each : ((s.begun gone).map fun t => stored t.trace).sum =
        s.count .ordersCreated + (outcomes (s.begun gone)).countP Outcome.accepts +
          s.count .syncInserted := by
      rw [counted, counted, countP_eq_sum, outcomes, sum_filterMap, ← List.sum_map_add,
        ← List.sum_map_add]
      refine congrArg List.sum (List.map_congr_left fun t began => ?_)
      exact (books.kept t began).stored_eq (settled t began)
    rw [books.grown, each]
    omega
  case fetches =>
    intro settled
    constructor
    · rw [counted, counted, sum_filterMap, outcomes, sum_filterMap, ← List.sum_map_add,
        ← List.sum_map_add]
      refine congrArg List.sum (List.map_congr_left fun t began => ?_)
      exact ((books.kept t began).amount_fetches (settled t began)).1
    · rw [counted]
      refine List.sum_eq_zero fun n among => ?_
      obtain ⟨t, began, rfl⟩ := List.mem_map.mp among
      exact ((books.kept t began).amount_fetches (settled t began)).2
  case accepts =>
    intro settled outcome
    rw [counted, sum_filterMap, outcomes, sum_filterMap]
    refine congrArg List.sum (List.map_congr_left fun t began => ?_)
    exact (books.kept t began).amount_accepts (settled t began) outcome

/-! ## A busy node, and a sync that fails -/

/-- Following a cue breaks no operation off. -/
theorem length_follow (s : Station κ σ) (cue : Cue) :
    s.threads.length ≤ (s.follow cue).threads.length := by
  cases cue with
  | begin ticket operation =>
    change _ ≤ (s.start ticket operation).threads.length
    unfold start
    split <;> simp
  | act position =>
    change _ ≤ (s.act position).threads.length
    unfold act
    split <;> simp
  | land =>
    change _ ≤ s.land.threads.length
    unfold land
    split <;> simp
  | hear position =>
    change _ ≤ (s.hear position).threads.length
    unfold hear
    split
    · split <;> simp
    · simp
  | conclude position =>
    change _ ≤ (s.conclude position).threads.length
    unfold conclude
    split <;> simp
  | drop ticket => exact Nat.le_refl _

theorem Chronicle.foldl {first s : Station κ σ} {gone : List Thread}
    (chronicle : Chronicle first gone s) (schedule : List Cue) :
    Chronicle first gone (schedule.foldl follow s) := by
  induction schedule generalizing s with
  | nil => exact chronicle
  | cons cue rest ih =>
    refine ih ?_
    rcases (Relation.reflGen_iff _ _ _).mp (s.step_follow cue) with same | step
    · rw [same]
      exact chronicle
    · exact chronicle.step step (s.length_follow cue)

/-- A node that has just been opened without orders, with stock, and with log calls that fail. -/
def stocked (outage : LogCall → Option Failure) (peers : ScriptedPeers) :
    Station Stock ScriptedPeers :=
  opened
    { node :=
        { storage := { log := .table { medium := .inMemory }, outage }
          counter := .startingAbove 0
          registry := .ofMembers 1 peers.members }
      catalog := .ofList [("ant", 9)] } 2 50 peers

/-- A peer with an order, one that is down, and one that has the next number already. -/
def assorted : ScriptedPeers :=
  ⟨[{ id := 2, orders := [⟨1, "ant", 1⟩] }, { id := 3, manner := .down },
    { id := 4, orders := [⟨2, "bee", 1⟩], fetchAnswer := some [] }]⟩

/-- The log takes no batches. -/
def unwritable : LogCall → Option Failure
  | .insertAll => some (.because "disk full")
  | _ => none

/-- A node at which all is well. -/
def idle : Station Stock ScriptedPeers := stocked (fun _ => none) assorted

/-- A sync, a buy, its push, an accept, and a buy that is refused, one after the other. -/
def busy : Station Stock ScriptedPeers :=
  [.begin 0 .sync, .act 0, .act 0, .land, .land, .land, .hear 0, .act 0, .hear 0, .act 0, .act 0,
    .hear 0, .act 0, .conclude 0, .act 0, .act 0, .act 0, .act 0, .act 0,
    .begin 1 (.buy false ⟨"ant", 2⟩), .act 1, .act 1, .act 1, .act 1, .act 1, .act 1,
    .begin 2 (.push ⟨2, "ant", 2⟩), .act 2, .land, .land, .hear 2, .act 2, .hear 2, .act 2,
    .conclude 2, .begin 3 (.accept ⟨⟨5, "bee", 1⟩, 9⟩), .act 3, .act 3, .act 3, .act 3,
    .begin 4 (.buy false ⟨"ant", 0⟩), .act 4].foldl follow idle

/-- The counts of a busy node, at which a first sync was broken off as soon as it began. -/
theorem balanced_busy :
    Service.openNode idle.desk.node.storage idle.desk.node.registry = .ok idle.desk.node ∧
      Chronicle idle [.start .sync] busy ∧
      busy.threads.all (fun e => e.2.outcome?.isSome) = true ∧
      Tally.all.map busy.count = [1, 1, 0, 0, 0, 0, 0, 2, 0, 1, 1, 1, 0, 1] ∧ busy.size = 3 ∧
      Balanced idle busy (busy.begun [.start .sync]) := by
  have fresh : Service.openNode idle.desk.node.storage idle.desk.node.registry =
      .ok idle.desk.node := rfl
  have began : Chronicle idle [] { idle with threads := [(0, .start .sync)] } :=
    .step .nil (.begin .sync ⟨nofun, nofun, nofun⟩) (Nat.zero_le _)
  have among : [(0, Thread.start .sync)] = [] ++ (0, .start .sync) :: [] := rfl
  have chronicle : Chronicle idle [.start .sync] busy := (began.quit among).foldl _
  exact ⟨fresh, chronicle, by cbv, by cbv, by cbv, balanced_of_chronicle fresh chronicle⟩

/-- The same node while its log takes no batches. -/
def jammed : Station Stock ScriptedPeers := stocked unwritable assorted

/-- A sync that cannot write what it fetched. -/
def frustrated : Station Stock ScriptedPeers :=
  [.begin 0 .sync, .act 0, .act 0, .land, .land, .land, .hear 0, .act 0, .hear 0, .act 0, .act 0,
    .hear 0, .act 0, .conclude 0, .act 0].foldl follow jammed

/-- The calls of a sync that ended with an error are counted, although no report tells of them. -/
theorem counts_unreported :
    Service.openNode jammed.desk.node.storage jammed.desk.node.registry = .ok jammed.desk.node ∧
      Chronicle jammed [] frustrated ∧
      frustrated.threads.all (fun e => e.2.outcome?.isSome) = true ∧
      frustrated.count (.replicationCalls .fetch .ok) +
        frustrated.count (.replicationCalls .fetch .failed) = 3 ∧
      (((outcomes (frustrated.begun [])).filterMap Outcome.syncReport?).map (·.contacted)).sum = 0 :=
  ⟨rfl, Chronicle.nil.foldl _, by cbv, by cbv, by cbv⟩

end Station

end Interleaving

end OrderCluster
