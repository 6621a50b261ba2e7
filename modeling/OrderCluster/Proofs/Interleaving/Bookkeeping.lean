import Mathlib
import OrderCluster.Proofs.Interleaving.Conduct

/-!
# What operations count and store

Each kind of operation has counts of its own, and what it adds to them and to the log is settled by
what it comes to. A buy adds one to one count, and stores an order exactly if that is the count of
the placed orders. A sync counts each of its calls as it ends, and at last what it stored; a push
counts its calls alike, and an accept counts nothing. These are rules about trees of actions, so
that they can be carried along while other threads act in between.
-/

namespace OrderCluster

namespace Replication

/-- Whether a call of some kind may end in this way. -/
def Verdict.Fits : CallKind → Verdict → Prop
  | .fetch, .failed _ | .fetch, .sent _ => True
  | .accept, .failed _ | .accept, .stored | .accept, .held => True
  | _, _ => False

theorem Errand.fits_arrive {σ : Type} [Peers σ] (errand : Errand) (peers : σ) (member : Member)
    (departure : Departure) :
    (errand.arrive peers member departure).1.Fits errand.kind := by
  cases errand with
  | fetch request =>
    change (Verdict.ofFetch _).Fits .fetch
    unfold Verdict.ofFetch
    split <;> trivial
  | accept request =>
    change (Verdict.ofAccept _).Fits .accept
    unfold Verdict.ofAccept
    split
    · trivial
    · split <;> trivial

/-- A call lands as calls of its kind do. -/
theorem Lanes.fits_land {σ : Type} [Peers σ] (l : Lanes σ) (f : Flight) (others : List Flight) :
    (l.land f others).verdict.Fits f.call.errand.kind := by
  unfold Lanes.land
  by_cases late : f.isLate l.deadline = true
  · simp only [if_pos late]
    cases f.call.errand <;> trivial
  · simp only [if_neg late]
    exact f.call.errand.fits_arrive _ _ _

/-- What is counted of a call that ended. -/
def counted (kind : CallKind) (e : Ended) : Tally × Nat :=
  (.replicationCalls kind e.2.outcome, 1)

end Replication

namespace Interleaving

open Replication

/-! ## What a trace tells -/

namespace Event

/-- What was counted, and how much was added. -/
def tally? : Event → Option (Tally × Nat)
  | .did (.tally what n) _ => some (what, n)
  | _ => none

/-- How many orders were stored. -/
def stored : Event → Nat
  | .did (.insert _) (.ok fresh) => fresh.toNat
  | .did (.insertAll _) (.ok n) => n
  | _ => 0

end Event

/-- All that a thread counted. -/
def tallies (trace : List Event) : List (Tally × Nat) := trace.filterMap Event.tally?

/-- How many orders a thread stored. -/
def stored (trace : List Event) : Nat := (trace.map Event.stored).sum

/-- How much was added to a count. -/
def amount (what : Tally) (counts : List (Tally × Nat)) : Nat :=
  (counts.map fun (other, n) => if other = what then n else 0).sum

@[simp] theorem tallies_append (trace : List Event) (e : Event) :
    tallies (trace ++ [e]) = tallies trace ++ e.tally?.toList := filterMap_snoc _ _ _

@[simp] theorem stored_append (trace : List Event) (e : Event) :
    stored (trace ++ [e]) = stored trace + e.stored := by
  simp [stored]

@[simp] theorem amount_nil (what : Tally) : amount what [] = 0 := rfl

@[simp] theorem amount_cons (what other : Tally) (n : Nat) (counts : List (Tally × Nat)) :
    amount what ((other, n) :: counts) = (if other = what then n else 0) + amount what counts := rfl

@[simp] theorem amount_append (what : Tally) (front back : List (Tally × Nat)) :
    amount what (front ++ back) = amount what front + amount what back := by
  simp [amount]

/-- Only calls that end are heard of. -/
theorem landings_did (trace : List Event) {action : Action} (answer : action.Answer) :
    landings (trace ++ [.did action answer]) = landings trace := by
  rw [landings_append]
  exact List.append_nil _

/-- Nothing was added to what was never counted. -/
theorem amount_eq_zero {what : Tally} {counts : List (Tally × Nat)}
    (never : ∀ e ∈ counts, e.1 ≠ what) : amount what counts = 0 := by
  induction counts with
  | nil => rfl
  | cons e rest ih =>
    obtain ⟨first, later⟩ := List.forall_mem_cons.mp never
    rw [amount_cons, if_neg first, ih later]

/-- An ended call adds one to the count of its outcome. -/
theorem amount_counted (kind : CallKind) (outcome : CallOutcome) (ended : List Ended) :
    amount (.replicationCalls kind outcome) (ended.map (counted kind)) =
      ended.countP fun e => e.2.outcome = outcome := by
  induction ended with
  | nil => rfl
  | cons e rest ih =>
    rw [List.map_cons, counted, amount_cons, ih, List.countP_cons, Nat.add_comm]
    simp

/-! ## The rules -/

/-- The kinds of operations. -/
inductive Kind where
  | buy
  | query
  | assign
  | fetch
  | accept
  | status
  | mark
  | sync
  | push
  deriving DecidableEq

/-- The kind of an operation. -/
def Operation.kind : Operation → Kind
  | .buy .. => .buy
  | .query _ => .query
  | .assign _ => .assign
  | .fetch _ => .fetch
  | .accept _ => .accept
  | .status => .status
  | .mark .. => .mark
  | .sync => .sync
  | .push _ => .push

namespace Purpose

/-- The peers that are called. -/
def peers : Purpose → List Member
  | .sync s => s.peers
  | .push f => f.peers

/-- The kind of the operations that make calls for this. -/
def kind : Purpose → Kind
  | .sync _ => .sync
  | .push _ => .push

end Purpose

/-- The kind of the operations that come to such an outcome. -/
def Outcome.kind : Outcome → Kind
  | .bought _ => .buy
  | .queried _ => .query
  | .assigned _ => .assign
  | .fetched _ => .fetch
  | .accepted _ => .accept
  | .reported _ => .status
  | .marked _ => .mark
  | .calling purpose .. => purpose.kind
  | .synced _ => .sync
  | .pushed _ => .push

/-- The kind of the operations that count this. -/
def countedBy : Tally → Kind
  | .ordersCreated | .buyFailures _ => .buy
  | .syncInserted | .replicationCalls .fetch _ => .sync
  | .replicationCalls .accept _ => .push

/-- Whether operations of a kind may store orders. -/
def Kind.stores : Kind → Bool
  | .buy | .accept | .sync => true
  | _ => false

theorem countedBy_calls (purpose : Purpose) (outcome : CallOutcome) :
    countedBy (.replicationCalls purpose.errand.kind outcome) = purpose.kind := by
  cases purpose <;> rfl

/-- Whether operations of a kind may do an action, as far as counts and orders go. -/
def Concerns (kind : Kind) : Action → Prop
  | .tally what _ => countedBy what = kind
  | .insert _ | .insertAll _ => kind.stores = true
  | _ => True

/-- A trace tells that just this was counted, and that so many orders were stored. -/
structure Tells (trace : List Event) (counts : List (Tally × Nat)) (n : Nat) : Prop where
  tallies : tallies trace = counts
  stored : stored trace = n

/-- Whether what a thread counted and stored is as its outcome says. -/
def Settles (trace : List Event) : Outcome → Prop
  | .bought (.placed _) => Tells trace [(.ordersCreated, 1)] 1
  | .bought _ => ∃ reason, Tells trace [(.buyFailures reason, 1)] 0
  | .accepted (.ok response) => Tells trace [] response.success.toNat
  | .accepted (.error _) => tallies trace = []
  | .calling purpose waiting ended =>
    Tells trace (ended.map (counted purpose.errand.kind)) 0 ∧ ended = landings trace ∧
      (∀ e ∈ ended, e.2.Fits purpose.errand.kind) ∧
      waiting.length + ended.length = purpose.peers.length
  | .synced (.ok report) =>
    ∃ counts, Tells trace ((landings trace).map (counted .fetch) ++ counts) report.inserted ∧
      (counts = [(.syncInserted, report.inserted)] ∨ counts = [] ∧ report.inserted = 0) ∧
      (∀ e ∈ landings trace, e.2.Fits .fetch) ∧ (landings trace).length = report.contacted
  | .synced (.error _) =>
    tallies trace = (landings trace).map (counted .fetch) ∧ ∀ e ∈ landings trace, e.2.Fits .fetch
  | .pushed report =>
    Tells trace ((landings trace).map (counted .accept)) 0 ∧
      (∀ e ∈ landings trace, e.2.Fits .accept) ∧ report = FanOut.report (landings trace)
  | _ => True

/-- Whether a task, for a thread that has a trace, keeps account of all that it does. -/
def Keeps (kind : Kind) : List Event → Work Outcome → Prop
  | trace, .done outcome => outcome.kind = kind ∧ Settles trace outcome
  | trace, .act action next =>
    Concerns kind action ∧ ∀ answer, Keeps kind (trace ++ [.did action answer]) (next answer)

section Rules

variable {kind : Kind} {trace : List Event}

theorem Keeps.act {action : Action} {next : action.Answer → Work Outcome}
    (concerns : Concerns kind action)
    (after : ∀ answer, Keeps kind (trace ++ [.did action answer]) (next answer)) :
    Keeps kind trace (.act action next) := ⟨concerns, after⟩

theorem Keeps.done {outcome : Outcome} (mine : outcome.kind = kind)
    (settles : Settles trace outcome) : Keeps kind trace (.done outcome) := ⟨mine, settles⟩

theorem Tells.nil : Tells [] [] 0 := ⟨rfl, rfl⟩

theorem Tells.append {counts : List (Tally × Nat)} {n : Nat} (tells : Tells trace counts n)
    (e : Event) : Tells (trace ++ [e]) (counts ++ e.tally?.toList) (n + e.stored) := by
  constructor
  · rw [tallies_append, tells.tallies]
  · rw [stored_append, tells.stored]

/-- What counts nothing leaves the counts as they were. -/
theorem Tells.silent {counts : List (Tally × Nat)} {n : Nat} (tells : Tells trace counts n)
    {e : Event} (silent : e.tally? = none) : Tells (trace ++ [e]) counts (n + e.stored) := by
  have told := tells.append e
  rw [silent, Option.toList_none, List.append_nil] at told
  exact told

end Rules

/-! ## Buys -/

section Buys

variable {request : BuyRequest} {trace : List Event}

/-- Giving a buy up counts the reason. -/
theorem keeps_giveUp (untold : Tells trace [] 0) (reason : BuyFailure) {outcome : BuyOutcome}
    (unplaced : outcome.owed? = none) :
    Keeps .buy trace (do return .bought (← Service.giveUp reason outcome)) := by
  refine .act rfl fun _ => .done rfl ?_
  cases outcome with
  | placed order => cases unplaced
  | declined | refused => exact ⟨reason, untold.append _⟩

theorem keeps_undoCommit (untold : Tells trace [] 0) (cause : Failure) :
    Keeps .buy trace
      (do return .bought (← Service.undoCommit request cause)) := by
  refine .act rfl fun counted => .act trivial fun given => .act trivial fun top => ?_
  have told := ((untold.append (.did (.tally (.buyFailures .storage) 1) counted)).append
    (.did (.changeStock ⟨request.name, request.quantity, true⟩) given)).append (.did .maxNumber top)
  cases top with
  | ok n => exact .act trivial fun _ => .done rfl ⟨.storage, told.append _⟩
  | error _ => exact .done rfl ⟨.storage, told⟩

/-- A buy counts an order as placed right after it stored it. -/
theorem keeps_commit (untold : Tells trace [] 0) (n : OrderNumber) :
    Keeps .buy trace (do return .bought (← Service.commit request n)) := by
  refine .act rfl fun answer => ?_
  cases answer with
  | error cause => exact keeps_undoCommit (untold.append _) cause
  | ok fresh =>
    cases fresh with
    | false => exact keeps_undoCommit (untold.append _) _
    | true =>
      refine .act rfl fun _ => .act trivial fun _ => .done rfl ?_
      exact ((untold.append _).append _).append _

theorem keeps_mintAndCommit (untold : Tells trace [] 0) :
    Keeps .buy trace
      (do return .bought (← Service.mintAndCommit request)) := by
  refine .act trivial fun minted => ?_
  cases minted with
  | some n => exact keeps_commit (untold.append _) n
  | none =>
    refine .act rfl fun _ => .act trivial fun given => .done rfl ⟨.exhausted, ?_⟩
    exact ((untold.append _).append _).append _

theorem keeps_takeStock (untold : Tells trace [] 0) :
    Keeps .buy trace (do return .bought (← Service.takeStock request)) := by
  refine .act trivial fun answer => ?_
  cases answer with
  | error cause => exact keeps_giveUp (untold.append _) _ rfl
  | ok change =>
    obtain ⟨success, message⟩ := change
    cases success with
    | false => exact keeps_giveUp (untold.append _) _ rfl
    | true => exact keeps_mintAndCommit (untold.append _)

theorem keeps_buy (strict : Bool) (request : BuyRequest) :
    Keeps .buy [] (Operation.buy strict request).work := by
  change Keeps .buy [] (do return .bought (← Service.buy strict request))
  unfold Service.buy
  cases request.problems with
  | cons problem rest => exact keeps_giveUp .nil _ rfl
  | nil =>
    refine .act trivial fun registry => ?_
    have untold := Tells.nil.append (.did .registry registry)
    simp only [bind_done]
    split
    · exact keeps_giveUp untold _ rfl
    · exact keeps_takeStock untold

end Buys

/-! ## The other operations -/

theorem keeps_query (request : QueryRequest) :
    Keeps .query [] (Operation.query request).work := by
  refine .act trivial fun answer => ?_
  cases answer <;> exact .done rfl trivial

theorem keeps_assign (request : LeaderAssignment) :
    Keeps .assign [] (Operation.assign request).work := by
  change Keeps .assign [] (do return .assigned (← Service.assign request))
  unfold Service.assign
  refine .act trivial fun _ => .act trivial fun registry => ?_
  simp only [bind_done]
  split
  · refine .act trivial fun top => ?_
    cases top with
    | ok n => exact .act trivial fun _ => .done rfl trivial
    | error _ => exact .done rfl trivial
  · exact .done rfl trivial

theorem keeps_fetch (request : FetchRequest) :
    Keeps .fetch [] (Operation.fetch request).work := by
  refine .act trivial fun _ => .act trivial fun answer => ?_
  cases answer <;> exact .done rfl trivial

/-- An accept that is answered with success has stored its order. -/
theorem keeps_accept (request : AcceptRequest) :
    Keeps .accept [] (Operation.accept request).work := by
  refine .act rfl fun answer => ?_
  cases answer with
  | error _ => exact .done rfl rfl
  | ok fresh =>
    cases fresh with
    | false => exact .act trivial fun _ => .done rfl ⟨rfl, rfl⟩
    | true =>
      refine .act trivial fun _ => .act trivial fun top => ?_
      cases top with
      | error _ => exact .done rfl rfl
      | ok n => exact .act trivial fun _ => .done rfl ⟨rfl, rfl⟩

theorem keeps_status : Keeps .status [] Operation.status.work := by
  refine .act trivial fun top => ?_
  cases top with
  | error _ => exact .done rfl trivial
  | ok n => exact .act trivial fun _ => .act trivial fun _ => .done rfl trivial

theorem keeps_sync : Keeps .sync [] Operation.sync.work := by
  refine .act trivial fun registry => .act trivial fun top => ?_
  cases top with
  | error _ => exact .done rfl ⟨rfl, nofun⟩
  | ok n => exact .done rfl ⟨⟨rfl, rfl⟩, rfl, nofun, rfl⟩

theorem keeps_push (order : Order) : Keeps .push [] (Operation.push order).work :=
  .act trivial fun _ => .done rfl ⟨⟨rfl, rfl⟩, rfl, nofun, rfl⟩

theorem keeps_start (operation : Operation) : Keeps operation.kind [] operation.work := by
  cases operation with
  | buy strict request => exact keeps_buy strict request
  | query request => exact keeps_query request
  | assign request => exact keeps_assign request
  | fetch request => exact keeps_fetch request
  | accept request => exact keeps_accept request
  | status => exact keeps_status
  | mark id liveness => exact .act trivial fun _ => .done rfl trivial
  | sync => exact keeps_sync
  | push order => exact keeps_push order

/-! ## Calls that end -/

/-- A call is counted as soon as it ended. -/
theorem keeps_land {trace : List Event} {purpose : Purpose} {waiting : List Member}
    {ended : List Ended} (settles : Settles trace (.calling purpose waiting ended)) {member : Member}
    (called : member ∈ waiting) {verdict : Verdict} (fits : verdict.Fits purpose.errand.kind) :
    Keeps purpose.kind (trace ++ [.landed member verdict]) (do
      settle purpose.errand.kind member.id verdict
      return .calling purpose (waiting.erase member) (ended ++ [(member.id, verdict)])) := by
  obtain ⟨told, same, fitting, all⟩ := settles
  have settled : ∀ later, landings later = landings trace ++ [(member.id, verdict)] →
      Tells later (ended.map (counted purpose.errand.kind) ++
        [(.replicationCalls purpose.errand.kind verdict.outcome, 1)]) 0 →
      Settles later (.calling purpose (waiting.erase member) (ended ++ [(member.id, verdict)])) := by
    intro later landed tells
    refine ⟨?_, ?_, ?_, ?_⟩
    · rw [List.map_append]
      exact tells
    · rw [landed, same]
    · intro e among
      rcases List.mem_append.mp among with before | last
      · exact fitting e before
      · rw [List.mem_singleton.mp last]
        exact fits
    · have some_waits := List.length_pos_of_mem called
      rw [List.length_erase_of_mem called, List.length_append, List.length_singleton]
      omega
  have landed : landings (trace ++ [.landed member verdict]) =
      landings trace ++ [(member.id, verdict)] := landings_append _ _
  refine .act (countedBy_calls _ _) fun counted => ?_
  have noted := (told.silent (e := .landed member verdict) rfl).append
    (.did (.tally (.replicationCalls purpose.errand.kind verdict.outcome) 1) counted)
  simp only [bind_done]
  split
  · refine .act trivial fun answer => .done rfl (settled _ ?_ (noted.silent rfl))
    rw [landings_did, landings_did, landed]
  · refine .done rfl (settled _ ?_ noted)
    rw [landings_did, landed]

/-- A sync whose calls have all ended reports how many they were and what it stored. -/
theorem keeps_concludeSync {trace : List Event} {s : Sync} {ended : List Ended}
    (settles : Settles trace (.calling (.sync s) [] ended)) :
    Keeps .sync trace (do return .synced (← s.conclude ended)) := by
  obtain ⟨told, rfl, fits, all⟩ := settles
  have called : (landings trace).length = s.peers.length := by
    rw [← Purpose.peers, ← all]
    exact (Nat.zero_add _).symm
  unfold Sync.conclude
  split
  · rename_i nobody
    refine .done rfl ⟨[], ?_, Or.inr ⟨rfl, rfl⟩, fits, ?_⟩
    · rw [List.append_nil]
      exact told
    · rw [called, List.isEmpty_iff.mp nobody]
      rfl
  · refine .act rfl fun answer => ?_
    cases answer with
    | error _ =>
      refine .done rfl ⟨?_, ?_⟩
      · rw [landings_did]
        exact (told.silent rfl).tallies
      · rw [landings_did]
        exact fits
    | ok inserted =>
      refine .act trivial fun top => ?_
      cases top with
      | error _ =>
        refine .done rfl ⟨?_, ?_⟩
        · rw [landings_did, landings_did]
          exact ((told.silent rfl).silent rfl).tallies
        · rw [landings_did, landings_did]
          exact fits
      | ok n =>
        refine .act trivial fun _ => .act rfl fun _ => .act trivial fun _ => .done rfl ?_
        refine ⟨[(.syncInserted, inserted)], ?_, Or.inl rfl, ?_, ?_⟩
        · constructor
          · simp only [landings_did]
            exact (((((told.silent rfl).silent rfl).silent rfl).append _).silent rfl).tallies
          · simp only [stored_append, told.stored]
            exact Nat.zero_add inserted
        · simp only [landings_did]
          exact fits
        · simp only [landings_did]
          exact called

theorem keeps_conclude {trace : List Event} {purpose : Purpose} {ended : List Ended}
    (settles : Settles trace (.calling purpose [] ended)) :
    Keeps purpose.kind trace (purpose.conclude ended) := by
  cases purpose with
  | sync s => exact keeps_concludeSync settles
  | push f =>
    obtain ⟨told, rfl, fits, _⟩ := settles
    exact .done rfl ⟨told, fits, rfl⟩

/-! ## Threads -/

/-- A thread that keeps account of all that it does. -/
structure Thread.Kept (t : Thread) : Prop where
  keeps : Keeps t.operation.kind t.trace t.rest
  concerns : ∀ action answer, .did action answer ∈ t.trace → Concerns t.operation.kind action

theorem kept_start (operation : Operation) : (Thread.start operation).Kept :=
  ⟨keeps_start operation, nofun⟩

namespace Thread.Kept

variable {t : Thread}

/-- What is counted by other kinds of operations a thread does not count. -/
theorem amount_eq_zero (kept : t.Kept) {what : Tally} (other : countedBy what ≠ t.operation.kind) :
    amount what (tallies t.trace) = 0 := by
  refine Interleaving.amount_eq_zero fun entry told same => ?_
  obtain ⟨e, happened, tally⟩ := List.mem_filterMap.mp told
  unfold Event.tally? at tally
  split at tally
  · cases tally
    have concerns := kept.concerns _ _ happened
    dsimp only at same
    rw [same] at concerns
    exact other concerns
  · cases tally

/-- A thread whose kind does not store orders has stored none. -/
theorem stored_eq_zero (kept : t.Kept) (other : t.operation.kind.stores = false) :
    stored t.trace = 0 := by
  have nothing : ∀ e ∈ t.trace, e.stored = 0 := by
    intro e happened
    unfold Event.stored
    split
    · rw [kept.concerns _ _ happened] at other
      cases other
    · rw [kept.concerns _ _ happened] at other
      cases other
    · rfl
  rw [stored, List.map_congr_left nothing, List.map_const', List.sum_replicate_nat, Nat.mul_zero]

end Thread.Kept

variable {κ : Type} [Catalog κ]

/-- No step breaks the rules, as long as calls end as those of their kind do. -/
theorem Thread.Step.kept {lands : Member → Errand → Verdict → Prop} {d d' : Desk κ} {t t' : Thread}
    (step : Thread.Step lands d t d' t')
    (fitting : ∀ member errand verdict, lands member errand verdict → verdict.Fits errand.kind)
    (kept : t.Kept) : t'.Kept := by
  obtain ⟨keeps, concerns⟩ := kept
  cases step with
  | act operation trace action next =>
    refine ⟨keeps.2 _, fun other answer happened => ?_⟩
    rcases List.mem_append.mp happened with before | last
    · exact concerns other answer before
    · cases List.mem_singleton.mp last
      exact keeps.1
  | land operation trace purpose waiting ended called allowed =>
    obtain ⟨mine, settles⟩ := keeps
    have landed := keeps_land settles called (fitting _ _ _ allowed)
    rw [show purpose.kind = operation.kind from mine] at landed
    refine ⟨landed, fun other answer happened => ?_⟩
    rcases List.mem_append.mp happened with before | last
    · exact concerns other answer before
    · cases List.mem_singleton.mp last
  | conclude operation trace purpose ended =>
    obtain ⟨mine, settles⟩ := keeps
    have concluded := keeps_conclude settles
    rw [show purpose.kind = operation.kind from mine] at concluded
    exact ⟨concluded, concerns⟩

/-! ## What is counted and stored at a desk -/

theorem total_add (m : Metrics) (what other : Tally) (n : Nat) :
    (m.add other n).total what = m.total what + amount what [(other, n)] := by
  change (if what = other then m.total what + n else m.total what) = _
  simp only [amount_cons, amount_nil, Nat.add_zero, eq_comm (a := other)]
  split <;> rfl

/-- A count grows by what an action counts. -/
theorem total_perform (action : Action) (d : Desk κ) (what : Tally) :
    (action.perform d).2.node.metrics.total what =
      d.node.metrics.total what +
        amount what (Event.did action (action.perform d).1).tally?.toList := by
  cases action with
  | tally other n => exact total_add _ what other n
  | _ => rfl

/-- A log grows by what an action stores. -/
theorem length_perform (action : Action) (d : Desk κ) :
    (action.perform d).2.node.storage.log.all.length =
      d.node.storage.log.all.length + (Event.did action (action.perform d).1).stored := by
  cases action with
  | insert order =>
    cases outage : d.node.storage.outage .insert with
    | some cause =>
      simp only [Action.perform, Storage.write_of_outage outage]
      rfl
    | none =>
      simp only [Action.perform, Storage.write_of_works outage]
      exact OrderLog.length_insert _ order
  | insertAll orders =>
    cases outage : d.node.storage.outage .insertAll with
    | some cause =>
      simp only [Action.perform, Storage.write_of_outage outage]
      rfl
    | none =>
      simp only [Action.perform, Storage.write_of_works outage]
      exact OrderLog.length_insertAll _ orders
  | _ => rfl

end Interleaving

end OrderCluster
