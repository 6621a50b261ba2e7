import OrderCluster.Proofs.Node
import OrderCluster.Service.Buy

/-!
# The ways a buy can end

A buy that nothing interrupts ends in one of seven ways. Each is listed with what led to it and with
the whole desk that it leaves behind, so that a fact about buys is a case analysis over this list.
-/

namespace OrderCluster

def Desk.count (d : Desk κ) (what : Tally) : Desk κ :=
  { d with node := { d.node with metrics := d.node.metrics.add what 1 } }

namespace Service

/-- The cause of a commit that found its number held. -/
def clash (n : OrderNumber) : Failure :=
  .because ("order number " ++ toString n.toInt ++ " is already taken")

/-- The cause of a buy for which no number was left. -/
def outOfNumbers : Failure := .because "no order numbers left to mint"

theorem clash_ne_outOfNumbers (n : OrderNumber) : clash n ≠ outOfNumbers := by
  intro eq
  have text : "order number " ++ toString n.toInt ++ " is already taken" =
      "no order numbers left to mint" := List.head_eq_of_cons_eq (Failure.mk.inj eq)
  have first := congrArg (fun s : String => s.toList.head?) text
  simp [String.toList_append] at first

variable {κ : Type} [Catalog κ]

def taking (request : BuyRequest) : StockRequest := ⟨request.name, request.quantity, false⟩

def givingBack (request : BuyRequest) : StockRequest := ⟨request.name, request.quantity, true⟩

/-- The counter after a commit that failed under a minted number. -/
def counterAfterLoss (n : Node) : Counter :=
  match n.storage.read .maxNumber fun log => log.maxNumber with
  | .ok top => n.counter.mint.2.resetAbove top
  | .error _ => n.counter.mint.2

/-- The node after an order was committed under the number just minted. -/
def nodeWith (n : Node) (order : Order) : Node :=
  { n with
    storage := { n.storage with log := (n.storage.log.insert order).2 }
    counter := n.counter.mint.2
    metrics := { n.metrics.add .ordersCreated 1 with maxNumber := order.number } }

/-- How a buy ends on a desk, and the desk that it leaves behind. -/
inductive BuyEnd (strict : Bool) (request : BuyRequest) (d : Desk κ) :
    BuyOutcome → Desk κ → Prop where
  | invalid (wrong : request.problems ≠ []) :
    BuyEnd strict request d (.refused (.ofProblems request.problems))
      (d.count (.buyFailures .invalid))
  | notLeader (valid : request.problems = []) (guarded : strict = true)
    (follower : d.node.registry.isSelfLeader = false) :
    BuyEnd strict request d (.refused (.notLeader d.node.registry.selfId d.node.registry.leader))
      (d.count (.buyFailures .notLeader))
  | unavailable (valid : request.problems = [])
    (allowed : (strict && !d.node.registry.isSelfLeader) = false) {cause : Failure} {catalog : κ}
    (asked : Catalog.change d.catalog (taking request) = (.error cause, catalog)) :
    BuyEnd strict request d (.refused (.catalogUnavailable cause.text))
      ({ d with catalog }.count (.buyFailures .catalogUnavailable))
  | declined (valid : request.problems = [])
    (allowed : (strict && !d.node.registry.isSelfLeader) = false) {change : StockChange}
    {catalog : κ} (asked : Catalog.change d.catalog (taking request) = (.ok change, catalog))
    (refused : change.success = false) :
    BuyEnd strict request d
      (.declined (change.errorMessage.getD (request.name ++ " could not be bought")))
      ({ d with catalog }.count (.buyFailures .stock))
  | exhausted (valid : request.problems = [])
    (allowed : (strict && !d.node.registry.isSelfLeader) = false) {change : StockChange}
    {catalog : κ} (asked : Catalog.change d.catalog (taking request) = (.ok change, catalog))
    (taken : change.success = true) (none_left : d.node.counter.next = OrderNumber.last) :
    BuyEnd strict request d (.refused (.internal outOfNumbers))
      ({ d with catalog := (Catalog.change catalog (givingBack request)).2 }.count
        (.buyFailures .exhausted))
  | placed (valid : request.problems = [])
    (allowed : (strict && !d.node.registry.isSelfLeader) = false) {change : StockChange}
    {catalog : κ} (asked : Catalog.change d.catalog (taking request) = (.ok change, catalog))
    (taken : change.success = true) {n : OrderNumber} (minted : d.node.counter.mint.1 = some n)
    (works : d.node.storage.outage .insert = none) (free : d.node.storage.log.get? n = none) :
    BuyEnd strict request d (.placed ⟨n, request.name, request.quantity⟩)
      ⟨nodeWith d.node ⟨n, request.name, request.quantity⟩, catalog⟩
  | lost (valid : request.problems = [])
    (allowed : (strict && !d.node.registry.isSelfLeader) = false) {change : StockChange}
    {catalog : κ} (asked : Catalog.change d.catalog (taking request) = (.ok change, catalog))
    (taken : change.success = true) {n : OrderNumber} (minted : d.node.counter.mint.1 = some n)
    {cause : Failure}
    (failed : d.node.storage.outage .insert = some cause ∨
      d.node.storage.outage .insert = none ∧ d.node.storage.log.get? n ≠ none ∧ cause = clash n) :
    BuyEnd strict request d (.refused (.internal cause))
      (Desk.count
        ⟨{ d.node with counter := counterAfterLoss d.node },
          (Catalog.change catalog (givingBack request)).2⟩
        (.buyFailures .storage))

theorem perform_giveUp (reason : BuyFailure) (outcome : BuyOutcome) (d : Desk κ) :
    (giveUp reason outcome).perform d = (outcome, d.count (.buyFailures reason)) := rfl

theorem perform_undoCommit (request : BuyRequest) (cause : Failure) (d : Desk κ) :
    (undoCommit request cause).perform d =
      (.refused (.internal cause),
        Desk.count
          ⟨{ d.node with
              counter := match d.node.storage.read .maxNumber fun log => log.maxNumber with
                | .ok top => d.node.counter.resetAbove top
                | .error _ => d.node.counter },
            (Catalog.change d.catalog (givingBack request)).2⟩
          (.buyFailures .storage)) := by
  simp only [undoCommit, restock, Work.perform_bind, Work.perform_tally, Work.perform_changeStock,
    Work.perform_pure, Work.perform_maxNumber]
  cases d.node.storage.read .maxNumber fun log => log.maxNumber with
  | ok top => rfl
  | error _ => rfl

/-- What became of an order is told by the log; a failed commit is undone. -/
theorem buyEnd_commit {strict : Bool} {request : BuyRequest} {d : Desk κ}
    (valid : request.problems = []) (allowed : (strict && !d.node.registry.isSelfLeader) = false)
    {change : StockChange} {catalog : κ}
    (asked : Catalog.change d.catalog (taking request) = (.ok change, catalog))
    (taken : change.success = true) {n : OrderNumber} (minted : d.node.counter.mint.1 = some n) :
    let done :=
      (commit request n).perform ⟨{ d.node with counter := d.node.counter.mint.2 }, catalog⟩
    BuyEnd strict request d done.1 done.2 := by
  intro done
  cases outage : d.node.storage.outage .insert with
  | some cause =>
    have eq : done = ((undoCommit request cause).perform
        ⟨{ d.node with counter := d.node.counter.mint.2 }, catalog⟩) := by
      simp only [done, commit, Work.perform_bind, Work.perform_insert,
        Storage.write_of_outage outage]
    rw [eq, perform_undoCommit]
    exact .lost valid allowed asked taken minted (Or.inl outage)
  | none =>
    cases held : d.node.storage.log.get? n with
    | none =>
      have eq : done = (.placed ⟨n, request.name, request.quantity⟩,
          ⟨nodeWith d.node ⟨n, request.name, request.quantity⟩, catalog⟩) := by
        simp only [done, commit, Work.perform_bind, Work.perform_insert,
          Storage.write_of_works outage, OrderLog.insert_fst, held, Option.isNone_none]
        rfl
      rw [eq]
      exact .placed valid allowed asked taken minted outage held
    | some other =>
      have same : d.node.storage.log.insert ⟨n, request.name, request.quantity⟩ =
          (false, d.node.storage.log) := OrderLog.insert_of_held held
      have eq : done = ((undoCommit request (clash n)).perform
          ⟨{ d.node with counter := d.node.counter.mint.2 }, catalog⟩) := by
        simp only [done, commit, Work.perform_bind, Work.perform_insert,
          Storage.write_of_works outage, same]
        rfl
      rw [eq, perform_undoCommit]
      refine .lost valid allowed asked taken minted (Or.inr ⟨outage, ?_, rfl⟩)
      rw [held]
      exact Option.some_ne_none other

theorem buyEnd_takeStock {strict : Bool} {request : BuyRequest} {d : Desk κ}
    (valid : request.problems = []) (allowed : (strict && !d.node.registry.isSelfLeader) = false) :
    BuyEnd strict request d
      ((takeStock request).perform d).1 ((takeStock request).perform d).2 := by
  simp only [takeStock, Work.perform_bind, Work.perform_changeStock]
  rcases asked : Catalog.change d.catalog ⟨request.name, request.quantity, false⟩ with
    ⟨cause | change, catalog⟩
  · exact .unavailable valid allowed asked
  · cases taken : change.success with
    | false =>
      simp only [taken, Bool.false_eq_true, if_false]
      exact .declined valid allowed asked taken
    | true =>
      simp only [taken, if_true, mintAndCommit, Work.perform_bind, Work.perform_mint]
      rcases d.node.counter.mint_cases with ⟨last, eq⟩ | ⟨_, eq⟩
      · simp only [eq]
        exact .exhausted valid allowed asked taken last
      · have minted : d.node.counter.mint.1 = some d.node.counter.next := by rw [eq]
        simp only [minted]
        exact buyEnd_commit valid allowed asked taken minted

/-- Every buy ends in one of the ways that are listed. -/
theorem buyEnd_buy (strict : Bool) (request : BuyRequest) (d : Desk κ) :
    BuyEnd strict request d
      ((buy strict request).perform d).1 ((buy strict request).perform d).2 := by
  cases valid : request.problems with
  | cons problem rest =>
    have wrong : request.problems ≠ [] := by simp [valid]
    have eq : (buy strict request).perform d =
        (.refused (.ofProblems request.problems), d.count (.buyFailures .invalid)) := by
      simp only [buy, valid, perform_giveUp]
    rw [eq]
    exact .invalid wrong
  | nil =>
    have eq : (buy strict request).perform d =
        (if (strict && !d.node.registry.isSelfLeader) = true then
          giveUp .notLeader (.refused (.notLeader d.node.registry.selfId d.node.registry.leader))
        else takeStock request).perform d := by
      simp only [buy, valid]
      rfl
    rw [eq]
    by_cases guard : (strict && !d.node.registry.isSelfLeader) = true
    · obtain ⟨guarded, follower⟩ := Bool.and_eq_true_iff.mp guard
      rw [if_pos guard, perform_giveUp]
      exact .notLeader valid guarded ((Bool.not_eq_true' _).mp follower)
    · rw [if_neg guard]
      exact buyEnd_takeStock valid (Bool.eq_false_iff.mpr guard)

namespace BuyEnd

variable {strict : Bool} {request : BuyRequest} {d d' : Desk κ} {outcome : BuyOutcome}

/-- A buy leaves a node ahead of its log. -/
theorem ahead (how : BuyEnd strict request d outcome d') (ahead : d.node.Ahead) :
    d'.node.Ahead := by
  cases how with
  | placed _ _ _ _ minted _ _ =>
    intro k order found
    rcases OrderLog.get?_insert_cases found with old | ⟨_, _, rfl⟩
    · exact (ahead k order old).mono d.node.counter.le_mint
    · exact Or.inl (Counter.lt_mint minted)
  | lost _ _ _ _ _ _ =>
    refine ahead.keep rfl ?_
    change d.node.counter.next ≤ (counterAfterLoss d.node).next
    unfold counterAfterLoss
    split
    · exact Int64.le_trans d.node.counter.le_mint (Counter.le_resetAbove _ _)
    · exact d.node.counter.le_mint
  | _ => exact ahead

/-- A placed order stands under the number at which the counter stood, and the counter moves on by
one. -/
theorem of_placed {order : Order} (how : BuyEnd strict request d (.placed order) d') :
    d.node.counter.next = order.number ∧ d.node.counter.next ≠ OrderNumber.last ∧
      d'.node.counter.next = order.number + 1 ∧ d.node.storage.outage .insert = none ∧
      d.node.storage.log.get? order.number = none ∧
      d'.node.storage.log.get? order.number = some order := by
  cases how with
  | placed _ _ _ _ minted works free =>
    obtain ⟨next, moved, lt⟩ := Counter.mint_eq_some minted
    refine ⟨next, ?_, ?_, works, free, OrderLog.get?_insert_self free⟩
    · intro last
      rw [Counter.mint_of_exhausted last] at minted
      cases minted
    · change d.node.counter.mint.2.next = _
      rw [moved]

omit [Catalog κ] in
theorem eq_placed_of_owed {order : Order} (owed : outcome.owed? = some order) :
    outcome = .placed order := by
  cases outcome with
  | placed committed =>
    cases owed
    rfl
  | _ => cases owed

theorem log_of_placed {order : Order} (how : BuyEnd strict request d (.placed order) d') :
    d'.node.storage.log = (d.node.storage.log.insert order).2 := by
  cases how with
  | placed _ _ _ _ _ _ _ => rfl

/-- A buy that places nothing writes nothing. -/
theorem log_of_unplaced (how : BuyEnd strict request d outcome d')
    (unplaced : outcome.owed? = none) : d'.node.storage.log = d.node.storage.log := by
  cases how with
  | placed _ _ _ _ _ _ _ => cases unplaced
  | _ => rfl

theorem registry (how : BuyEnd strict request d outcome d') :
    d'.node.registry = d.node.registry := by
  cases how with
  | _ => rfl

/-- Where a node is ahead of its log, a placed order lies above all that was held. -/
theorem above_held {order : Order} (how : BuyEnd strict request d (.placed order) d')
    (ahead : d.node.Ahead) {k : OrderNumber} {held : Order}
    (found : d.node.storage.log.get? k = some held) : k < order.number := by
  obtain ⟨next, left, _⟩ := how.of_placed
  rcases ahead k held found with below | last
  · rwa [← next]
  · exact absurd last left

omit [Catalog κ] in
/-- Where a node is ahead of its log, a minted number is free. -/
theorem free_of_ahead {d : Desk κ} (ahead : d.node.Ahead) {n : OrderNumber}
    (minted : d.node.counter.mint.1 = some n) : d.node.storage.log.get? n = none := by
  rcases d.node.counter.mint_cases with ⟨_, eq⟩ | ⟨ne, eq⟩
  · rw [eq] at minted
    cases minted
  · rw [eq] at minted
    cases minted
    cases found : d.node.storage.log.get? d.node.counter.next with
    | none => rfl
    | some order =>
      rcases ahead _ _ found with below | last
      · exact absurd below Int64.lt_irrefl
      · exact absurd last ne

/-- Where a node is ahead of its log, no commit finds its number held; only the failing log itself
could say so. -/
theorem outage_of_clash {n : OrderNumber}
    (how : BuyEnd strict request d (.refused (.internal (clash n))) d') (ahead : d.node.Ahead) :
    d.node.storage.outage .insert = some (clash n) := by
  generalize eq : BuyOutcome.refused (.internal (clash n)) = outcome at how
  cases how with
  | exhausted _ _ _ _ _ =>
    injection eq with eq
    injection eq with eq
    exact absurd eq (clash_ne_outOfNumbers n)
  | lost _ _ _ _ minted failed =>
    injection eq with eq
    injection eq with eq
    rcases failed with outage | ⟨_, held, _⟩
    · rwa [eq]
    · exact absurd (free_of_ahead ahead minted) held
  | _ => cases eq

/-- Where a node is ahead of its log, a buy that places nothing uses up no number, unless the log
itself refused the write. -/
theorem counter_of_unplaced (how : BuyEnd strict request d outcome d') (ahead : d.node.Ahead)
    (unplaced : outcome.owed? = none)
    (kept : ∀ cause, outcome = .refused (.internal cause) →
      d.node.storage.outage .insert ≠ some cause) : d'.node.counter = d.node.counter := by
  cases how with
  | placed _ _ _ _ _ _ _ => cases unplaced
  | lost _ _ _ _ minted failed =>
    rcases failed with outage | ⟨_, held, _⟩
    · exact absurd outage (kept _ rfl)
    · exact absurd (free_of_ahead ahead minted) held
  | _ => rfl

/-- A buy that ends with an internal error leaves the counter above the whole log, wherever it stood,
if the log can tell its greatest number. -/
theorem ahead_of_internal {cause : Failure}
    (how : BuyEnd strict request d (.refused (.internal cause)) d')
    (readable : d.node.storage.outage .maxNumber = none) : d'.node.Ahead := by
  generalize eq : BuyOutcome.refused (.internal cause) = outcome at how
  cases how with
  | exhausted _ _ _ _ none_left => exact fun k order _ => Or.inr none_left
  | lost _ _ _ _ _ _ =>
    refine Node.ahead_of_clears ?_
    change (counterAfterLoss d.node).Clears d.node.storage.log.maxNumber
    rw [counterAfterLoss, Storage.read_of_works readable]
    exact Counter.clears_resetAbove _ (Int64.le_refl _)
  | _ => cases eq

end BuyEnd

end Service

end OrderCluster
