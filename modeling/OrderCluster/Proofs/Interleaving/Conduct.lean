import OrderCluster.Proofs.Interleaving.Thread
import OrderCluster.Proofs.Replication.Merge
import OrderCluster.Proofs.Service.Buy

/-!
# How operations conduct themselves

Some rules hold for each operation by itself, whatever its actions are answered: a buy writes its
order right after it minted the number; whatever else is written came from a leader or a peer, and
the counter is going to be moved above it; stock is given back if and only if it was taken and no
order was written. They are rules about trees of actions, so that they can be carried along while
other threads act in between.
-/

namespace OrderCluster.Interleaving

open Replication

/-- Whether an action moves the counter above a number. -/
def Clearing (k : OrderNumber) : Action → Prop
  | .resetAbove n => k ≤ n
  | _ => False

/-- Whether an answer is possible while a log that can be read holds a number. -/
def Possible (k : OrderNumber) : (action : Action) → action.Answer → Prop
  | .maxNumber, .ok top => k ≤ top
  | .maxNumber, .error _ => False
  | _, _ => True

/-- Whether a task is sure to move the counter above a number that the log holds. -/
def Covers (k : OrderNumber) : Work Outcome → Prop
  | .done _ => False
  | .act action next =>
    Clearing k action ∨ ∀ answer, Possible k action answer → Covers k (next answer)

/-- Whether a thread that has a trace may go on with an action. -/
def Allowed (operation : Operation) (trace : List Event) :
    (action : Action) → (action.Answer → Work Outcome) → Prop
  | .changeStock wish, _ => wish.isIncrement = true → (wish.name, wish.quantity) ∈ taken trace
  | .insert order, next =>
    if operation.isBuy then pending? trace = some order.number
    else Mentions operation trace order ∧ Covers order.number (next (.ok true))
  | .insertAll orders, next =>
    operation.isBuy = false ∧ ∀ order ∈ orders, Mentions operation trace order ∧
      ∀ count, Covers order.number (next (.ok count))
  | _, _ => True

/-- Whether an order is the one that an operation is to buy. -/
def Operation.Wants (operation : Operation) (order : Order) : Prop :=
  ∃ strict request, operation = .buy strict request ∧ order.product = request.name ∧
    order.quantity = request.quantity

/-- Whether a trace shows that a number was taken, or that the log failed in just these words. -/
def Clashed (n : OrderNumber) (trace : List Event) : Prop :=
  ∃ order, .did (.insert order) (.ok false) ∈ trace ∨
    .did (.insert order) (.error (Service.clash n)) ∈ trace

/-- Whether a thread that has a trace may come to an outcome. -/
def Closing (operation : Operation) (trace : List Event) : Outcome → Prop
  | .bought (.placed order) =>
    operation.Wants order ∧ written trace = [order] ∧
      taken trace = [(order.product, order.quantity)] ∧ offered trace = []
  | .bought (.declined _) =>
    operation.isBuy = true ∧ written trace = [] ∧ offered trace = taken trace
  | .bought (.refused error) =>
    operation.isBuy = true ∧ written trace = [] ∧ offered trace = taken trace ∧
      ∀ n, error = .internal (Service.clash n) → Clashed n trace
  | .fetched (.ok response) => ∀ order ∈ response.orders, Mentions operation trace order
  | .calling purpose _ ended =>
    operation.isBuy = false ∧ ended = landings trace ∧
      ∀ order, purpose.order? = some order → operation.order? = some order
  | .synced (.ok report) =>
    report.conflicts = 0 ∨ report.conflicts = (merge (Sync.answers (landings trace))).conflicts
  | _ => True

/-- Whether all that a task may do is allowed to a thread that has a trace. -/
def Proper (operation : Operation) : List Event → Work Outcome → Prop
  | trace, .done outcome => Closing operation trace outcome
  | trace, .act action next =>
    Allowed operation trace action next ∧
      ∀ answer, Proper operation (trace ++ [.did action answer]) (next answer)

/-- Whether a thread keeps to the rules. -/
def Thread.Proper (t : Thread) : Prop := Interleaving.Proper t.operation t.trace t.rest

/-- A task that is done hands its result on. -/
theorem bind_done (a : α) (f : α → Work β) : Program.bind (.done a) f = f a := rfl

theorem Proper.act {operation : Operation} {trace : List Event} {action : Action}
    {next : action.Answer → Work Outcome} (allowed : Allowed operation trace action next)
    (after : ∀ answer, Proper operation (trace ++ [.did action answer]) (next answer)) :
    Proper operation trace (.act action next) := ⟨allowed, after⟩

theorem Proper.done {operation : Operation} {trace : List Event} {outcome : Outcome}
    (closing : Closing operation trace outcome) : Proper operation trace (.done outcome) := closing

theorem Clashed.append {n : OrderNumber} {trace : List Event} (h : Clashed n trace) (e : Event) :
    Clashed n (trace ++ [e]) := by
  obtain ⟨order, refused | failed⟩ := h
  · exact ⟨order, Or.inl (List.mem_append_left _ refused)⟩
  · exact ⟨order, Or.inr (List.mem_append_left _ failed)⟩

section Buys

variable {strict : Bool} {request : BuyRequest}

/-- A refusal that no clash is to blame for. -/
theorem proper_refused {trace : List Event} {error : ServiceError} (nothing : written trace = [])
    (balanced : offered trace = taken trace)
    (other : ∀ n, error ≠ .internal (Service.clash n)) :
    Proper (.buy strict request) trace (.done (.bought (.refused error))) :=
  .done ⟨rfl, nothing, balanced, fun n eq => absurd eq (other n)⟩

/-- Undoing a commit gives back what was taken. -/
theorem proper_undoCommit {cause : Failure} {trace : List Event} (nothing : written trace = [])
    (took : taken trace = [(request.name, request.quantity)]) (kept : offered trace = [])
    (clashed : ∀ n, cause = Service.clash n → Clashed n trace) :
    Proper (.buy strict request) trace
      (do return .bought (← Service.undoCommit request cause)) := by
  refine .act trivial fun _ => .act (fun _ => ?_) fun given => .act trivial fun top => ?_
  · rw [taken_append, took]
    exact List.mem_append_left _ List.mem_cons_self
  · cases top with
    | ok n =>
      refine .act trivial fun _ => .done ⟨rfl, ?_, ?_, fun n eq => ?_⟩
      · simp only [written_append, nothing]
        rfl
      · simp only [offered_append, taken_append, took, kept]
        rfl
      · injection eq with eq
        exact ((((clashed n eq).append _).append _).append _).append _
    | error _ =>
      refine .done ⟨rfl, ?_, ?_, fun n eq => ?_⟩
      · simp only [written_append, nothing]
        rfl
      · simp only [offered_append, taken_append, took, kept]
        rfl
      · injection eq with eq
        exact (((clashed n eq).append _).append _).append _

/-- A buy that has just minted a number keeps to the rules. -/
theorem proper_commit {trace : List Event} {n : OrderNumber} (nothing : written trace = [])
    (took : taken trace = [(request.name, request.quantity)]) (kept : offered trace = [])
    (minted : pending? trace = some n) :
    Proper (.buy strict request) trace (do return .bought (← Service.commit request n)) := by
  refine .act minted fun answer => ?_
  cases answer with
  | error cause =>
    refine proper_undoCommit ?_ ?_ ?_ fun n eq => ?_
    · rw [written_append, nothing]
      rfl
    · rw [taken_append, took]
      rfl
    · rw [offered_append, kept]
      rfl
    · rw [eq]
      exact ⟨_, Or.inr (List.mem_append_right _ List.mem_cons_self)⟩
  | ok fresh =>
    cases fresh with
    | false =>
      refine proper_undoCommit ?_ ?_ ?_ fun n _ => ?_
      · rw [written_append, nothing]
        rfl
      · rw [taken_append, took]
        rfl
      · rw [offered_append, kept]
        rfl
      · exact ⟨_, Or.inl (List.mem_append_right _ List.mem_cons_self)⟩
    | true =>
      refine .act trivial fun _ => .act trivial fun _ => .done ⟨?_, ?_, ?_, ?_⟩
      · exact ⟨strict, request, rfl, rfl, rfl⟩
      · simp only [written_append, nothing]
        rfl
      · simp only [taken_append, took]
        rfl
      · simp only [offered_append, kept]
        rfl

theorem proper_mintAndCommit {trace : List Event} (nothing : written trace = [])
    (took : taken trace = [(request.name, request.quantity)]) (kept : offered trace = []) :
    Proper (.buy strict request) trace
      (do return .bought (← Service.mintAndCommit request)) := by
  refine .act trivial fun minted => ?_
  cases minted with
  | some n =>
    refine proper_commit ?_ ?_ ?_ ?_
    · rw [written_append, nothing]
      rfl
    · rw [taken_append, took]
      rfl
    · rw [offered_append, kept]
      rfl
    · rw [pending?_append]
      rfl
  | none =>
    refine .act trivial fun _ => .act (fun _ => ?_) fun given => proper_refused ?_ ?_ fun n eq => ?_
    · simp only [taken_append, took]
      exact List.mem_cons_self
    · simp only [written_append, nothing]
      rfl
    · simp only [offered_append, taken_append, took, kept]
      rfl
    · injection eq with eq
      exact Service.clash_ne_outOfNumbers n eq.symm

theorem proper_takeStock {trace : List Event} (nothing : written trace = [])
    (untouched : taken trace = []) (kept : offered trace = []) :
    Proper (.buy strict request) trace (do return .bought (← Service.takeStock request)) := by
  refine .act (fun back => absurd back Bool.false_ne_true) fun answer => ?_
  cases answer with
  | error cause =>
    refine .act trivial fun _ => proper_refused ?_ ?_ fun n eq => ?_
    · simp only [written_append, nothing]
      rfl
    · simp only [offered_append, taken_append, untouched, kept]
      rfl
    · cases eq
  | ok change =>
    obtain ⟨success, message⟩ := change
    cases success with
    | false =>
      refine .act trivial fun _ => .done ⟨rfl, ?_, ?_⟩
      · simp only [written_append, nothing]
        rfl
      · simp only [offered_append, taken_append, untouched, kept]
        rfl
    | true =>
      refine proper_mintAndCommit ?_ ?_ ?_
      · simp only [written_append, nothing]
        rfl
      · simp only [taken_append, untouched]
        rfl
      · simp only [offered_append, kept]
        rfl

/-- A buy keeps to the rules. -/
theorem proper_buy : Proper (.buy strict request) [] (Operation.buy strict request).work := by
  change Proper _ _ (do return .bought (← Service.buy strict request))
  unfold Service.buy
  cases request.problems with
  | cons problem rest =>
    refine .act trivial fun _ => proper_refused rfl rfl fun n eq => ?_
    cases eq
  | nil =>
    refine .act trivial fun registry => ?_
    simp only [bind_done]
    split
    · refine .act trivial fun _ => proper_refused rfl rfl fun n eq => ?_
      cases eq
    · exact proper_takeStock rfl rfl rfl

end Buys

/-! ## The other operations -/

theorem proper_query (request : QueryRequest) :
    Proper (.query request) [] (Operation.query request).work := by
  refine .act trivial fun answer => ?_
  cases answer <;> exact .done trivial

theorem proper_assign (request : LeaderAssignment) :
    Proper (.assign request) [] (Operation.assign request).work := by
  change Proper _ _ (do return .assigned (← Service.assign request))
  unfold Service.assign
  refine .act trivial fun _ => .act trivial fun registry => ?_
  simp only [bind_done]
  split
  · refine .act trivial fun top => ?_
    cases top with
    | ok n => exact .act trivial fun _ => .done trivial
    | error _ => exact .done trivial
  · exact .done trivial

theorem proper_fetch (request : FetchRequest) :
    Proper (.fetch request) [] (Operation.fetch request).work := by
  refine .act trivial fun _ => .act trivial fun answer => ?_
  cases answer with
  | error _ => exact .done trivial
  | ok orders =>
    refine .done fun order among => Or.inr ⟨.did (.after request.after) (.ok orders), ?_, among⟩
    exact List.mem_append_right _ List.mem_cons_self

/-- An order taken from a leader is covered as soon as it is written. -/
theorem proper_accept (request : AcceptRequest) :
    Proper (.accept request) [] (Operation.accept request).work := by
  refine .act ⟨Or.inl rfl, Or.inl (Int64.le_refl _)⟩ fun answer => ?_
  cases answer with
  | error _ => exact .done trivial
  | ok fresh =>
    cases fresh with
    | false => exact .act trivial fun _ => .done trivial
    | true =>
      refine .act trivial fun _ => .act trivial fun top => ?_
      cases top with
      | error _ => exact .done trivial
      | ok n => exact .act trivial fun _ => .done trivial

theorem proper_status : Proper .status [] Operation.status.work := by
  refine .act trivial fun top => ?_
  cases top with
  | error _ => exact .done trivial
  | ok n => exact .act trivial fun _ => .act trivial fun _ => .done trivial

theorem proper_sync : Proper .sync [] Operation.sync.work := by
  refine .act trivial fun registry => .act trivial fun top => ?_
  cases top with
  | error _ => exact .done trivial
  | ok n => exact .done ⟨rfl, rfl, fun order pushed => by cases pushed⟩

theorem proper_push (order : Order) : Proper (.push order) [] (Operation.push order).work :=
  .act trivial fun _ => .done ⟨rfl, rfl, fun _ pushed => pushed⟩

theorem proper_start (operation : Operation) : (Thread.start operation).Proper := by
  cases operation with
  | buy strict request => exact proper_buy
  | query request => exact proper_query request
  | assign request => exact proper_assign request
  | fetch request => exact proper_fetch request
  | accept request => exact proper_accept request
  | status => exact proper_status
  | mark id liveness => exact .act trivial fun _ => .done trivial
  | sync => exact proper_sync
  | push order => exact proper_push order

/-! ## Calls that end -/

/-- What is kept of a call that ended is what the trace tells. -/
theorem proper_land {operation : Operation} {trace : List Event} {purpose : Purpose}
    {waiting : List Member} {ended : List Ended}
    (closing : Closing operation trace (.calling purpose waiting ended)) (kind : CallKind)
    (member : Member) (verdict : Verdict) :
    Proper operation (trace ++ [.landed member verdict]) (do
      settle kind member.id verdict
      return .calling purpose (waiting.erase member) (ended ++ [(member.id, verdict)])) := by
  obtain ⟨other, same, pushed⟩ := closing
  have closed : ∀ trace', landings trace' = landings trace ++ [(member.id, verdict)] →
      Closing operation trace'
        (.calling purpose (waiting.erase member) (ended ++ [(member.id, verdict)])) := by
    intro trace' landed
    refine ⟨other, ?_, pushed⟩
    rw [landed, same]
  refine .act trivial fun _ => ?_
  simp only [bind_done]
  split
  · refine .act trivial fun _ => .done (closed _ ?_)
    simp only [landings_append, Event.landing?, Option.toList_some, Option.toList_none,
      List.append_nil]
  · refine .done (closed _ ?_)
    simp only [landings_append, Event.landing?, Option.toList_some, Option.toList_none,
      List.append_nil]

/-- A sync writes only what the peers sent, and then covers it. -/
theorem proper_concludeSync {operation : Operation} {trace : List Event} {s : Sync}
    {ended : List Ended} (other : operation.isBuy = false) (same : ended = landings trace) :
    Proper operation trace (do return .synced (← s.conclude ended)) := by
  unfold Sync.conclude
  split
  · exact .done (Or.inl rfl)
  · refine .act ⟨other, fun order among => ⟨?_, fun count => ?_⟩⟩ fun answer => ?_
    · obtain ⟨peer, orders, member, sent⟩ := Sync.mem_batch among
      rw [same] at member
      obtain ⟨e, happened, landed⟩ := List.mem_filterMap.mp member
      refine Or.inr ⟨e, happened, ?_⟩
      cases e with
      | did action answer => cases landed
      | landed called verdict =>
        cases landed
        exact sent
    · refine Or.inr fun top possible => ?_
      cases top with
      | error _ => cases possible
      | ok n => exact Or.inl possible
    · cases answer with
      | error _ => exact .done trivial
      | ok inserted =>
        refine .act trivial fun top => ?_
        cases top with
        | error _ => exact .done trivial
        | ok n =>
          refine .act trivial fun _ => .act trivial fun _ => .act trivial fun _ => .done (Or.inr ?_)
          simp only [landings_append, Event.landing?, Option.toList_none, List.append_nil, ← same]

theorem proper_conclude {operation : Operation} {trace : List Event} {purpose : Purpose}
    {ended : List Ended} (closing : Closing operation trace (.calling purpose [] ended)) :
    Proper operation trace (purpose.conclude ended) := by
  obtain ⟨other, same, _⟩ := closing
  cases purpose with
  | sync s => exact proper_concludeSync other same
  | push f => exact .done trivial

variable {κ : Type} [Catalog κ]

/-- No step breaks the rules, whatever the peers answer. -/
theorem Thread.Step.proper {lands : Member → Errand → Verdict → Prop} {d d' : Desk κ}
    {t t' : Thread} (step : Thread.Step lands d t d' t') (proper : t.Proper) : t'.Proper := by
  cases step with
  | act operation trace action next => exact proper.2 _
  | land operation trace purpose waiting ended called allowed => exact proper_land proper _ _ _
  | conclude operation trace purpose ended => exact proper_conclude proper

/-! ## What an allowed action does to a desk -/

/-- An order that is noted as written was free before, and is held now. -/
theorem held_of_written {action : Action} {d : Desk κ} {order : Order}
    (wrote : Event.written? (.did action (action.perform d).1) = some order) :
    d.node.storage.log.get? order.number = none ∧
      (action.perform d).2.node.storage.log.get? order.number = some order := by
  cases action with
  | insert o =>
    cases outage : d.node.storage.outage .insert with
    | some cause =>
      simp only [Action.perform, Storage.write_of_outage outage] at wrote
      cases wrote
    | none =>
      rw [Action.storage_insert]
      simp only [Action.perform, Storage.write_of_works outage, OrderLog.insert_fst] at wrote ⊢
      cases free : d.node.storage.log.get? o.number with
      | some _ =>
        rw [free] at wrote
        cases wrote
      | none =>
        rw [free] at wrote
        cases wrote
        exact ⟨free, OrderLog.get?_insert_self free⟩
  | _ => cases wrote

/-- What an allowed action writes stands under its own number. It is either the order of a buy that
has just minted this number, or it was mentioned before and is covered from then on. -/
theorem Allowed.written {operation : Operation} {trace : List Event} {action : Action}
    {next : action.Answer → Work Outcome} (allowed : Allowed operation trace action next)
    {d : Desk κ} {k : OrderNumber} {order : Order}
    (found : (action.perform d).2.node.storage.log.get? k = some order) :
    d.node.storage.log.get? k = some order ∨ order.number = k ∧
      (operation.isBuy = true ∧ pending? trace = some k ∨
        operation.isBuy = false ∧ Mentions operation trace order ∧
          Covers k (next (action.perform d).1)) := by
  cases action with
  | insert o =>
    cases outage : d.node.storage.outage .insert with
    | some cause =>
      rw [Action.storage_insert, Storage.write_of_outage outage] at found
      exact Or.inl found
    | none =>
      rw [Action.storage_insert, Storage.write_of_works outage] at found
      rcases OrderLog.get?_insert_cases found with old | ⟨free, rfl, rfl⟩
      · exact Or.inl old
      · have answer : ((Action.insert order).perform d).1 = .ok true := by
          simp only [Action.perform, Storage.write_of_works outage, OrderLog.insert_fst, free]
          rfl
        rw [answer]
        cases buys : operation.isBuy with
        | true =>
          simp only [Allowed, buys, if_true] at allowed
          exact Or.inr ⟨rfl, Or.inl ⟨rfl, allowed⟩⟩
        | false =>
          simp only [Allowed, buys, Bool.false_eq_true, if_false] at allowed
          exact Or.inr ⟨rfl, Or.inr ⟨rfl, allowed⟩⟩
  | insertAll os =>
    cases outage : d.node.storage.outage .insertAll with
    | some cause =>
      rw [Action.storage_insertAll, Storage.write_of_outage outage] at found
      exact Or.inl found
    | none =>
      rw [Action.storage_insertAll, Storage.write_of_works outage] at found
      rcases OrderLog.get?_insertAll_cases found with old | ⟨_, among, rfl⟩
      · exact Or.inl old
      · have answer : ((Action.insertAll os).perform d).1 =
            .ok (d.node.storage.log.insertAll os).1 := by
          simp only [Action.perform, Storage.write_of_works outage]
        rw [answer]
        obtain ⟨mentions, covers⟩ := allowed.2 order among
        exact Or.inr ⟨rfl, Or.inr ⟨allowed.1, mentions, covers _⟩⟩
  | _ => exact Or.inl found

/-- A task that covers a number that is held still does so after its next action, unless the counter
has just been moved above it. -/
theorem covers_perform {action : Action} {next : action.Answer → Work Outcome} {k : OrderNumber}
    (covers : Covers k (.act action next)) {d : Desk κ}
    (readable : d.node.storage.outage .maxNumber = none) {order : Order}
    (found : d.node.storage.log.get? k = some order) :
    (action.perform d).2.node.counter.Clears k ∨ Covers k (next (action.perform d).1) := by
  rcases covers with clearing | covers
  · cases action with
    | resetAbove n => exact Or.inl (Counter.clears_resetAbove _ clearing)
    | _ => cases clearing
  · refine Or.inr (covers _ ?_)
    cases action with
    | maxNumber =>
      have answer : (Action.maxNumber.perform d).1 = .ok d.node.storage.log.maxNumber :=
        Storage.read_of_works readable _
      rw [answer]
      exact OrderLog.le_maxNumber found
    | _ => trivial

/-- What a thread has done that has placed an order. -/
theorem closing_of_placed {t : Thread} (proper : t.Proper) {order : Order}
    (placed : t.placed? = some order) :
    t.operation.Wants order ∧ written t.trace = [order] ∧
      taken t.trace = [(order.product, order.quantity)] ∧ offered t.trace = [] := by
  obtain ⟨operation, trace, rest⟩ := t
  unfold Thread.placed? at placed
  split at placed
  · rename_i outcome eq
    cases outcome with
    | placed committed =>
      cases placed
      cases eq
      exact proper
    | _ => cases placed
  · cases placed

end OrderCluster.Interleaving
