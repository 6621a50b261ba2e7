import OrderCluster.Proofs.Interleaving.Conduct

/-!
# Which operations note statuses, and whom they call

Only two kinds of operations note a status besides an explicit mark: a fetch notes that the node
that asks is alive, and a sync or a push notes that a peer is offline after a call to it has failed.
A sync or a push calls the peers that were active in the registry when it looked at it, which is the
first thing that it does. These are rules about trees of actions, so that they can be carried along
while other threads act in between.
-/

namespace OrderCluster.Interleaving

open Replication

/-- Whether a task notes no status. -/
def Quiet : Work α → Prop
  | .done _ => True
  | .act action next => (∀ id status, action ≠ .mark id status) ∧ ∀ answer, Quiet (next answer)

section Tasks

variable {α β : Type}

theorem Quiet.act {action : Action} {next : action.Answer → Work α}
    (other : ∀ id status, action ≠ .mark id status) (after : ∀ answer, Quiet (next answer)) :
    Quiet (.act action next) := ⟨other, after⟩

theorem Quiet.bind {task : Work α} {f : α → Work β} (quiet : Quiet task)
    (after : ∀ a, Quiet (f a)) : Quiet (task >>= f) := by
  induction task with
  | done a => exact after a
  | act action next ih => exact ⟨quiet.1, fun answer => ih answer (quiet.2 answer)⟩

theorem quiet_orInternal {answer : Except Failure α} {next : α → Work (Except ServiceError β)}
    (after : ∀ a, Quiet (next a)) : Quiet (Service.orInternal answer next) := by
  cases answer with
  | ok a => exact after a
  | error cause => trivial

end Tasks

/-! ## Tasks that note no status -/

theorem quiet_undoCommit (request : BuyRequest) (cause : Failure) :
    Quiet (Service.undoCommit request cause) := by
  refine .act nofun fun _ => .act nofun fun _ => .act nofun fun top => ?_
  cases top with
  | ok n => exact .act nofun fun _ => trivial
  | error _ => trivial

theorem quiet_commit (request : BuyRequest) (n : OrderNumber) :
    Quiet (Service.commit request n) := by
  refine .act nofun fun answer => ?_
  cases answer with
  | error cause => exact quiet_undoCommit request cause
  | ok fresh =>
    cases fresh with
    | false => exact quiet_undoCommit request _
    | true => exact .act nofun fun _ => .act nofun fun _ => trivial

theorem quiet_takeStock (request : BuyRequest) : Quiet (Service.takeStock request) := by
  refine .act nofun fun answer => ?_
  cases answer with
  | error cause => exact .act nofun fun _ => trivial
  | ok change =>
    obtain ⟨success, message⟩ := change
    cases success with
    | false => exact .act nofun fun _ => trivial
    | true =>
      refine .act nofun fun minted => ?_
      cases minted with
      | some n => exact quiet_commit request n
      | none => exact .act nofun fun _ => .act nofun fun _ => trivial

theorem quiet_buy (strict : Bool) (request : BuyRequest) : Quiet (Service.buy strict request) := by
  unfold Service.buy
  cases request.problems with
  | cons problem rest => exact .act nofun fun _ => trivial
  | nil =>
    refine .act nofun fun registry => ?_
    simp only [bind_done]
    split
    · exact .act nofun fun _ => trivial
    · exact quiet_takeStock request

theorem quiet_query (request : QueryRequest) : Quiet (Service.query request) :=
  .act nofun fun _ => quiet_orInternal fun _ => trivial

theorem quiet_assign (request : LeaderAssignment) : Quiet (Service.assign request) := by
  refine .act nofun fun _ => .act nofun fun registry => ?_
  simp only [bind_done]
  split
  · exact .act nofun fun answer => quiet_orInternal fun n => .act nofun fun _ => trivial
  · trivial

theorem quiet_accept (request : AcceptRequest) : Quiet (Service.accept request) := by
  refine .act nofun fun answer => quiet_orInternal fun fresh => .act nofun fun _ => ?_
  cases fresh with
  | false => trivial
  | true => exact .act nofun fun top => quiet_orInternal fun n => .act nofun fun _ => trivial

theorem quiet_status : Quiet Service.status :=
  .act nofun fun _ => quiet_orInternal fun _ => .act nofun fun _ => .act nofun fun _ => trivial

theorem quiet_concludeSync (s : Sync) (ended : List Ended) : Quiet (s.conclude ended) := by
  unfold Sync.conclude
  split
  · trivial
  · refine .act nofun fun answer => ?_
    cases answer with
    | error _ => trivial
    | ok inserted =>
      refine .act nofun fun top => ?_
      cases top with
      | error _ => trivial
      | ok n => exact .act nofun fun _ => .act nofun fun _ => .act nofun fun _ => trivial

/-! ## The rules -/

namespace Operation

/-- Whether an operation calls peers. -/
def callsPeers : Operation → Bool
  | .sync | .push _ => true
  | _ => false

end Operation

/-- The registry that was seen. -/
def Event.registry? : Event → Option Registry
  | .did .registry registry => some registry
  | _ => none

/-- The registry that a thread saw with its first action. -/
def looked? (trace : List Event) : Option Registry := trace.head?.bind Event.registry?

/-- What a thread saw first stays what it saw first. -/
theorem looked?_append {trace : List Event} {registry : Registry}
    (saw : looked? trace = some registry) (later : List Event) :
    looked? (trace ++ later) = some registry := by
  cases trace with
  | nil => cases saw
  | cons e rest => exact saw

/-- Whether a thread that has a trace may do an action. -/
def MayDo (operation : Operation) (trace : List Event) : Action → Prop
  | .mark id .active =>
    operation = .mark id .active ∨ ∃ request, operation = .fetch request ∧ request.requester = id
  | .mark id .offline =>
    operation = .mark id .offline ∨ operation.callsPeers = true ∧
      ∃ member error, .landed member (.failed error) ∈ trace ∧ member.id = id
  | _ => True

/-- Whether a thread that has a trace may come to an outcome. -/
def MayEnd (operation : Operation) (trace : List Event) : Outcome → Prop
  | .calling _ waiting _ =>
    operation.callsPeers = true ∧
      ∀ m ∈ waiting, ∃ registry, looked? trace = some registry ∧ m ∈ registry.activePeers
  | _ => True

/-- Whether all that a task may do is allowed to a thread that has a trace. -/
def Heeds (operation : Operation) : List Event → Work Outcome → Prop
  | trace, .done outcome => MayEnd operation trace outcome
  | trace, .act action next =>
    MayDo operation trace action ∧
      ∀ answer, Heeds operation (trace ++ [.did action answer]) (next answer)

theorem Heeds.act {operation : Operation} {trace : List Event} {action : Action}
    {next : action.Answer → Work Outcome} (allowed : MayDo operation trace action)
    (after : ∀ answer, Heeds operation (trace ++ [.did action answer]) (next answer)) :
    Heeds operation trace (.act action next) := ⟨allowed, after⟩

/-- A task that notes no status and does not end with calls is allowed to everybody. -/
theorem Heeds.of_quiet {operation : Operation} {α : Type} {task : Work α} (f : α → Outcome)
    (quiet : Quiet task) (ends : ∀ a trace, MayEnd operation trace (f a)) (trace : List Event) :
    Heeds operation trace (do return f (← task)) := by
  induction task generalizing trace with
  | done a => exact ends a trace
  | act action next ih =>
    refine .act ?_ fun answer => ih answer (quiet.2 answer) _
    cases action with
    | mark id status => exact absurd rfl (quiet.1 id status)
    | _ => trivial

theorem heeds_fetch (request : FetchRequest) :
    Heeds (.fetch request) [] (Operation.fetch request).work := by
  refine .act (Or.inr ⟨request, rfl, rfl⟩) fun _ => .act trivial fun answer => ?_
  cases answer <;> trivial

theorem heeds_mark (id : NodeId) (liveness : Status) :
    Heeds (.mark id liveness) [] (Operation.mark id liveness).work := by
  refine .act ?_ fun _ => trivial
  cases liveness with
  | active => exact Or.inl rfl
  | offline => exact Or.inl rfl

theorem heeds_sync : Heeds .sync [] Operation.sync.work := by
  refine .act trivial fun registry => .act trivial fun top => ?_
  cases top with
  | error _ => trivial
  | ok n => exact ⟨rfl, fun _ called => ⟨registry, rfl, called⟩⟩

theorem heeds_push (order : Order) : Heeds (.push order) [] (Operation.push order).work :=
  .act trivial fun registry => ⟨rfl, fun _ called => ⟨registry, rfl, called⟩⟩

theorem heeds_start (operation : Operation) : Heeds operation [] operation.work := by
  cases operation with
  | buy strict request => exact .of_quiet Outcome.bought (quiet_buy strict request) (fun _ _ => trivial) []
  | query request => exact .of_quiet Outcome.queried (quiet_query request) (fun _ _ => trivial) []
  | assign request => exact .of_quiet Outcome.assigned (quiet_assign request) (fun _ _ => trivial) []
  | fetch request => exact heeds_fetch request
  | accept request => exact .of_quiet Outcome.accepted (quiet_accept request) (fun _ _ => trivial) []
  | status => exact .of_quiet Outcome.reported quiet_status (fun _ _ => trivial) []
  | mark id liveness => exact heeds_mark id liveness
  | sync => exact heeds_sync
  | push order => exact heeds_push order

/-- After a call has ended, its peer may be noted as offline if the call failed. -/
theorem heeds_land {operation : Operation} {trace : List Event} {purpose : Purpose}
    {waiting : List Member} {ended : List Ended}
    (ends : MayEnd operation trace (.calling purpose waiting ended)) (kind : CallKind)
    (member : Member) (verdict : Verdict) :
    Heeds operation (trace ++ [.landed member verdict]) (do
      settle kind member.id verdict
      return .calling purpose (waiting.erase member) (ended ++ [(member.id, verdict)])) := by
  obtain ⟨calls, saw⟩ := ends
  have still : ∀ later, MayEnd operation (trace ++ later)
      (.calling purpose (waiting.erase member) (ended ++ [(member.id, verdict)])) := by
    intro later
    refine ⟨calls, fun m waits => ?_⟩
    obtain ⟨registry, first, active⟩ := saw m (List.mem_of_mem_erase waits)
    exact ⟨registry, looked?_append first later, active⟩
  refine .act trivial fun _ => ?_
  simp only [bind_done]
  cases verdict with
  | failed error =>
    refine .act (Or.inr ⟨calls, member, error, ?_, rfl⟩) fun _ => ?_
    · simp
    · change MayEnd operation _ _
      rw [List.append_assoc, List.append_assoc]
      exact still _
  | sent | stored | held =>
    change MayEnd operation _ _
    rw [List.append_assoc]
    exact still _

theorem heeds_conclude {operation : Operation} (trace : List Event) (purpose : Purpose)
    (ended : List Ended) : Heeds operation trace (purpose.conclude ended) := by
  cases purpose with
  | sync s => exact .of_quiet Outcome.synced (quiet_concludeSync s ended) (fun _ _ => trivial) trace
  | push f => trivial

/-- No step breaks the rules, whatever the peers answer. -/
theorem Thread.Step.heeds {κ : Type} [Catalog κ] {lands : Member → Errand → Verdict → Prop}
    {d d' : Desk κ} {t t' : Thread} (step : Thread.Step lands d t d' t')
    (heeds : Heeds t.operation t.trace t.rest) : Heeds t'.operation t'.trace t'.rest := by
  cases step with
  | act operation trace action next => exact heeds.2 _
  | land operation trace purpose waiting ended called allowed => exact heeds_land heeds _ _ _
  | conclude operation trace purpose ended => exact heeds_conclude trace purpose ended

end OrderCluster.Interleaving
