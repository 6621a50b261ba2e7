import OrderCluster.Proofs.Node
import OrderCluster.Service.Answers

/-!
# What the other calls leave behind

A query and a status report change nothing; serving a peer notes that it is alive; an assignment
moves the counter only where it names the node itself. Taking an order from a leader can end in four
ways, which are listed with the desk that each leaves behind.
-/

namespace OrderCluster

namespace Service

variable {κ : Type} [Catalog κ]

@[simp] theorem perform_query (request : QueryRequest) (d : Desk κ) :
    ((query request).perform d).2 = d := by
  simp only [query, Work.perform_bind, Work.perform_find]
  cases d.node.storage.read .get fun log => log.get? request.orderNumber <;> rfl

@[simp] theorem perform_status (d : Desk κ) : (status.perform d).2 = d := by
  simp only [status, Work.perform_bind, Work.perform_maxNumber]
  cases d.node.storage.read .maxNumber fun log => log.maxNumber <;> rfl

@[simp] theorem perform_fetch (request : FetchRequest) (d : Desk κ) :
    (fetch request).perform d =
      (match d.node.storage.read .after fun log => log.after request.after with
        | .ok orders => .ok ⟨orders, request.after⟩
        | .error cause => .error (.internal cause),
        { d with
          node :=
            { d.node with registry := (d.node.registry.mark request.requester .active).2 } }) := by
  simp only [fetch, Work.perform_bind, Work.perform_mark, Work.perform_after]
  cases d.node.storage.read .after fun log => log.after request.after <;> rfl

/-- The desk after the leader was noted. -/
def noted (request : LeaderAssignment) (d : Desk κ) : Desk κ :=
  { d with node := { d.node with registry := d.node.registry.assignLeader request.id } }

theorem perform_assign (request : LeaderAssignment) (d : Desk κ) :
    ((assign request).perform d).2 =
      if request.id = d.node.registry.selfId then
        match d.node.storage.read .maxNumber fun log => log.maxNumber with
        | .ok n => ((Work.resetAbove n).perform (noted request d)).2
        | .error _ => noted request d
      else noted request d := by
  have eq : (assign request).perform d =
      (if request.id = d.node.registry.selfId then do
        orInternal (← Work.maxNumber) fun n => do
          Work.resetAbove n
          return .ok
            ⟨"Received the leader id: " ++ toString request.id.toNat ++ ", I am the leader!"⟩
      else return .ok ⟨"Received the leader id: " ++ toString request.id.toNat⟩ :
        Work (Except ServiceError AssignmentResponse)).perform (noted request d) := rfl
  rw [eq]
  split
  · simp only [Work.perform_bind, Work.perform_maxNumber]
    change _ = match (noted request d).node.storage.read .maxNumber fun log => log.maxNumber with
      | .ok n => ((Work.resetAbove n).perform (noted request d)).2
      | .error _ => noted request d
    cases (noted request d).node.storage.read .maxNumber fun log => log.maxNumber <;> rfl
  · rfl

/-- An assignment writes nothing, and at most moves the counter above the greatest number. -/
theorem assign_cases (request : LeaderAssignment) (d : Desk κ) :
    ((assign request).perform d).2.node.storage = d.node.storage ∧
      (((assign request).perform d).2.node.counter = d.node.counter ∨
        ((assign request).perform d).2.node.counter =
          d.node.counter.resetAbove d.node.storage.log.maxNumber) := by
  rw [perform_assign]
  split
  · cases top : d.node.storage.read .maxNumber fun log => log.maxNumber with
    | error _ => exact ⟨rfl, Or.inl rfl⟩
    | ok n =>
      obtain ⟨_, rfl⟩ := Storage.read_eq_ok top
      exact ⟨rfl, Or.inr rfl⟩
  · exact ⟨rfl, Or.inl rfl⟩

theorem catalog_assign (request : LeaderAssignment) (d : Desk κ) :
    ((assign request).perform d).2.catalog = d.catalog := by
  rw [perform_assign]
  split
  · split <;> rfl
  · rfl

theorem registry_assign (request : LeaderAssignment) (d : Desk κ) :
    ((assign request).perform d).2.node.registry = d.node.registry.assignLeader request.id := by
  rw [perform_assign]
  split
  · split <;> rfl
  · rfl

/-- A node that is told to lead and can read its log leaves its counter above the whole log, wherever
it stood. -/
theorem ahead_assign_self {request : LeaderAssignment} {d : Desk κ}
    (own : request.id = d.node.registry.selfId)
    (readable : d.node.storage.outage .maxNumber = none) :
    ((assign request).perform d).2.node.Ahead := by
  rw [perform_assign, if_pos own, Storage.read_of_works readable]
  exact Node.ahead_of_clears (Counter.clears_resetAbove _ (Int64.le_refl _))

/-- How the call that takes an order from a leader ends, and the desk that it leaves behind. -/
inductive AcceptEnd (request : AcceptRequest) (d : Desk κ) :
    Except ServiceError AcceptResponse → Desk κ → Prop where
  | failed {cause : Failure} (outage : d.node.storage.outage .insert = some cause) :
    AcceptEnd request d (.error (.internal cause)) d
  | held {order : Order} (works : d.node.storage.outage .insert = none)
    (found : d.node.storage.log.get? request.order.number = some order) :
    AcceptEnd request d (.ok ⟨false⟩)
      { d with
        node := { d.node with counter := d.node.counter.resetAbove request.order.number } }
  | unread {cause : Failure} (works : d.node.storage.outage .insert = none)
    (free : d.node.storage.log.get? request.order.number = none)
    (outage : d.node.storage.outage .maxNumber = some cause) :
    AcceptEnd request d (.error (.internal cause))
      { d with
        node :=
          { d.node with
            storage := { d.node.storage with log := (d.node.storage.log.insert request.order).2 }
            counter := d.node.counter.resetAbove request.order.number } }
  | stored (works : d.node.storage.outage .insert = none)
    (free : d.node.storage.log.get? request.order.number = none)
    (readable : d.node.storage.outage .maxNumber = none) :
    AcceptEnd request d (.ok ⟨true⟩)
      { d with
        node :=
          { d.node with
            storage := { d.node.storage with log := (d.node.storage.log.insert request.order).2 }
            counter := d.node.counter.resetAbove request.order.number
            metrics :=
              { d.node.metrics with
                maxNumber := (d.node.storage.log.insert request.order).2.maxNumber } } }

theorem acceptEnd_accept (request : AcceptRequest) (d : Desk κ) :
    AcceptEnd request d ((accept request).perform d).1 ((accept request).perform d).2 := by
  simp only [accept, Work.perform_bind, Work.perform_insert]
  cases outage : d.node.storage.outage .insert with
  | some cause =>
    simp only [Storage.write_of_outage outage]
    exact .failed outage
  | none =>
    simp only [Storage.write_of_works outage]
    cases found : d.node.storage.log.get? request.order.number with
    | some order =>
      simp only [OrderLog.insert_of_held found]
      exact .held outage found
    | none =>
      simp only [OrderLog.insert_fst, found, Option.isNone_none]
      cases unread : d.node.storage.outage .maxNumber with
      | some cause =>
        simp only [orInternal, Work.perform_bind, Work.perform_resetAbove, if_true,
          Work.perform_maxNumber, Storage.read, unread]
        exact .unread outage found unread
      | none =>
        simp only [orInternal, Work.perform_bind, Work.perform_resetAbove, if_true,
          Work.perform_maxNumber, Storage.read, unread]
        exact .stored outage found unread

omit [Catalog κ] in
/-- Taking an order from a leader leaves a node ahead of its log, also where the log cannot be read
afterwards. -/
theorem AcceptEnd.ahead {request : AcceptRequest} {answer : Except ServiceError AcceptResponse}
    {d d' : Desk κ} (how : AcceptEnd request d answer d') (ahead : d.node.Ahead) :
    d'.node.Ahead := by
  have reset_ahead : ∀ n' : Node,
      n'.storage.log = (d.node.storage.log.insert request.order).2 →
        n'.counter = d.node.counter.resetAbove request.order.number → n'.Ahead := by
    intro n' log counter k order found
    rw [log] at found
    rw [counter]
    rcases OrderLog.get?_insert_cases found with old | ⟨_, _, rfl⟩
    · exact (ahead k order old).mono (Counter.le_resetAbove _ _)
    · exact Counter.clears_resetAbove _ (Int64.le_refl _)
  cases how with
  | failed _ => exact ahead
  | held _ _ => exact ahead.keep rfl (Counter.le_resetAbove _ _)
  | unread _ _ _ => exact reset_ahead _ rfl rfl
  | stored _ _ _ => exact reset_ahead _ rfl rfl

omit [Catalog κ] in
/-- A call that takes an order fails and changes nothing, or leaves the order written. -/
theorem AcceptEnd.log {request : AcceptRequest} {answer : Except ServiceError AcceptResponse}
    {d d' : Desk κ} (how : AcceptEnd request d answer d') :
    ((∃ e, answer = .error e) ∧ d'.node.storage.log = d.node.storage.log) ∨
      d'.node.storage.log = (d.node.storage.log.insert request.order).2 := by
  cases how with
  | failed _ => exact Or.inl ⟨⟨_, rfl⟩, rfl⟩
  | held _ found =>
    refine Or.inr ?_
    rw [OrderLog.insert_of_held found]
  | unread _ _ _ => exact Or.inr rfl
  | stored _ _ _ => exact Or.inr rfl

omit [Catalog κ] in
theorem AcceptEnd.registry {request : AcceptRequest} {answer : Except ServiceError AcceptResponse}
    {d d' : Desk κ} (how : AcceptEnd request d answer d') :
    d'.node.registry = d.node.registry := by
  cases how with
  | _ => rfl

omit [Catalog κ] in
theorem AcceptEnd.catalog {request : AcceptRequest} {answer : Except ServiceError AcceptResponse}
    {d d' : Desk κ} (how : AcceptEnd request d answer d') : d'.catalog = d.catalog := by
  cases how with
  | _ => rfl

/-- A node that is opened stands ahead of the log it is opened on. -/
theorem ahead_openNode {storage : Storage} {registry : Registry} {n : Node}
    (opened : openNode storage registry = .ok n) : n.storage = storage ∧ n.Ahead := by
  unfold openNode at opened
  cases top : storage.read .maxNumber fun log => log.maxNumber with
  | error cause =>
    rw [top] at opened
    cases opened
  | ok greatest =>
    rw [top] at opened
    cases opened
    obtain ⟨_, rfl⟩ := Storage.read_eq_ok top
    exact ⟨rfl, Node.ahead_of_clears (Counter.clears_startingAbove (Int64.le_refl _))⟩

theorem counter_openNode {storage : Storage} {registry : Registry} {n : Node}
    (opened : openNode storage registry = .ok n) :
    n.counter = .startingAbove storage.log.maxNumber ∧ n.registry = registry := by
  unfold openNode at opened
  cases top : storage.read .maxNumber fun log => log.maxNumber with
  | error cause =>
    rw [top] at opened
    cases opened
  | ok greatest =>
    rw [top] at opened
    cases opened
    obtain ⟨_, rfl⟩ := Storage.read_eq_ok top
    exact ⟨rfl, rfl⟩

end Service

end OrderCluster
