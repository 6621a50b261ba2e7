import OrderCluster.Catalog.Overridden
import OrderCluster.Proofs.Interleaving.Conduct
import OrderCluster.Proofs.Service.Answers

/-!
# A cluster with a single writer

Any number of nodes on lasting logs that were empty at first. All buys go to one node, the leader.
Besides, nodes are asked for orders, told who leads and who is alive, catch up, and push what they
placed. Pushed orders and answers to fetches stay in the network: they may arrive late, more than
once or never, whatever their sender was told. A node may be opened again over its log at any time,
and then forgets all that it was doing.

Every order anywhere was minted and committed by the leader. So no two nodes can differ about a
number, no sync meets a conflict, and no buy of the leader finds its number taken.
-/

namespace OrderCluster.Interleaving

open Replication

/-- The nodes, the operations under way at them, and what is in the network. -/
structure Cluster (κ : Type) where
  desks : NodeId → Desk κ
  threads : List (NodeId × Thread)
  /-- The orders that were pushed, with the nodes they were pushed to. -/
  pushed : List (NodeId × AcceptRequest)
  /-- The answers to fetches, with the nodes that gave them. -/
  answered : List (NodeId × FetchRequest × List Order)

namespace Cluster

variable {κ : Type} [Catalog κ]

def log (c : Cluster κ) (id : NodeId) : OrderLog := (c.desks id).node.storage.log

def put (c : Cluster κ) (id : NodeId) (d : Desk κ) : NodeId → Desk κ :=
  fun other => if other = id then d else c.desks other

/-- How the call of a member can end: a fetch that succeeds brings what that member answered. -/
def lands (c : Cluster κ) (member : Member) : Errand → Verdict → Prop
  | .fetch request, .sent orders => (member.id, request, orders) ∈ c.answered
  | .accept _, .sent _ => False
  | _, _ => True

/-- Whether an operation may begin at a node by itself, where all buys go to the leader. -/
def mayBegin (leader id : NodeId) : Operation → Prop
  | .buy .. => id = leader
  | .accept _ | .push _ => False
  | _ => True

/-- One step of a cluster in which all buys go to the leader. -/
inductive Step (leader : NodeId) : Cluster κ → Cluster κ → Prop where
  /-- An operation begins. -/
  | begin (c : Cluster κ) (id : NodeId) (operation : Operation)
    (allowed : mayBegin leader id operation) :
    Step leader c { c with threads := c.threads ++ [(id, .start operation)] }
  /-- A placed order begins to be pushed. -/
  | push (c : Cluster κ) {id : NodeId} {t : Thread} {order : Order} (owner : (id, t) ∈ c.threads)
    (placed : t.placed? = some order) :
    Step leader c { c with threads := c.threads ++ [(id, .start (.push order))] }
  /-- A pushed order sets out to a peer. -/
  | send (c : Cluster κ) {id : NodeId} {t : Thread} {f : FanOut} {waiting : List Member}
    {ended : List Ended} {member : Member} (owner : (id, t) ∈ c.threads)
    (calling : t.rest = .done (.calling (.push f) waiting ended)) (called : member ∈ waiting) :
    Step leader c { c with pushed := c.pushed ++ [(member.id, ⟨f.order, f.selfId⟩)] }
  /-- A pushed order arrives. -/
  | deliver (c : Cluster κ) {id : NodeId} {request : AcceptRequest}
    (sent : (id, request) ∈ c.pushed) :
    Step leader c { c with threads := c.threads ++ [(id, .start (.accept request))] }
  /-- The answer to a fetch sets out. -/
  | answer (c : Cluster κ) {id : NodeId} {t : Thread} {request : FetchRequest}
    {response : FetchResponse} (owner : (id, t) ∈ c.threads)
    (asked : t.operation = .fetch request)
    (served : t.rest = .done (.fetched (.ok response))) :
    Step leader c { c with answered := c.answered ++ [(id, request, response.orders)] }
  /-- An operation goes on. -/
  | move (c : Cluster κ) {id : NodeId} {t t' : Thread} {d' : Desk κ}
    {front back : List (NodeId × Thread)} (among : c.threads = front ++ (id, t) :: back)
    (step : t.Step c.lands (c.desks id) d' t') :
    Step leader c { c with desks := c.put id d', threads := front ++ (id, t') :: back }
  /-- A node is opened again over its log. -/
  | restart (c : Cluster κ) {id : NodeId} {d : Desk κ} {outage : LogCall → Option Failure}
    {registry : Registry}
    (opened : Service.openNode ⟨(c.log id).reopen, outage⟩ registry = .ok d.node) :
    Step leader c
      { c with desks := c.put id d, threads := c.threads.filter fun p => p.1 ≠ id }
  /-- Log calls begin or cease to fail, and the catalog changes. -/
  | disturb (c : Cluster κ) (id : NodeId) (outage : LogCall → Option Failure) (catalog : κ) :
    Step leader c
      { c with
        desks := c.put id
          { node :=
              { (c.desks id).node with
                storage := { (c.desks id).node.storage with outage := outage } }
            catalog } }

/-- A cluster in which nothing has happened yet: nodes just opened over empty files. -/
structure Fresh (c : Cluster κ) : Prop where
  opened : ∀ id, ∃ connections outage registry,
    Service.openNode ⟨.table { medium := .onFile connections }, outage⟩ registry =
      .ok (c.desks id).node
  idle : c.threads = []
  unpushed : c.pushed = []
  unanswered : c.answered = []

inductive Reachable (leader : NodeId) : Cluster κ → Prop where
  | fresh {c : Cluster κ} (fresh : c.Fresh) : Reachable leader c
  | step {c c' : Cluster κ} (reached : Reachable leader c) (step : Step leader c c') :
    Reachable leader c'

end Cluster

/-! ## What holds of one thread -/

/-- What holds of a thread of a node, seen from the desk of the leader. -/
structure Thread.Honest {κ : Type} (leader id : NodeId) (lead : Desk κ) (t : Thread) : Prop where
  proper : t.Proper
  buys : t.operation.isBuy = true → id = leader
  /-- Whatever a thread knows of is held by the leader. -/
  mentions : ∀ order, Mentions t.operation t.trace order → lead.node.storage.log.Holds order
  /-- Whatever a thread wrote is held by the leader. -/
  written : ∀ order ∈ written t.trace, lead.node.storage.log.Holds order
  /-- A number just minted by the leader is free, and lies below the counter. -/
  minted : id = leader → ∀ n, pending? t.trace = some n →
    n < lead.node.counter.next ∧ lead.node.storage.log.get? n = none
  /-- No buy found its number taken. -/
  lucky : t.operation.isBuy = true → ∀ order, .did (.insert order) (.ok false) ∉ t.trace

/-- Two threads of the leader that have not just minted the same number. -/
def Distinct (leader : NodeId) (p q : NodeId × Thread) : Prop :=
  p.1 = leader → q.1 = leader → ∀ n, pending? p.2.trace = some n → pending? q.2.trace ≠ some n

theorem Distinct.symm {leader : NodeId} {p q : NodeId × Thread} (distinct : Distinct leader p q) :
    Distinct leader q p :=
  fun at_q at_p n minted_q minted_p => distinct at_p at_q n minted_p minted_q

section Threads

variable {κ : Type} {leader id : NodeId} {lead lead' : Desk κ} {t : Thread}

/-- What holds of a thread is kept while the leader goes on, if its number stays free. -/
theorem Thread.Honest.keep (honest : t.Honest leader id lead)
    (grown : ∀ k order, lead.node.storage.log.get? k = some order →
      lead'.node.storage.log.get? k = some order)
    (minted : id = leader → ∀ n, pending? t.trace = some n →
      n < lead'.node.counter.next ∧ lead'.node.storage.log.get? n = none) :
    t.Honest leader id lead' where
  proper := honest.proper
  buys := honest.buys
  mentions order known := grown _ _ (honest.mentions order known)
  written order member := grown _ _ (honest.written order member)
  minted := minted
  lucky := honest.lucky

theorem honest_start (operation : Operation) (buys : operation.isBuy = true → id = leader)
    (given : ∀ order, operation.order? = some order → lead.node.storage.log.Holds order) :
    (Thread.start operation).Honest leader id lead where
  proper := proper_start operation
  buys := buys
  mentions order known := by
    rcases known with known | ⟨e, member, _⟩
    · exact given order known
    · cases member
  written order member := by cases member
  minted _ n now := by cases now
  lucky _ order member := by cases member

/-- What an action reads is held. -/
theorem holds_of_read [Catalog κ] {action : Action} {d : Desk κ}
    (keyed : d.node.storage.log.Keyed) {order : Order}
    (read : order ∈ Event.orders (.did action (action.perform d).1)) :
    d.node.storage.log.Holds order := by
  cases action with
  | after n =>
    cases outage : d.node.storage.outage .after with
    | some cause =>
      simp only [Action.perform, Storage.read, outage] at read
      cases read
    | none =>
      simp only [Action.perform, Storage.read, outage] at read
      exact (keyed.mem_after.mp read).2
  | _ => cases read

/-- What a buy of the leader that has just minted a number writes is new. -/
theorem lucky_perform [Catalog κ] {operation : Operation} {trace : List Event} {action : Action}
    {next : action.Answer → Work Outcome} {d : Desk κ}
    (allowed : Allowed operation trace action next) (buys : operation.isBuy = true)
    (free : ∀ n, pending? trace = some n → d.node.storage.log.get? n = none) (order : Order) :
    Event.did action (action.perform d).1 ≠ .did (.insert order) (.ok false) := by
  intro eq
  cases action with
  | insert o =>
    simp only [Allowed, buys, if_true] at allowed
    have fresh := free o.number allowed
    cases outage : d.node.storage.outage .insert with
    | some cause =>
      simp only [Action.perform, Storage.write_of_outage outage] at eq
      cases eq
    | none =>
      simp only [Action.perform, Storage.write_of_works outage, OrderLog.insert_fst, fresh] at eq
      cases eq
  | _ => cases eq

/-- What holds of a thread is kept by an action of its own. -/
theorem Thread.Honest.act [Catalog κ] {operation : Operation} {trace : List Event}
    {action : Action} {next : action.Answer → Work Outcome} {d : Desk κ}
    (honest : Thread.Honest leader id lead ⟨operation, trace, .act action next⟩)
    (here : id = leader → lead = d ∧ lead' = (action.perform d).2)
    (ahead : lead.node.Ahead) (keyed : d.node.storage.log.Keyed)
    (grown : ∀ k order, lead.node.storage.log.get? k = some order →
      lead'.node.storage.log.get? k = some order)
    (within : ∀ k order, d.node.storage.log.get? k = some order →
      lead.node.storage.log.get? k = some order)
    (within' : ∀ k order, (action.perform d).2.node.storage.log.get? k = some order →
      lead'.node.storage.log.get? k = some order) :
    Thread.Honest leader id lead'
      ⟨operation, trace ++ [.did action (action.perform d).1], next (action.perform d).1⟩ where
  proper := honest.proper.2 _
  buys := honest.buys
  mentions order known := by
    rcases mentions_append known with before | read
    · exact grown _ _ (honest.mentions order before)
    · exact grown _ _ (within _ _ (holds_of_read keyed read))
  written order member := by
    rw [written_append, List.mem_append, Option.mem_toList] at member
    rcases member with old | now
    · exact grown _ _ (honest.written order old)
    · exact within' _ _ (held_of_written now).2
  minted at_leader n now := by
    obtain ⟨rfl, rfl⟩ := here at_leader
    rw [pending?_append] at now
    cases action with
    | mint => exact ⟨Counter.lt_mint now, Service.BuyEnd.free_of_ahead ahead now⟩
    | _ => cases now
  lucky buys order member := by
    rcases List.mem_append.mp member with old | now
    · exact honest.lucky buys order old
    · refine lucky_perform honest.proper.1 buys (fun n minted => ?_) order
        (List.mem_singleton.mp now).symm
      obtain ⟨rfl, _⟩ := here (honest.buys buys)
      exact (honest.minted (honest.buys buys) n minted).2

/-- What holds of a thread is kept when one of its calls ends. -/
theorem Thread.Honest.land {operation : Operation} {trace : List Event} {rest rest' : Work Outcome}
    {member : Member} {verdict : Verdict}
    (honest : Thread.Honest leader id lead ⟨operation, trace, rest⟩)
    (proper : Thread.Proper ⟨operation, trace ++ [.landed member verdict], rest'⟩)
    (sent : ∀ order ∈ verdict.orders, lead.node.storage.log.Holds order) :
    Thread.Honest leader id lead ⟨operation, trace ++ [.landed member verdict], rest'⟩ where
  proper := proper
  buys := honest.buys
  mentions order known := by
    rcases mentions_append known with before | landed
    · exact honest.mentions order before
    · exact sent order landed
  written order member := by
    rw [written_landed] at member
    exact honest.written order member
  minted _ n now := by
    rw [pending?_append] at now
    cases now
  lucky buys order member := by
    rcases List.mem_append.mp member with old | now
    · exact honest.lucky buys order old
    · cases List.mem_singleton.mp now

end Threads

/-! ## What holds of the cluster -/

namespace Cluster

variable {κ : Type} {leader : NodeId} {c : Cluster κ}

/-- What holds of a cluster at any time: the leader holds all that is held, pushed or answered
anywhere. -/
structure Faithful (leader : NodeId) (c : Cluster κ) : Prop where
  keyed : ∀ id, (c.log id).Keyed
  lasting : ∀ id, (c.log id).isLasting = true
  within : ∀ id k order, (c.log id).get? k = some order → (c.log leader).get? k = some order
  ahead : (c.desks leader).node.Ahead
  honest : ∀ p ∈ c.threads, p.2.Honest leader p.1 (c.desks leader)
  distinct : c.threads.Pairwise (Distinct leader)
  pushed : ∀ p ∈ c.pushed, (c.log leader).Holds p.2.order
  answered : ∀ p ∈ c.answered, ∀ order ∈ p.2.2, (c.log leader).Holds order

theorem put_self (c : Cluster κ) (id : NodeId) (d : Desk κ) : c.put id d id = d := if_pos rfl

theorem put_of_ne (c : Cluster κ) {id other : NodeId} (ne : other ≠ id) (d : Desk κ) :
    c.put id d other = c.desks other := if_neg ne

theorem put_same (c : Cluster κ) (id : NodeId) : c.put id (c.desks id) = c.desks := by
  funext other
  unfold put
  split
  · rename_i eq
    rw [eq]
  · rfl

/-- What holds of a changed desk and of all others before holds of all afterwards. -/
theorem forall_put {P : Desk κ → Prop} {id : NodeId} {d : Desk κ} (changed : P d)
    (others : ∀ other, P (c.desks other)) (other : NodeId) : P (c.put id d other) := by
  unfold put
  split
  · exact changed
  · exact others other

/-- An operation that begins knows only of what the leader holds. -/
theorem Faithful.start (faithful : c.Faithful leader) {id : NodeId} {operation : Operation}
    (buys : operation.isBuy = true → id = leader)
    (given : ∀ order, operation.order? = some order → (c.log leader).Holds order) :
    Faithful leader { c with threads := c.threads ++ [(id, .start operation)] } := by
  refine { faithful with honest := fun p member => ?_, distinct := ?_ }
  · rcases List.mem_append.mp member with old | new
    · exact faithful.honest p old
    · rw [List.mem_singleton.mp new]
      exact honest_start operation buys given
  · rw [List.pairwise_append]
    refine ⟨faithful.distinct, List.pairwise_singleton _ _, fun p _ q new => ?_⟩
    rw [List.mem_singleton.mp new]
    intro _ _ n _ minted
    cases minted

/-- The order of a push that makes its calls is held by the leader. -/
theorem Faithful.holds_calling (faithful : c.Faithful leader) {id : NodeId} {t : Thread}
    {f : FanOut} {waiting : List Member} {ended : List Ended} (owner : (id, t) ∈ c.threads)
    (calling : t.rest = .done (.calling (.push f) waiting ended)) :
    (c.log leader).Holds f.order := by
  have honest := faithful.honest _ owner
  have proper := honest.proper
  unfold Thread.Proper at proper
  rw [calling] at proper
  exact honest.mentions f.order (Or.inl (proper.2.2 f.order rfl))

theorem Faithful.holds_served (faithful : c.Faithful leader) {id : NodeId} {t : Thread}
    {response : FetchResponse} (owner : (id, t) ∈ c.threads)
    (served : t.rest = .done (.fetched (.ok response))) :
    ∀ order ∈ response.orders, (c.log leader).Holds order := by
  have honest := faithful.honest _ owner
  have proper := honest.proper
  unfold Thread.Proper at proper
  rw [served] at proper
  exact fun order among => honest.mentions order (proper order among)

/-- What a fetch that ended brought is held by the leader. -/
theorem Faithful.holds_landed (faithful : c.Faithful leader) {member : Member} {errand : Errand}
    {verdict : Verdict} (landed : c.lands member errand verdict) :
    ∀ order ∈ verdict.orders, (c.log leader).Holds order := by
  intro order among
  cases verdict with
  | sent orders =>
    cases errand with
    | fetch request => exact faithful.answered _ landed order among
    | accept request => cases landed
  | _ => cases among

theorem log_put {id : NodeId} {d : Desk κ} (log : d.node.storage.log = c.log id)
    (other : NodeId) : (c.put id d other).node.storage.log = c.log other := by
  unfold put
  split
  · rename_i eq
    rw [eq]
    exact log
  · rfl

/-- Nodes that change while their logs are kept, and operations that are forgotten. -/
theorem Faithful.settle (faithful : c.Faithful leader) {desks : NodeId → Desk κ}
    {threads : List (NodeId × Thread)}
    (logs : ∀ id, (desks id).node.storage.log = c.log id) (fewer : threads.Sublist c.threads)
    (ahead : (desks leader).node.Ahead)
    (minted : ∀ p ∈ threads, p.1 = leader →
      (desks leader).node.counter = (c.desks leader).node.counter) :
    Faithful leader { c with desks := desks, threads := threads } where
  keyed id := by
    rw [log, logs]
    exact faithful.keyed id
  lasting id := by
    rw [log, logs]
    exact faithful.lasting id
  within id k order found := by
    rw [log, logs] at found ⊢
    exact faithful.within id k order found
  ahead := ahead
  honest p member := by
    have honest := faithful.honest p (fewer.subset member)
    refine honest.keep (fun k order found => ?_) fun here n now => ?_
    · rw [logs]
      exact found
    · rw [logs, minted p member here]
      exact honest.minted here n now
  distinct := faithful.distinct.sublist fewer
  pushed p member := by
    rw [log, logs]
    exact faithful.pushed p member
  answered p member order among := by
    rw [log, logs]
    exact faithful.answered p member order among

section Moves

variable [Catalog κ] {id : NodeId} {t t' : Thread} {front back : List (NodeId × Thread)}

omit [Catalog κ] in
/-- A thread that goes on without touching its node. -/
theorem Faithful.replace (faithful : c.Faithful leader)
    (among : c.threads = front ++ (id, t) :: back) (honest : t'.Honest leader id (c.desks leader))
    (same : ∀ n, pending? t'.trace = some n → pending? t.trace = some n) :
    Faithful leader { c with threads := front ++ (id, t') :: back } := by
  have distinct := faithful.distinct
  rw [among] at distinct
  obtain ⟨apart, others⟩ := List.pairwise_cons.mp ((List.pairwise_middle Distinct.symm).mp distinct)
  refine { faithful with honest := fun p member => ?_, distinct := ?_ }
  · rcases List.mem_append.mp member with left | right
    · refine faithful.honest p ?_
      rw [among]
      exact List.mem_append_left _ left
    · rcases List.mem_cons.mp right with rfl | right
      · exact honest
      · refine faithful.honest p ?_
        rw [among]
        exact List.mem_append_right _ (List.mem_cons_of_mem _ right)
  · refine (List.pairwise_middle Distinct.symm).mpr (List.pairwise_cons.mpr ⟨?_, others⟩)
    intro q member at_leader at_leader' n now
    exact apart q member at_leader at_leader' n (same n now)

/-- An action at some node loses nothing that the leader holds. -/
theorem grown_put (c : Cluster κ) (leader id : NodeId) (action : Action) {k : OrderNumber}
    {order : Order} (found : (c.log leader).get? k = some order) :
    (c.put id (action.perform (c.desks id)).2 leader).node.storage.log.get? k = some order := by
  unfold put
  split
  · rename_i eq
    rw [← eq]
    exact action.get?_perform found
  · exact found

theorem next_le_put (c : Cluster κ) (leader id : NodeId) (action : Action) :
    (c.desks leader).node.counter.next ≤
      (c.put id (action.perform (c.desks id)).2 leader).node.counter.next := by
  unfold put
  split
  · rename_i eq
    rw [← eq]
    exact action.next_le_perform _
  · exact Int64.le_refl _

section Acts

variable {operation : Operation} {trace : List Event} {action : Action}
  {next : action.Answer → Work Outcome}

/-- What the leader holds after an action was held before, or stands under the number that a buy of
the leader has just minted. -/
theorem held_put
    (honest : Thread.Honest leader id (c.desks leader) ⟨operation, trace, .act action next⟩)
    {k : OrderNumber} {order : Order}
    (found : (c.put id (action.perform (c.desks id)).2 leader).node.storage.log.get? k =
      some order) :
    (c.log leader).get? k = some order ∨ id = leader ∧ pending? trace = some k := by
  by_cases here : leader = id
  · rw [here, put_self] at found
    rcases Allowed.written honest.proper.1 found with old | ⟨number, ⟨_, minted⟩ | ⟨_, known, _⟩⟩
    · rw [here]
      exact Or.inl old
    · exact Or.inr ⟨here.symm, minted⟩
    · have held := honest.mentions order known
      rw [OrderLog.Holds, number] at held
      exact Or.inl held
  · rw [put_of_ne c here] at found
    exact Or.inl found

/-- After an action too, the leader holds all that is held anywhere. -/
theorem Faithful.within_put (faithful : c.Faithful leader)
    (honest : Thread.Honest leader id (c.desks leader) ⟨operation, trace, .act action next⟩)
    (other : NodeId) {k : OrderNumber} {order : Order}
    (found : (c.put id (action.perform (c.desks id)).2 other).node.storage.log.get? k =
      some order) :
    (c.put id (action.perform (c.desks id)).2 leader).node.storage.log.get? k = some order := by
  by_cases here : other = id
  · rw [here] at found
    have written := found
    rw [put_self] at written
    rcases Allowed.written honest.proper.1 written with old | ⟨number, ⟨buys, _⟩ | ⟨_, known, _⟩⟩
    · exact grown_put c leader id action (faithful.within id k order old)
    · rw [← honest.buys buys]
      exact found
    · have held := honest.mentions order known
      rw [OrderLog.Holds, number] at held
      exact grown_put c leader id action held
  · rw [put_of_ne c here] at found
    exact grown_put c leader id action (faithful.within other k order found)

theorem Faithful.ahead_put (faithful : c.Faithful leader)
    (honest : Thread.Honest leader id (c.desks leader) ⟨operation, trace, .act action next⟩) :
    (c.put id (action.perform (c.desks id)).2 leader).node.Ahead := by
  intro k order found
  rcases held_put honest found with old | ⟨here, minted⟩
  · exact (faithful.ahead k order old).mono (next_le_put c leader id action)
  · exact Counter.Clears.mono (Or.inl (honest.minted here k minted).1)
      (next_le_put c leader id action)

/-- What holds of the other threads is kept by an action. -/
theorem keep_put
    (honest : Thread.Honest leader id (c.desks leader) ⟨operation, trace, .act action next⟩)
    {q : NodeId × Thread} (other : q.2.Honest leader q.1 (c.desks leader))
    (apart : Distinct leader (id, ⟨operation, trace, .act action next⟩) q) :
    q.2.Honest leader q.1 (c.put id (action.perform (c.desks id)).2 leader) := by
  refine other.keep (fun _ _ found => grown_put c leader id action found) fun here n minted => ?_
  obtain ⟨below, free⟩ := other.minted here n minted
  refine ⟨Int64.lt_of_lt_of_le below (next_le_put c leader id action), ?_⟩
  cases found : (c.put id (action.perform (c.desks id)).2 leader).node.storage.log.get? n with
  | none => rfl
  | some order =>
    rcases held_put honest found with old | ⟨at_leader, taken⟩
    · rw [log, free] at old
      cases old
    · exact absurd minted (apart at_leader here n taken)

/-- A number that is minted now was not minted by a thread that has not used it yet. -/
theorem distinct_put {q : NodeId × Thread} (other : q.2.Honest leader q.1 (c.desks leader)) :
    Distinct leader (id, ⟨operation, trace ++ [.did action (action.perform (c.desks id)).1],
      next (action.perform (c.desks id)).1⟩) q := by
  intro here at_leader n now minted
  rw [pending?_append] at now
  cases action with
  | mint =>
    have at_counter := (Counter.mint_eq_some now).1
    have below := (other.minted at_leader n minted).1
    rw [← show id = leader from here, at_counter] at below
    exact Int64.lt_irrefl below
  | _ => cases now

/-- An action of a thread at its node. -/
theorem Faithful.act (faithful : c.Faithful leader)
    (among : c.threads = front ++ (id, ⟨operation, trace, .act action next⟩) :: back) :
    Faithful leader
      { c with
        desks := c.put id (action.perform (c.desks id)).2
        threads := front ++ (id, ⟨operation, trace ++ [.did action (action.perform (c.desks id)).1],
          next (action.perform (c.desks id)).1⟩) :: back } := by
  have distinct := faithful.distinct
  rw [among] at distinct
  obtain ⟨apart, others⟩ := List.pairwise_cons.mp ((List.pairwise_middle Distinct.symm).mp distinct)
  have honest : Thread.Honest leader id (c.desks leader)
      ⟨operation, trace, .act action next⟩ := by
    refine faithful.honest (id, _) ?_
    rw [among]
    exact List.mem_append_right _ List.mem_cons_self
  have honest_other : ∀ q ∈ front ++ back, q.2.Honest leader q.1 (c.desks leader) := by
    intro q member
    refine faithful.honest q ?_
    rw [among]
    rcases List.mem_append.mp member with left | right
    · exact List.mem_append_left _ left
    · exact List.mem_append_right _ (List.mem_cons_of_mem _ right)
  have kept : ∀ q ∈ front ++ back, q.2.Honest leader q.1
      (c.put id (action.perform (c.desks id)).2 leader) :=
    fun q member => keep_put honest (honest_other q member) (apart q member)
  have mine : Thread.Honest leader id (c.put id (action.perform (c.desks id)).2 leader)
      ⟨operation, trace ++ [.did action (action.perform (c.desks id)).1],
        next (action.perform (c.desks id)).1⟩ := by
    refine honest.act (fun here => ?_) faithful.ahead (faithful.keyed id)
      (fun k order found => grown_put c leader id action found)
      (fun k order found => faithful.within id k order found) fun k order found => ?_
    · rw [← here, put_self]
      exact ⟨rfl, rfl⟩
    · refine faithful.within_put honest id ?_
      rw [put_self]
      exact found
  constructor
  · exact forall_put (P := fun d => d.node.storage.log.Keyed)
      (action.keyed_perform (faithful.keyed id)) faithful.keyed
  · exact forall_put (P := fun d => d.node.storage.log.isLasting = true)
      (action.lasting_perform (faithful.lasting id)) faithful.lasting
  · exact fun other k order found => faithful.within_put honest other found
  · exact faithful.ahead_put honest
  · intro q member
    rcases List.mem_append.mp member with left | right
    · exact kept q (List.mem_append_left _ left)
    · rcases List.mem_cons.mp right with rfl | right
      · exact mine
      · exact kept q (List.mem_append_right _ right)
  · refine (List.pairwise_middle Distinct.symm).mpr (List.pairwise_cons.mpr ⟨?_, others⟩)
    exact fun q member => distinct_put (honest_other q member)
  · exact fun p member => grown_put c leader id action (faithful.pushed p member)
  · exact fun p member order held =>
      grown_put c leader id action (faithful.answered p member order held)

end Acts

theorem Faithful.move (faithful : c.Faithful leader) {d' : Desk κ}
    (among : c.threads = front ++ (id, t) :: back) (step : t.Step c.lands (c.desks id) d' t') :
    Faithful leader { c with desks := c.put id d', threads := front ++ (id, t') :: back } := by
  have honest : t.Honest leader id (c.desks leader) := by
    refine faithful.honest (id, t) ?_
    rw [among]
    exact List.mem_append_right _ List.mem_cons_self
  have proper := step.proper honest.proper
  generalize desk : c.desks id = d at step
  cases step with
  | act operation trace action next =>
    subst desk
    exact faithful.act among
  | land operation trace purpose waiting ended called allowed =>
    rw [← desk, put_same]
    have honest_after := honest.land proper (faithful.holds_landed allowed)
    refine faithful.replace among honest_after fun n now => ?_
    rw [pending?_append] at now
    cases now
  | conclude operation trace purpose ended =>
    rw [← desk, put_same]
    refine faithful.replace among { honest with proper := proper } fun n now => now

end Moves

/-! ## What is true at any time -/

variable [Catalog κ]

theorem Step.faithful {c' : Cluster κ} (step : Step leader c c') (faithful : c.Faithful leader) :
    c'.Faithful leader := by
  cases step with
  | begin id operation allowed =>
    refine faithful.start (fun buys => ?_) fun order given => ?_
    · cases operation with
      | buy strict request => exact allowed
      | _ => cases buys
    · cases operation with
      | accept | push => cases allowed
      | _ => cases given
  | push owner placed =>
    have honest := faithful.honest _ owner
    refine faithful.start (fun buys => by cases buys) fun order given => ?_
    cases given
    obtain ⟨_, wrote, _⟩ := closing_of_placed honest.proper placed
    exact honest.written _ (by rw [wrote]; exact List.mem_cons_self)
  | send owner calling called =>
    refine { faithful with pushed := fun p member => ?_ }
    rcases List.mem_append.mp member with old | new
    · exact faithful.pushed p old
    · rw [List.mem_singleton.mp new]
      exact faithful.holds_calling owner calling
  | deliver sent =>
    refine faithful.start (fun buys => by cases buys) fun order given => ?_
    cases given
    exact faithful.pushed _ sent
  | answer owner asked served =>
    refine { faithful with answered := fun p member => ?_ }
    rcases List.mem_append.mp member with old | new
    · exact faithful.answered p old
    · rw [List.mem_singleton.mp new]
      exact faithful.holds_served owner served
  | move among step => exact faithful.move among step
  | @restart id d outage registry opened =>
    obtain ⟨kept, ahead⟩ := Service.ahead_openNode opened
    have log : d.node.storage.log = c.log id := by
      rw [kept]
      exact OrderLog.reopen_of_lasting (faithful.lasting id)
    refine faithful.settle (log_put log) List.filter_sublist ?_ fun p member here => ?_
    · unfold put
      split
      · exact ahead
      · exact faithful.ahead
    · have elsewhere : p.1 ≠ id := by simpa using (List.mem_filter.mp member).2
      rw [here] at elsewhere
      rw [put_of_ne c elsewhere]
  | disturb id outage catalog =>
    refine faithful.settle (log_put rfl) (List.Sublist.refl _) ?_ fun p _ _ => ?_
    · unfold put
      split
      · rename_i eq
        exact eq ▸ faithful.ahead
      · exact faithful.ahead
    · unfold put
      split
      · rename_i eq
        rw [eq]
      · rfl

omit [Catalog κ] in
theorem Fresh.faithful (fresh : c.Fresh) : c.Faithful leader := by
  have empty : ∀ id, ∃ connections, c.log id = .table { medium := .onFile connections } := by
    intro id
    obtain ⟨connections, outage, registry, opened⟩ := fresh.opened id
    refine ⟨connections, ?_⟩
    rw [log, (Service.ahead_openNode opened).1]
  constructor
  · intro id
    obtain ⟨connections, eq⟩ := empty id
    rw [eq]
    exact .nil
  · intro id
    obtain ⟨connections, eq⟩ := empty id
    rw [eq]
    rfl
  · intro id k order found
    obtain ⟨connections, eq⟩ := empty id
    rw [eq] at found
    cases found
  · obtain ⟨connections, outage, registry, opened⟩ := fresh.opened leader
    exact (Service.ahead_openNode opened).2
  · intro p member
    rw [fresh.idle] at member
    cases member
  · rw [fresh.idle]
    exact .nil
  · intro p member
    rw [fresh.unpushed] at member
    cases member
  · intro p member
    rw [fresh.unanswered] at member
    cases member

theorem Reachable.faithful (reached : Reachable leader c) : c.Faithful leader := by
  induction reached with
  | fresh fresh => exact fresh.faithful
  | step _ step ih => exact step.faithful ih

/-- What is true of a cluster in which all buys go to one node. -/
structure Agreed (leader : NodeId) (c : Cluster κ) : Prop where
  /-- Every record of any log is in the log of the leader. -/
  within : ∀ id k order, (c.log id).get? k = some order → (c.log leader).get? k = some order
  /-- No two nodes hold different records under one number. -/
  agree : ∀ i j k a b, (c.log i).get? k = some a → (c.log j).get? k = some b → a = b
  /-- No sync reports a conflict. -/
  smooth : ∀ p ∈ c.threads, ∀ report, p.2.rest = .done (.synced (.ok report)) →
    report.conflicts = 0
  /-- No buy finds its number taken. -/
  lucky : ∀ p ∈ c.threads, p.2.operation.isBuy = true →
    ∀ order, .did (.insert order) (.ok false) ∉ p.2.trace
  /-- No buy fails because its number is taken; only the failing log itself could say so. -/
  no_clash : ∀ p ∈ c.threads, ∀ n,
    p.2.rest = .done (.bought (.refused (.internal (Service.clash n)))) →
      ∃ order, .did (.insert order) (.error (Service.clash n)) ∈ p.2.trace

omit [Catalog κ] in
/-- A sync that concludes has met only records of the leader. -/
theorem Faithful.smooth (faithful : c.Faithful leader) {p : NodeId × Thread}
    (member : p ∈ c.threads) {report : SyncReport}
    (ended : p.2.rest = .done (.synced (.ok report))) : report.conflicts = 0 := by
  have honest := faithful.honest p member
  have closing := honest.proper
  unfold Thread.Proper at closing
  rw [ended] at closing
  rcases closing with none_met | counted
  · exact none_met
  · rw [counted]
    refine @conflicts_merge (fun n => (c.log leader).get? n) _ fun answer among order sent => ?_
    obtain ⟨e, happened, landed⟩ := List.mem_filterMap.mp (Sync.mem_answers among)
    obtain ⟨peer, orders⟩ := answer
    cases e with
    | did action result => cases landed
    | landed called verdict =>
      cases landed
      exact honest.mentions order (Or.inr ⟨_, happened, sent⟩)

/-- Where all buys go to one node, whatever happens to the messages and to the nodes: all records
are the leader's, so nobody differs, no sync meets a conflict and no number is taken. -/
theorem agreed_of_reachable (reached : Reachable leader c) : c.Agreed leader := by
  have faithful : c.Faithful leader := reached.faithful
  have lucky : ∀ p ∈ c.threads, p.2.operation.isBuy = true →
      ∀ order, .did (.insert order) (.ok false) ∉ p.2.trace :=
    fun p member buys => (faithful.honest p member).lucky buys
  constructor
  · exact faithful.within
  · intro i j k a b found_a found_b
    have held_a := faithful.within i k a found_a
    have held_b := faithful.within j k b found_b
    rw [held_a] at held_b
    exact Option.some.inj held_b
  · exact fun p member report ended => faithful.smooth member ended
  · exact lucky
  · intro p member n ended
    have closing := (faithful.honest p member).proper
    unfold Thread.Proper at closing
    rw [ended] at closing
    obtain ⟨order, refused | failed⟩ := closing.2.2.2 n rfl
    · exact absurd refused (lucky p member closing.1 order)
    · exact ⟨order, failed⟩

/-! ## An order that is pushed -/

/-- Lets the thread at a position do its next action. -/
def act (c : Cluster κ) (i : Nat) : Cluster κ :=
  match c.threads[i]? with
  | some (id, ⟨operation, trace, .act action next⟩) =>
    { c with
      desks := c.put id (action.perform (c.desks id)).2
      threads := c.threads.set i
        (id, ⟨operation, trace ++ [.did action (action.perform (c.desks id)).1],
          next (action.perform (c.desks id)).1⟩) }
  | _ => c

theorem reachable_act (reached : Reachable leader c) (i : Nat) : Reachable leader (c.act i) := by
  unfold act
  split
  · rename_i id operation trace action next found
    obtain ⟨inside, eq⟩ := List.getElem?_eq_some_iff.mp found
    have split_at : c.threads = c.threads.take i ++
        (id, ⟨operation, trace, .act action next⟩) :: c.threads.drop (i + 1) := by
      rw [← eq, List.getElem_cons_drop, List.take_append_drop]
    refine reached.step ?_
    rw [List.set_eq_take_append_cons_drop, if_pos inside]
    exact .move c split_at (.act _ operation trace action next)
  · exact reached

theorem reachable_foldl (reached : Reachable leader c) (schedule : List Nat) :
    Reachable leader (schedule.foldl act c) := by
  induction schedule generalizing c with
  | nil => exact reached
  | cons i rest ih => exact ih (reachable_act reached i)

/-- A node that has not done anything yet, in a cluster of two. -/
def newcomer (id : NodeId) : Desk OverriddenCatalog where
  node :=
    { storage := { log := .table { medium := .onFile 1 } }
      counter := .startingAbove 0
      registry := .ofMembers id [{ id := 1, address := ⟨"one", 1700⟩ },
        { id := 2, address := ⟨"two", 1700⟩ }] }
  catalog := { stock := {}, onTake := some (.ok .applied) }

/-- The first node has placed an order. -/
def bought : Cluster OverriddenCatalog :=
  [0, 0, 0, 0, 0, 0].foldl act
    ⟨newcomer, [(1, .start (.buy false ⟨"apple", 2⟩))], [], []⟩

/-- The order is about to be pushed to the second node. -/
def pushing : Cluster OverriddenCatalog :=
  act { bought with threads := bought.threads ++ [(1, .start (.push ⟨1, "apple", 2⟩))] } 1

/-- The second node has stored the order. -/
def replicated : Cluster OverriddenCatalog :=
  [2, 2, 2, 2].foldl act
    { pushing with
      threads := pushing.threads ++ [(2, .start (.accept ⟨⟨1, "apple", 2⟩, 1⟩))]
      pushed := [(2, ⟨⟨1, "apple", 2⟩, 1⟩)] }

theorem agreed_replicated :
    Reachable 1 replicated ∧ (replicated.log 2).get? 1 = some ⟨1, "apple", 2⟩ ∧
      Agreed 1 replicated := by
  have fresh : Fresh (⟨newcomer, [], [], []⟩ : Cluster OverriddenCatalog) :=
    ⟨fun id => ⟨1, fun _ => none, _, rfl⟩, rfl, rfl, rfl⟩
  have placed : Reachable 1 bought :=
    reachable_foldl ((Reachable.fresh fresh).step (.begin _ 1 (.buy false ⟨"apple", 2⟩) rfl)) _
  have called : Reachable 1 pushing :=
    reachable_act (placed.step (.push _ (.head _) rfl)) 1
  have reached : Reachable 1 replicated := by
    refine reachable_foldl ?_ _
    refine (called.step (.send _ (.tail _ (.head _)) rfl (.head _))).step (.deliver _ (.head _))
  exact ⟨reached, by decide +kernel, agreed_of_reachable reached⟩

end Cluster

end OrderCluster.Interleaving
