import OrderCluster.Proofs.Coordinator.Routing

/-!
# Failover

Some nodes of a cluster are live and the others are dead: calls reach those that are live, and no
call reaches those that are dead. Whoever is believed to lead, a request then comes to a live node
if there is one. It calls at most twice: the believed leader, and if that one is dead the live node
with the highest id, which the election finds because the walk descends.
-/

namespace OrderCluster.Coordinator

open Program (Path)

/-- What one exchange looks like when some nodes are live and the others are dead. -/
structure Fair (live : NodeId → Prop) (x : Exchange Question) : Prop where
  /-- A call to a live node reaches it. -/
  reached : live x.action.member.id → ¬ IsLost x
  /-- A live node answers health checks. -/
  healthy : live x.action.member.id → x.action.method = .health →
    ∃ response, x.answer = .ok response
  /-- A call to a dead node is lost. -/
  lost : ¬ live x.action.member.id → IsLost x

theorem fair_of_answered {live : NodeId → Prop} {x : Exchange Question}
    {response : x.action.method.Response} (answered : x.answer = .ok response) :
    Fair live x ↔ live x.action.member.id := by
  have kept : ¬ IsLost x := by
    rintro ⟨error, lost, _⟩
    cases answered.symm.trans lost
  constructor
  · intro fair
    by_contra dead
    exact kept (fair.lost dead)
  · exact fun alive => ⟨fun _ => kept, fun _ _ => ⟨response, answered⟩, fun dead => absurd alive dead⟩

theorem fair_of_failed {live : NodeId → Prop} {x : Exchange Question} {error : PeerError}
    (failed : x.answer = .error error) :
    Fair live x ↔ if error.isTransport then ¬ live x.action.member.id
      else live x.action.member.id ∧ x.action.method ≠ .health := by
  have no_answer : ¬ ∃ response, x.answer = .ok response := by
    rintro ⟨response, answered⟩
    cases failed.symm.trans answered
  split
  · rename_i transport
    have lost : IsLost x := ⟨error, failed, transport⟩
    constructor
    · exact fun fair alive => fair.reached alive lost
    · exact fun dead => ⟨fun alive => absurd alive dead, fun alive => absurd alive dead, fun _ => lost⟩
  · rename_i reached
    have kept : ¬ IsLost x := by
      rintro ⟨other, failed_too, transport⟩
      cases failed.symm.trans failed_too
      exact reached transport
    constructor
    · intro fair
      have alive : live x.action.member.id := by
        by_contra dead
        exact kept (fair.lost dead)
      exact ⟨alive, fun health => no_answer (fair.healthy alive health)⟩
    · rintro ⟨alive, other⟩
      exact ⟨fun _ => kept, fun _ health => absurd health other, fun dead => absurd alive dead⟩

instance {live : NodeId → Prop} [DecidablePred live] : DecidablePred (Fair live) := fun x =>
  match answered : (x.answer : Except PeerError x.action.method.Response) with
  | .ok _ => decidable_of_iff _ (fair_of_answered answered).symm
  | .error _ => decidable_of_iff _ (fair_of_failed answered).symm

section Elections

variable {c c' : Coordinator} {live : NodeId → Prop} {m : Member} {x : Exchange Question}

/-- A node that did not answer its health check is dead. -/
theorem Missed.dead (missed : c.Missed m x) (fair : Fair live x) : ¬ live m.id := by
  obtain ⟨error, rfl⟩ := missed
  intro alive
  obtain ⟨response, answered⟩ := fair.healthy alive rfl
  cases answered

/-- A node that answered its health check is live. -/
theorem live_of_answered {response : HealthResponse} (fair : Fair live ⟨c.probe m, .ok response⟩) :
    live m.id := by
  by_contra dead
  obtain ⟨error, answered, _⟩ := fair.lost dead
  cases answered

/-- Nodes that were checked in vain are all dead. -/
theorem dead_of_missed {nodes : List Member} {checks : List (Exchange Question)}
    (missed : List.Forall₂ c.Missed nodes checks) (fair : ∀ x ∈ checks, Fair live x) :
    ∀ m ∈ nodes, ¬ live m.id := by
  induction missed with
  | nil => exact fun m none_left => by cases none_left
  | cons now later ih =>
    intro m member
    rcases List.mem_cons.mp member with rfl | among
    · exact now.dead (fair _ List.mem_cons_self)
    · exact ih (fun x before => fair x (List.mem_cons_of_mem _ before)) m among

/-- The live node with the highest id. -/
structure Highest (nodes : List Member) (live : NodeId → Prop) (m : Member) : Prop where
  member : m ∈ nodes
  alive : live m.id
  above : ∀ other ∈ nodes, live other.id → other.id ≤ m.id

/-- An election names the live node with the highest id; it names nobody if all nodes are dead. -/
theorem Election.highest {exchanged : List (Exchange Question)}
    {answer : Except CoordinatorError NodeId} (election : Election c exchanged (answer, c'))
    (fair : ∀ x ∈ exchanged, Fair live x) (descending : Descending c.nodes) :
    (answer = .error .clusterUnreachable ∧ c' = { c with leader := none } ∧
      ∀ m ∈ c.nodes, ¬ live m.id) ∨
    ∃ m, Highest c.nodes live m ∧ answer = .ok m.id ∧ c' = { c with leader := some m.id } := by
  cases election with
  | nobody missed => exact Or.inl ⟨rfl, rfl, dead_of_missed missed fair⟩
  | @won above lower chosen checks notices response split missed told =>
    have dead_above := dead_of_missed missed fun x check =>
      fair x (List.mem_append_left _ check)
    have alive : live chosen.id :=
      live_of_answered (fair _ (List.mem_append_right _ List.mem_cons_self))
    rw [split] at descending
    have lower_ids := (List.pairwise_cons.mp (List.pairwise_append.mp descending).2.1).1
    refine Or.inr ⟨chosen, ⟨?_, alive, ?_⟩, rfl, rfl⟩
    · rw [split]
      exact List.mem_append_right _ List.mem_cons_self
    · intro other member other_alive
      rw [split] at member
      rcases List.mem_append.mp member with before | behind
      · exact absurd other_alive (dead_above other before)
      · rcases List.mem_cons.mp behind with rfl | among
        · exact UInt32.le_refl _
        · exact UInt32.le_of_lt (lower_ids other among)

end Elections

/-! ## A request on its own -/

section Requests

variable {c : Coordinator} {live : NodeId → Prop} {method : Method} {request : method.Request}
  {events : List Event} {ended : Except CoordinatorError method.Response × Coordinator}

/-- How a request ends that has the coordinator alone. -/
inductive Ended (c : Coordinator) (live : NodeId → Prop) (method : Method)
    (request : method.Request) :
    List Event → Except CoordinatorError method.Response × Coordinator → Prop where
  /-- The believed leader or its heir answers, after at most one call to a dead leader. -/
  | served {before : List Event} {m : Member} (member : m ∈ c.nodes) (alive : live m.id)
    (heir : c.leader = some m.id ∨
      (∀ id, c.leader = some id → ¬ live id) ∧ Highest c.nodes live m)
    (dead : ∀ x, .called x ∈ before → ¬ live x.action.member.id)
    (once : (calls before).length ≤ 1) (answer : Except PeerError method.Response) :
    Ended c live method request (before ++ [.called ⟨c.ask method request m, answer⟩])
      (answer.mapError .peer, { c with leader := some m.id })
  /-- An election finds everybody dead. -/
  | nobody {events : List Event} (dead : ∀ m ∈ c.nodes, ¬ live m.id)
    (lost : ∀ x, .called x ∈ events → ¬ live x.action.member.id)
    (once : (calls events).length ≤ 1) :
    Ended c live method request events (.error .clusterUnreachable, { c with leader := none })
  /-- The only node is believed to lead, and is dead. -/
  | lonely {events : List Event} {leader : NodeId} {error : PeerError}
    (dead : ∀ m ∈ c.nodes, ¬ live m.id)
    (lost : ∀ x, .called x ∈ events → ¬ live x.action.member.id) (believed : c.leader = some leader)
    (single : c.nodes.length ≤ 1) (once : (calls events).length ≤ 1) :
    Ended c live method request events (.error (.peer error), c)

/-- An attempt begins with a call to the leader, which changes nothing about the coordinator. -/
theorem Course.of_attempt {after : Coordinator} {m : Member} {left : Nat}
    (descending : Descending c.nodes) (member : m ∈ c.nodes)
    (course : Course (c.attempt method request left m.id) after events ended) :
    ∃ (answer : Except PeerError method.Response) (later : List Event),
      events = .called ⟨c.ask method request m, answer⟩ :: later ∧
        Course (c.afterCall method request left m.id answer) after later ended := by
  rw [attempt_eq (descending.find? member)] at course
  obtain ⟨exchanged, answer, c', later, rfl, path, rest⟩ := course.of_act
  obtain ⟨_, rfl⟩ := path_call path
  exact ⟨answer, later, rfl, rest⟩

theorem course_attempt {after : Coordinator} {m : Member} {left : Nat}
    (descending : Descending c.nodes) (member : m ∈ c.nodes) (alive : live m.id)
    (course : Course (c.attempt method request left m.id) after events ended)
    (fair : ∀ x ∈ events.flatMap Event.exchanges, Fair live x) :
    ∃ answer : Except PeerError method.Response,
      events = [.called ⟨c.ask method request m, answer⟩] ∧
        ended = (answer.mapError .peer, after) := by
  obtain ⟨answer, later, rfl, rest⟩ := course.of_attempt descending member
  have reached := (fair _ List.mem_cons_self).reached alive
  cases answer with
  | ok response =>
    obtain ⟨rfl, rfl⟩ := rest.of_done
    exact ⟨.ok response, rfl, rfl⟩
  | error e =>
    have answered : e.isTransport = false := by
      by_contra transport
      exact reached ⟨e, rfl, by simpa using transport⟩
    rw [afterCall_refused answered] at rest
    obtain ⟨rfl, rfl⟩ := rest.of_done
    exact ⟨.error e, rfl, rfl⟩

/-- After at most one call, to a believed leader that is dead, an election settles the request. -/
theorem course_election {stale : Option NodeId} {left : Nat} (before : List Event)
    (descending : Descending c.nodes) (due : c.leader = none ∨ c.leader = stale)
    (lost : ∀ id, c.leader = some id → ¬ live id)
    (dead : ∀ x, .called x ∈ before → ¬ live x.action.member.id)
    (once : (calls before).length ≤ 1)
    (course : Course (.act (.elect stale) (c.afterElection method request left)) c events ended)
    (fair : ∀ x ∈ events.flatMap Event.exchanges, Fair live x) :
    Ended c live method request (before ++ events) ended := by
  obtain ⟨exchanged, answer, c', later, rfl, path, rest⟩ := course.of_act
  have election := (path_elect path).of_due due
  rw [List.flatMap_cons] at fair
  have fair_election : ∀ x ∈ exchanged, Fair live x :=
    fun x among => fair x (List.mem_append_left _ among)
  have same : calls (before ++ [.elected stale exchanged answer]) = calls before := by
    rw [calls_snoc]
    exact List.append_nil _
  rcases election.highest fair_election descending with ⟨rfl, rfl, all_dead⟩ | ⟨m, highest, rfl, rfl⟩
  · obtain ⟨rfl, rfl⟩ := rest.of_done
    refine .nobody all_dead ?_ ?_
    · intro x called
      rcases List.mem_append.mp called with old | new
      · exact dead x old
      · cases List.mem_singleton.mp new
    change (calls (before ++ [.elected stale exchanged _])).length ≤ 1
    rw [same]
    exact once
  · obtain ⟨reply, rfl, rfl⟩ := course_attempt descending highest.member highest.alive rest
      fun x among => fair x (List.mem_append_right _ among)
    have shape : before ++ [.elected stale exchanged (.ok m.id),
        .called ⟨c.ask method request m, reply⟩] =
        (before ++ [.elected stale exchanged (.ok m.id)]) ++
          [.called ⟨c.ask method request m, reply⟩] := by simp
    change Ended c live method request (before ++ [.elected stale exchanged (.ok m.id),
        .called ⟨c.ask method request m, reply⟩]) _
    rw [shape]
    refine .served highest.member highest.alive (Or.inr ⟨lost, highest⟩) ?_ ?_ reply
    · intro x called
      rcases List.mem_append.mp called with old | new
      · exact dead x old
      · cases List.mem_singleton.mp new
    · rw [same]
      exact once

/-- In a list of at most one node all nodes are the same. -/
theorem eq_of_single {nodes : List Member} (single : nodes.length ≤ 1) {m other : Member}
    (member : m ∈ nodes) (among : other ∈ nodes) : other = m := by
  match nodes, single with
  | [only], _ => exact (List.mem_singleton.mp among).trans (List.mem_singleton.mp member).symm

/-- How a request ends that begins with a call to a believed leader that is dead. -/
theorem course_bereft {m : Member} (descending : Descending c.nodes) (member : m ∈ c.nodes)
    (believed : c.leader = some m.id) (dead : ¬ live m.id)
    (course : Course (c.attempt method request (c.nodes.length - 1) m.id) c events ended)
    (fair : ∀ x ∈ events.flatMap Event.exchanges, Fair live x) :
    Ended c live method request (.looked (some m.id) :: events) ended := by
  have lost : ∀ id, c.leader = some id → ¬ live id := by
    intro id named
    cases believed.symm.trans named
    exact dead
  obtain ⟨answer, later, rfl, after⟩ := course.of_attempt descending member
  obtain ⟨error, answered, transport⟩ := (fair _ List.mem_cons_self).lost dead
  change answer = .error error at answered
  subst answered
  rw [afterCall_lost transport] at after
  have lost_calls : ∀ x, .called x ∈ [Event.looked (some m.id),
      .called ⟨c.ask method request m, .error error⟩] → ¬ live x.action.member.id := by
    intro x called
    rcases List.mem_cons.mp called with look | call
    · cases look
    · cases List.mem_singleton.mp call
      exact dead
  cases attempts : c.nodes.length - 1 with
  | zero =>
    rw [attempts] at after
    obtain ⟨rfl, rfl⟩ := after.of_done
    have single : c.nodes.length ≤ 1 := by omega
    refine .lonely (fun other among => ?_) lost_calls believed single (Nat.le_refl 1)
    rw [eq_of_single single member among]
    exact dead
  | succ left =>
    rw [attempts] at after
    exact course_election [.looked (some m.id),
      .called ⟨c.ask method request m, .error error⟩] descending (Or.inr believed) lost
      lost_calls (Nat.le_refl 1) after fun x among => fair x (List.mem_cons_of_mem _ among)

/-- How a request ends whatever is believed when it comes. -/
theorem course_routing (descending : Descending c.nodes) (knows : c.Knows)
    (course : Course (c.routing method request) c events ended)
    (fair : ∀ x ∈ events.flatMap Event.exchanges, Fair live x) :
    Ended c live method request events ended := by
  rw [routing_eq] at course
  obtain ⟨exchanged, belief, c', later, rfl, path, rest⟩ := course.of_act
  obtain ⟨rfl, told, rfl⟩ := path_look path
  have no_calls : ∀ x, .called x ∈ [Event.looked belief] → ¬ live x.action.member.id := by
    intro x called
    cases List.mem_singleton.mp called
  cases belief with
  | none =>
    refine course_election [_] descending (Or.inl told.symm) ?_ no_calls (Nat.zero_le 1) rest fair
    intro id believed
    cases told.trans believed
  | some leader =>
    obtain ⟨m, member, rfl⟩ := knows leader told.symm
    by_cases alive : live m.id
    · obtain ⟨answer, rfl, rfl⟩ := course_attempt descending member alive rest fair
      have served : Ended c' live method request _ (_, { c' with leader := some m.id }) :=
        .served member alive (Or.inl told.symm) no_calls (Nat.zero_le 1) answer
      have same : { c' with leader := some m.id } = c' := by rw [told]
      rw [same] at served
      exact served
    · exact course_bereft descending member told.symm alive rest fair

end Requests

/-! ## Failover is complete -/

/-- What failover promises of a request at a coordinator of listed nodes. -/
structure FailsOver (listed : List Member) (live : NodeId → Prop) (c : Coordinator)
    (method : Method) (request : method.Request) (events : List Event)
    (ended : Except CoordinatorError method.Response × Coordinator) : Prop where
  /-- The answer of a live node is returned if and only if there is a live node. -/
  served : (∃ m answer, live m.id ∧ .called ⟨c.ask method request m, answer⟩ ∈ events ∧
    ended.1 = answer.mapError .peer) ↔ ∃ m ∈ listed, live m.id
  /-- The live node that is called is the believed leader if that one is live, and otherwise the
  live node with the highest id; what it answers is returned, and it is believed to lead then. -/
  heir : ∀ m answer, live m.id → .called ⟨c.ask method request m, answer⟩ ∈ events →
    m ∈ listed ∧ ended = (answer.mapError .peer, { c with leader := some m.id }) ∧
      (c.leader = some m.id ∨ (∀ id, c.leader = some id → ¬ live id) ∧
        ∀ other ∈ listed, live other.id → other.id ≤ m.id)
  /-- The request is sent at most twice. -/
  twice : (calls events).length ≤ 2
  /-- With all nodes dead the request fails. -/
  failed : (∀ m ∈ listed, ¬ live m.id) → ∃ e, ended.1 = .error e
  /-- It fails because the cluster cannot be reached, unless the only node was believed to lead. -/
  unreachable : (∀ m ∈ listed, ¬ live m.id) →
    c.leader = none ∨ 1 < (listed.map Member.id).dedup.length →
    ended = (.error .clusterUnreachable, { c with leader := none })

section Promises

variable {listed : List Member} {c : Coordinator} {live : NodeId → Prop} {method : Method}
  {request : method.Request} {events : List Event}
  {ended : Except CoordinatorError method.Response × Coordinator}

/-- What is promised where all nodes are dead. -/
theorem failsOver_of_dead (dead : ∀ m ∈ listed, ¬ live m.id)
    (lost : ∀ x, .called x ∈ events → ¬ live x.action.member.id) (once : (calls events).length ≤ 1)
    (failed : ∃ e, ended.1 = .error e)
    (unreachable : c.leader = none ∨ 1 < (listed.map Member.id).dedup.length →
      ended = (.error .clusterUnreachable, { c with leader := none })) :
    FailsOver listed live c method request events ended := by
  constructor
  · constructor
    · rintro ⟨m, answer, alive, called, _⟩
      exact absurd alive (lost _ called)
    · rintro ⟨m, member, alive⟩
      exact absurd alive (dead m member)
  · intro m answer alive called
    exact absurd alive (lost _ called)
  · omega
  · exact fun _ => failed
  · exact fun _ => unreachable

/-- What is promised can be read off the ways in which a request ends. -/
theorem Ended.failsOver (result : Ended c live method request events ended)
    (nodes : c.nodes = walk listed) : FailsOver listed live c method request events ended := by
  have listed_of_node : ∀ m ∈ c.nodes, m ∈ listed := fun m member => mem_walk (nodes ▸ member)
  have dead_of_nodes : (∀ m ∈ c.nodes, ¬ live m.id) → ∀ m ∈ listed, ¬ live m.id := by
    intro dead m member
    obtain ⟨walked, among, named⟩ := walk_covers member
    rw [← named]
    exact dead walked (nodes ▸ among)
  cases result with
  | @served before m member alive heir dead once answer =>
    have mine : ∀ other reply, live other.id → .called ⟨c.ask method request other, reply⟩ ∈
        before ++ [.called ⟨c.ask method request m, answer⟩] → other = m ∧ reply = answer := by
      intro other reply other_alive called
      rcases List.mem_append.mp called with old | new
      · exact absurd other_alive (dead _ old)
      · cases List.mem_singleton.mp new
        exact ⟨rfl, rfl⟩
    constructor
    · constructor
      · rintro ⟨other, reply, other_alive, called, _⟩
        obtain ⟨rfl, _⟩ := mine other reply other_alive called
        exact ⟨other, listed_of_node other member, other_alive⟩
      · intro _
        exact ⟨m, answer, alive, List.mem_append_right _ List.mem_cons_self, rfl⟩
    · intro other reply other_alive called
      obtain ⟨rfl, rfl⟩ := mine other reply other_alive called
      refine ⟨listed_of_node other member, rfl, heir.imp_right ?_⟩
      rintro ⟨lost, highest⟩
      refine ⟨lost, fun another among another_alive => ?_⟩
      obtain ⟨walked, node, named⟩ := walk_covers among
      rw [← named] at another_alive ⊢
      exact highest.above walked (nodes ▸ node) another_alive
    · rw [calls_snoc, List.length_append]
      change (calls before).length + 1 ≤ 2
      omega
    · intro all_dead
      exact absurd alive (all_dead m (listed_of_node m member))
    · intro all_dead
      exact absurd alive (all_dead m (listed_of_node m member))
  | nobody dead lost once =>
    exact failsOver_of_dead (dead_of_nodes dead) lost once ⟨_, rfl⟩ fun _ => rfl
  | lonely dead lost believed single once =>
    refine failsOver_of_dead (dead_of_nodes dead) lost once ⟨_, rfl⟩ ?_
    rintro (unknown | several)
    · cases unknown.symm.trans believed
    · rw [← length_walk, ← nodes] at several
      omega

end Promises

/-- Failover is complete: while each node is either live or dead, a request finds a live node if
there is one, whoever was believed to lead. -/
theorem failsOver_route {σ : Type} (perform : (q : Question) → σ → Interface.Answer q × σ) (s : σ)
    {listed : List Member} {healthDeadline rpcDeadline : Nat} {belief : Option NodeId}
    (known : ∀ id, belief = some id → ∃ m ∈ listed, m.id = id) {c : Coordinator}
    (opened : c = { ofMembers listed healthDeadline rpcDeadline with leader := belief })
    {live : NodeId → Prop} {method : Method} {request : method.Request}
    (fair : ∀ x ∈ (c.route method request).exchanges perform s, Fair live x) :
    FailsOver listed live c method request (happenings perform (c.routing method request) c s)
      ((c.route method request).run perform s).1 := by
  have nodes : c.nodes = walk listed := by rw [opened]; rfl
  have descending : Descending c.nodes := nodes ▸ descending_walk listed
  have knows : c.Knows := by
    intro id believed
    have named : belief = some id := by rw [opened] at believed; exact believed
    obtain ⟨m, member, rfl⟩ := known id named
    rw [nodes]
    exact walk_covers member
  rw [route, exchanges_serve] at fair
  have course := course_happenings perform (c.routing method request) c s
  exact (course_routing descending knows course fair).failsOver nodes

/-- Three nodes, of which the highest is dead. -/
def bereft : ScriptedPeers := ⟨[{ id := 3, manner := .down }, { id := 2 }, { id := 1 }]⟩

/-- The leader is dead; the next node takes its place and answers. -/
theorem failsOver_bereft :
    ∃ c : Coordinator, c = { ofMembers bereft.members 1000 2000 with leader := some 3 } ∧
      ((c.buy ⟨"Fox", 1⟩).run Question.perform bereft).1 =
        (.ok (.placed 1), { c with leader := some 2 }) ∧
      FailsOver bereft.members (· ≠ 3) c .buy ⟨"Fox", 1⟩
        (happenings Question.perform (c.routing .buy ⟨"Fox", 1⟩) c bereft)
        ((c.buy ⟨"Fox", 1⟩).run Question.perform bereft).1 := by
  have listed : ofMembers bereft.members 1000 2000 = ⟨bereft.members, 1000, 2000, none⟩ :=
    congrArg (Coordinator.mk · 1000 2000 none) (walk_of_descending (by decide))
  refine ⟨_, rfl, ?_, failsOver_route Question.perform bereft ?_ rfl ?_⟩
  · rw [listed]
    cbv
  · intro id named
    cases named
    exact ⟨_, List.mem_cons_self, rfl⟩
  · rw [listed]
    decide +kernel

end OrderCluster.Coordinator
