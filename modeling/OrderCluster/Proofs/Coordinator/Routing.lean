import OrderCluster.Proofs.Coordinator.Sharing
import OrderCluster.Proofs.Coordinator.Walk
import OrderCluster.Rpc.Scripted

/-!
# How a request to the leader goes

A request looks for the leader, calls it, and looks for another one as long as its calls reach
nobody and it has attempts left. However the turns of requests at one coordinator are mixed and
however the nodes behave, it goes on only while its calls are lost, it calls at most as many times
as there are nodes, and it ends with the outcome of its last call unless nobody could be elected.
-/

namespace OrderCluster.Coordinator

open Program (Path)

/-! ## How far a request has come -/

section Requests

variable {method : Method} {request : method.Request}

def ask (c : Coordinator) (method : Method) (request : method.Request) (m : Member) : Question :=
  ⟨m, c.rpcDeadline, method, request⟩

/-- What is done after an election, while there are so many attempts left after the next one. -/
def afterElection (c : Coordinator) (method : Method) (request : method.Request) (left : Nat) :
    Except CoordinatorError NodeId → Program Turn (Except CoordinatorError method.Response)
  | .ok leader => c.attempt method request left leader
  | .error e => .done (.error e)

/-- What is done after the first look at the belief. -/
def afterLook (c : Coordinator) (method : Method) (request : method.Request) :
    Option NodeId → Program Turn (Except CoordinatorError method.Response)
  | some leader => c.attempt method request (c.nodes.length - 1) leader
  | none => .act (.elect none) (c.afterElection method request (c.nodes.length - 1))

/-- What is done after a call that did not reach the leader. -/
def afterLoss (c : Coordinator) (method : Method) (request : method.Request) (leader : NodeId)
    (error : PeerError) : Nat → Program Turn (Except CoordinatorError method.Response)
  | 0 => .done (.error (.peer error))
  | left + 1 => .act (.elect (some leader)) (c.afterElection method request left)

/-- What is done after a call to the leader. -/
def afterCall (c : Coordinator) (method : Method) (request : method.Request) (left : Nat)
    (leader : NodeId) :
    Except PeerError method.Response → Program Turn (Except CoordinatorError method.Response)
  | .ok response => .done (.ok response)
  | .error e =>
    if e.isTransport then c.afterLoss method request leader e left else .done (.error (.peer e))

theorem afterCall_lost {c : Coordinator} {left : Nat} {leader : NodeId} {error : PeerError}
    (transport : error.isTransport = true) :
    c.afterCall method request left leader (.error error) =
      c.afterLoss method request leader error left :=
  if_pos transport

theorem afterCall_refused {c : Coordinator} {left : Nat} {leader : NodeId} {error : PeerError}
    (reached : error.isTransport = false) :
    c.afterCall method request left leader (.error error) = .done (.error (.peer error)) :=
  if_neg (by simp [reached])

theorem routing_eq (c : Coordinator) (method : Method) (request : method.Request) :
    c.routing method request = .act .look (c.afterLook method request) := by
  refine congrArg (Program.act Turn.look) (funext fun belief => ?_)
  cases belief with
  | some leader => rfl
  | none =>
    refine congrArg (Program.act (Turn.elect none)) (funext fun answer => ?_)
    cases answer <;> rfl

theorem attempt_eq {c : Coordinator} {leader : NodeId} {m : Member}
    (found : c.nodes.find? (·.id = leader) = some m) (left : Nat) :
    c.attempt method request left leader =
      .act (.call (c.ask method request m)) (c.afterCall method request left leader) := by
  cases left with
  | zero =>
    rw [attempt, callLeader, found]
    refine congrArg (Program.act (Turn.call (c.ask method request m))) (funext fun answer => ?_)
    cases answer <;> rfl
  | succ left =>
    rw [attempt, callLeader, found]
    refine congrArg (Program.act (Turn.call (c.ask method request m))) (funext fun answer => ?_)
    cases answer with
    | ok response => rfl
    | error e =>
      refine congrArg (fun after => if e.isTransport then after else _)
        (congrArg (Program.act (Turn.elect (some leader))) (funext fun answer => ?_))
      cases answer <;> rfl

theorem callLeader_belief (c : Coordinator) (belief : Option NodeId) (leader : NodeId)
    (lost : PeerError → Program Turn (Except CoordinatorError method.Response)) :
    callLeader { c with leader := belief } method request leader lost =
      c.callLeader method request leader lost := by
  rw [callLeader, callLeader]
  cases c.nodes.find? (·.id = leader) with
  | none => rfl
  | some m =>
    refine congrArg (Program.act (Turn.call (c.ask method request m))) (funext fun answer => ?_)
    cases answer <;> rfl

/-- What is done to send a request does not depend on the belief at that time. -/
theorem routing_belief (c : Coordinator) (belief : Option NodeId) (method : Method)
    (request : method.Request) :
    routing { c with leader := belief } method request = c.routing method request := by
  have attempts : ∀ left leader, attempt { c with leader := belief } method request left leader =
      c.attempt method request left leader := by
    intro left leader
    induction left generalizing leader with
    | zero => exact callLeader_belief c belief leader _
    | succ left ih =>
      rw [attempt, attempt, callLeader_belief]
      simp only [ih]
  simp only [routing, attempts]

/-- What is true of a request that goes on: its calls were all lost, no election found everybody
silent, and with each call it has one attempt less left. -/
structure SoFar (c : Coordinator) (method : Method) (request : method.Request)
    (events : List Event) (left : Nat) : Prop where
  lost : ∀ x, .called x ∈ events → IsLost x
  asked : ∀ x, .called x ∈ events → ∃ m ∈ c.nodes, x.action = c.ask method request m
  found : ∀ e ∈ events, ¬ e.FoundNobody c
  room : (calls events).length + left ≤ c.nodes.length - 1

/-- How far a request has come: what happened so far, and what is left to do. -/
inductive Stage (c : Coordinator) (method : Method) (request : method.Request) :
    List Event → Program Turn (Except CoordinatorError method.Response) → Prop where
  | arrived : Stage c method request [] (.act .look (c.afterLook method request))
  | electing {events : List Event} {left : Nat} (stale : Option NodeId)
    (so_far : SoFar c method request events left)
    (short : events.length ≤ 2 * (calls events).length + 1) :
    Stage c method request events (.act (.elect stale) (c.afterElection method request left))
  | calling {events : List Event} {left : Nat} {leader : NodeId} {m : Member}
    (found : c.nodes.find? (·.id = leader) = some m)
    (so_far : SoFar c method request events left)
    (short : events.length ≤ 2 * (calls events).length + 2) :
    Stage c method request events
      (.act (.call (c.ask method request m)) (c.afterCall method request left leader))
  | nobody {events : List Event} {e : Event} {left : Nat}
    (so_far : SoFar c method request events left)
    (short : events.length ≤ 2 * (calls events).length + 1)
    (elected : e.call? = none) (silent : e.FoundNobody c) :
    Stage c method request (events ++ [e]) (.done (.error .clusterUnreachable))
  | answered {events : List Event} {left : Nat} {m : Member} (member : m ∈ c.nodes)
    (so_far : SoFar c method request events left)
    (short : events.length ≤ 2 * (calls events).length + 2)
    (answer : Except PeerError method.Response) :
    Stage c method request (events ++ [.called ⟨c.ask method request m, answer⟩])
      (.done (answer.mapError .peer))

theorem calls_snoc (events : List Event) (e : Event) :
    calls (events ++ [e]) = calls events ++ e.call?.toList := by
  rw [calls, List.filterMap_append, ← calls]
  cases e <;> rfl

/-- Calls are not among the events that are no calls. -/
theorem mem_of_no_call {events : List Event} {e : Event} (no_call : e.call? = none)
    {x : Exchange Question} (member : .called x ∈ events ++ [e]) : .called x ∈ events := by
  rcases List.mem_append.mp member with before | last
  · exact before
  · rw [← List.mem_singleton.mp last] at no_call
    cases no_call

theorem SoFar.start (c : Coordinator) (method : Method) (request : method.Request) :
    SoFar c method request [] (c.nodes.length - 1) where
  lost x none_yet := by cases none_yet
  asked x none_yet := by cases none_yet
  found e none_yet := by cases none_yet
  room := Nat.le_of_eq (Nat.zero_add _)

variable {c c' : Coordinator} {events : List Event} {left : Nat}

/-- Going on after an event that is no call. -/
theorem SoFar.snoc (so_far : SoFar c method request events left) {e : Event}
    (no_call : e.call? = none) (found : ¬ e.FoundNobody c) :
    SoFar c method request (events ++ [e]) left := by
  constructor
  · exact fun x member => so_far.lost x (mem_of_no_call no_call member)
  · exact fun x member => so_far.asked x (mem_of_no_call no_call member)
  · intro other member
    rcases List.mem_append.mp member with before | last
    · exact so_far.found other before
    · rwa [List.mem_singleton.mp last]
  · rw [calls_snoc, no_call, Option.toList_none, List.append_nil]
    exact so_far.room

/-- Going on after a call that was lost, while there is an attempt left. -/
theorem SoFar.lose (so_far : SoFar c method request events (left + 1)) {m : Member}
    (member : m ∈ c.nodes) {error : PeerError} (transport : error.isTransport = true) :
    SoFar c method request (events ++ [.called ⟨c.ask method request m, .error error⟩]) left := by
  constructor
  · intro x member
    rcases List.mem_append.mp member with before | last
    · exact so_far.lost x before
    · cases List.mem_singleton.mp last
      exact ⟨error, rfl, transport⟩
  · intro x asked
    rcases List.mem_append.mp asked with before | last
    · exact so_far.asked x before
    · cases List.mem_singleton.mp last
      exact ⟨m, member, rfl⟩
  · intro e among
    rcases List.mem_append.mp among with before | last
    · exact so_far.found e before
    · rw [List.mem_singleton.mp last]
      exact id
  · have room := so_far.room
    rw [calls_snoc, List.length_append]
    change (calls events).length + 1 + left ≤ _
    omega

theorem Stage.call {leader : NodeId} (known : ∃ m ∈ c.nodes, m.id = leader)
    (so_far : SoFar c method request events left)
    (short : events.length ≤ 2 * (calls events).length + 2) :
    Stage c method request events (c.attempt method request left leader) := by
  cases found : c.nodes.find? (·.id = leader) with
  | some m =>
    rw [attempt_eq found]
    exact .calling found so_far short
  | none =>
    obtain ⟨m, member, named⟩ := known
    have other := List.find?_eq_none.mp found m member
    simp only [named, decide_true, not_true_eq_false] at other

/-- What a call brings a request to. -/
theorem Stage.after_call {leader : NodeId} {m : Member}
    (found : c.nodes.find? (·.id = leader) = some m)
    (so_far : SoFar c method request events left)
    (short : events.length ≤ 2 * (calls events).length + 2)
    (answer : Except PeerError method.Response) :
    Stage c method request (events ++ [.called ⟨c.ask method request m, answer⟩])
      (c.afterCall method request left leader answer) := by
  have member : m ∈ c.nodes := List.mem_of_find?_eq_some found
  have ends := Stage.answered member so_far short
  cases answer with
  | ok response => exact ends _
  | error e =>
    cases transport : e.isTransport with
    | false =>
      rw [afterCall_refused transport]
      exact ends _
    | true =>
      rw [afterCall_lost transport]
      cases left with
      | zero => exact ends _
      | succ left =>
        refine .electing (some leader) (so_far.lose member transport) ?_
        rw [calls_snoc, List.length_append, List.length_append]
        change _ + 1 ≤ 2 * (_ + 1) + 1
        omega

/-- A turn brings a request to its next stage, whatever the belief is by then and however the nodes
behave. -/
theorem Stage.turn {turn : Turn}
    {next : turn.Answer → Program Turn (Except CoordinatorError method.Response)}
    (stage : Stage c method request events (.act turn next)) {belief : Option NodeId}
    (knows : Knows { c with leader := belief }) {exchanged : List (Exchange Question)}
    {answer : turn.Answer}
    (path : Path (turn.take { c with leader := belief }) exchanged (answer, c')) :
    Stage c method request (events ++ [.ofTurn turn exchanged answer]) (next answer) := by
  cases stage with
  | arrived =>
    obtain ⟨_, told, _⟩ := path_look path
    have so_far : SoFar c method request [.looked answer] (c.nodes.length - 1) :=
      (SoFar.start c method request).snoc rfl id
    cases answer with
    | some leader => exact .call (knows leader told.symm) so_far (Nat.le_succ 1)
    | none => exact .electing none so_far (Nat.le_refl 1)
  | electing stale so_far short =>
    have elected := path_elect path
    cases answer with
    | ok leader =>
      refine .call (elected.known knows) (so_far.snoc rfl (elected.found knows)) ?_
      rw [calls_snoc, List.length_append, List.length_append]
      change _ + 1 ≤ 2 * (_ + 0) + 2
      omega
    | error e =>
      rcases elected.belief with ⟨_, ok, _⟩ | ⟨error, _, missed⟩
      · cases ok
      · cases error
        exact .nobody so_far short rfl missed
  | calling found so_far short =>
    obtain ⟨rfl, _⟩ := path_call path
    exact .after_call found so_far short answer

/-- What is true of a request to the leader while it is under way and when it has ended, where so
many nodes are configured. -/
structure Routed (c : Coordinator) (nodes : Nat) (method : Method)
    (request : method.Request) (events : List Event)
    (rest : Program Turn (Except CoordinatorError method.Response)) :
    Prop where
  /-- It ends: there are only so many turns. -/
  turns : events.length ≤ 2 * nodes + 2
  /-- It calls at most as many times as there are nodes. -/
  calls : (calls events).length ≤ nodes
  /-- What it calls is a configured node, and what it asks is the request. -/
  asked : ∀ x, .called x ∈ events → ∃ m ∈ c.nodes, x.action = c.ask method request m
  /-- Nothing is sent to any node after a call that was not lost; the request has ended then. -/
  silent : ∀ front x back, events = front ++ .called x :: back →
    IsLost x ∨ back = [] ∧ ∃ result, rest = .done result
  /-- It ends with the outcome of its last call, or because the cluster cannot be reached. -/
  outcome : ∀ result, rest = .done result → result ≠ .error .clusterUnreachable →
    ∃ front m answer, events = front ++ [.called ⟨c.ask method request m, answer⟩] ∧
      result = answer.mapError .peer
  /-- The cluster cannot be reached if and only if an election of the request found everybody
  silent. -/
  unreachable : ∀ result, rest = .done result →
    (result = .error .clusterUnreachable ↔ ∃ e ∈ events, e.FoundNobody c)
  /-- Where nobody is configured, nobody is called. -/
  nobody : nodes = 0 → events.flatMap Event.exchanges = []

/-- A list that goes on behind one of its elements ends with another. -/
theorem mem_of_followed {α : Type} {front back items : List α} {x last : α}
    (eq : front ++ x :: back = items ++ [last]) (followed : back ≠ []) : x ∈ items := by
  obtain ⟨inner, final, rfl⟩ := (List.eq_nil_or_concat back).resolve_left followed
  rw [List.concat_eq_append, ← List.cons_append, ← List.append_assoc] at eq
  rw [← List.append_inj_left' eq rfl]
  exact List.mem_append_right _ List.mem_cons_self

theorem mapError_ne_unreachable {α : Type} (answer : Except PeerError α) :
    answer.mapError CoordinatorError.peer ≠ .error .clusterUnreachable := by
  cases answer with
  | ok a => exact nofun
  | error e => exact nofun

/-- While a request goes on, all its calls were lost and it has attempts left. -/
theorem SoFar.routed (so_far : SoFar c method request events left)
    (short : events.length ≤ 2 * (calls events).length + 2)
    (nobody : c.nodes.length = 0 → events.flatMap Event.exchanges = []) {turn : Turn}
    (next : turn.Answer → Program Turn (Except CoordinatorError method.Response)) :
    Routed c c.nodes.length method request events (.act turn next) := by
  have room := so_far.room
  constructor
  · omega
  · omega
  · exact so_far.asked
  · intro front x back eq
    refine Or.inl (so_far.lost x ?_)
    rw [eq]
    exact List.mem_append_right _ List.mem_cons_self
  · exact fun result ended => by cases ended
  · exact fun result ended => by cases ended
  · exact nobody

/-- A request ends with an election that found everybody silent. -/
theorem SoFar.routed_nobody (so_far : SoFar c method request events left)
    (short : events.length ≤ 2 * (calls events).length + 1) {e : Event} (no_call : e.call? = none)
    (silent : e.FoundNobody c)
    (nobody : c.nodes.length = 0 → (events ++ [e]).flatMap Event.exchanges = []) :
    Routed c c.nodes.length method request (events ++ [e])
      (.done (.error .clusterUnreachable)) := by
  have room := so_far.room
  have same : calls (events ++ [e]) = calls events := by
    rw [calls_snoc, no_call, Option.toList_none, List.append_nil]
  constructor
  · rw [List.length_append, List.length_singleton]
    omega
  · rw [same]
    omega
  · exact fun x member => so_far.asked x (mem_of_no_call no_call member)
  · intro front x back eq
    refine Or.inl (so_far.lost x (mem_of_no_call no_call ?_))
    rw [eq]
    exact List.mem_append_right _ List.mem_cons_self
  · intro result ended reached
    cases ended
    exact absurd rfl reached
  · intro result ended
    cases ended
    exact ⟨fun _ => ⟨e, List.mem_append_right _ List.mem_cons_self, silent⟩, fun _ => rfl⟩
  · exact nobody

/-- A request ends with a call, whatever came of it. -/
theorem SoFar.routed_answered (so_far : SoFar c method request events left)
    (short : events.length ≤ 2 * (calls events).length + 2) {m : Member} (member : m ∈ c.nodes)
    (answer : Except PeerError method.Response)
    (nobody : c.nodes.length = 0 →
      (events ++ [Event.called ⟨c.ask method request m, answer⟩]).flatMap Event.exchanges = []) :
    Routed c c.nodes.length method request (events ++ [.called ⟨c.ask method request m, answer⟩])
      (.done (answer.mapError .peer)) := by
  have room := so_far.room
  have some_node : 0 < c.nodes.length := List.length_pos_of_mem member
  have more : (calls (events ++ [.called ⟨c.ask method request m, answer⟩])).length =
      (calls events).length + 1 := by
    rw [calls_snoc, List.length_append]
    rfl
  constructor
  · rw [List.length_append, List.length_singleton]
    omega
  · omega
  · intro x called
    rcases List.mem_append.mp called with before | last
    · exact so_far.asked x before
    · cases List.mem_singleton.mp last
      exact ⟨m, member, rfl⟩
  · intro front x back eq
    by_cases last : back = []
    · exact Or.inr ⟨last, _, rfl⟩
    · exact Or.inl (so_far.lost x (mem_of_followed eq.symm last))
  · intro result ended _
    cases ended
    exact ⟨events, m, answer, rfl, rfl⟩
  · intro result ended
    cases ended
    refine ⟨fun unreachable => absurd unreachable (mapError_ne_unreachable answer), ?_⟩
    rintro ⟨e, among, silent⟩
    rcases List.mem_append.mp among with before | last
    · exact absurd silent (so_far.found e before)
    · rw [List.mem_singleton.mp last] at silent
      cases silent
  · exact nobody

/-- What can be read off the stage that a request has reached. -/
theorem Stage.routed
    {rest : Program Turn (Except CoordinatorError method.Response)}
    (stage : Stage c method request events rest)
    (nobody : c.nodes.length = 0 → events.flatMap Event.exchanges = []) :
    Routed c c.nodes.length method request events rest := by
  cases stage with
  | arrived => exact (SoFar.start c method request).routed (Nat.zero_le _) nobody _
  | electing stale so_far short => exact so_far.routed (Nat.le_succ_of_le short) nobody _
  | calling found so_far short => exact so_far.routed short nobody _
  | nobody so_far short elected silent => exact so_far.routed_nobody short elected silent nobody
  | answered member so_far short answer => exact so_far.routed_answered short member answer nobody

end Requests

/-! ## All callers together -/

/-- How far a caller has come. -/
def Visit.Staged (c : Coordinator) : Visit → Prop
  | ⟨.elect stale, _, rest⟩ => rest = .act (.elect stale) .done ∨ ∃ result, rest = .done result
  | ⟨.route method request, events, rest⟩ => Stage c method request events rest

/-- What holds of each caller by itself. -/
structure Visit.Fits (c : Coordinator) (v : Visit) : Prop where
  staged : v.Staged c
  asked : ∀ x ∈ v.events.flatMap Event.exchanges, x.action.member ∈ c.nodes
  named : ∀ e ∈ v.events, ∀ id, e.named? = some id → ∃ m ∈ c.nodes, m.id = id

theorem Visit.Fits.enter (c : Coordinator) (belief : Option NodeId) (wish : Wish) :
    Visit.Fits c ⟨wish, [], wish.work { c with leader := belief }⟩ := by
  refine ⟨?_, fun x none_yet => (nomatch none_yet), fun e none_yet => (nomatch none_yet)⟩
  cases wish with
  | elect stale => exact Or.inl rfl
  | route method request =>
    change Stage c method request [] (routing { c with leader := belief } method request)
    rw [routing_belief, routing_eq]
    exact .arrived

section Visits

variable {c c' : Coordinator} {belief : Option NodeId} {wish : Wish} {events : List Event}
  {taken : Turn} {next : taken.Answer → Program Turn (Except CoordinatorError wish.Response)}

/-- A caller whose turn is a call calls a configured node. -/
theorem Visit.Staged.configured (staged : Visit.Staged c ⟨wish, events, .act taken next⟩)
    (q : Question) (eq : taken = .call q) : q.member ∈ c.nodes := by
  subst eq
  cases wish with
  | elect stale =>
    rcases staged with waiting | ⟨_, ended⟩
    · cases waiting
    · cases ended
  | route method request =>
    cases staged with
    | calling found _ _ => exact List.mem_of_find?_eq_some found

theorem Visit.Fits.turn (fits : Visit.Fits c ⟨wish, events, .act taken next⟩)
    (knows : Knows { c with leader := belief }) {exchanged : List (Exchange Question)}
    {answer : taken.Answer}
    (path : Path (taken.take { c with leader := belief }) exchanged (answer, c')) :
    Visit.Fits c ⟨wish, events ++ [.ofTurn taken exchanged answer], next answer⟩ := by
  have turned := turned_of_path knows fits.staged.configured path
  constructor
  · cases wish with
    | elect stale =>
      rcases fits.staged with waiting | ⟨_, ended⟩
      · cases waiting
        exact Or.inr ⟨answer, rfl⟩
      · cases ended
    | route method request => exact Stage.turn fits.staged knows path
  · intro x asked
    rw [List.flatMap_append, List.mem_append, List.flatMap_singleton] at asked
    exact asked.elim (fits.asked x) (turned.asked x)
  · intro e among
    rcases List.mem_append.mp among with before | last
    · exact fits.named e before
    · rw [List.mem_singleton.mp last]
      exact turned.named

end Visits

/-- What every step keeps, where the coordinator was at first without a belief. -/
structure Office.Invariant (first : Coordinator) (o : Office) : Prop where
  same : o.coordinator = { first with leader := o.coordinator.leader }
  knows : o.coordinator.Knows
  fits : ∀ v ∈ o.visits, v.Fits first

theorem Office.Invariant.step {first : Coordinator} {o o' : Office}
    (invariant : o.Invariant first) (step : o.Step o') : o'.Invariant first := by
  obtain ⟨same, knows, fits⟩ := invariant
  cases step with
  | enter o wish =>
    refine ⟨same, knows, fun v among => ?_⟩
    rcases List.mem_append.mp among with before | last
    · exact fits v before
    · rw [List.mem_singleton.mp last, same]
      exact Visit.Fits.enter first _ wish
  | @turn c c' wish events turn next exchanged answer front back path =>
    have mine := fits _ (List.mem_append_right _ List.mem_cons_self)
    dsimp only at same
    rw [same] at path knows
    have turned := turned_of_path knows mine.staged.configured path
    refine ⟨turned.same, turned.knows, fun v among => ?_⟩
    rcases List.mem_append.mp among with before | behind
    · exact fits v (List.mem_append_left _ before)
    · rcases List.mem_cons.mp behind with rfl | behind
      · exact mine.turn knows path
      · exact fits v (List.mem_append_right _ (List.mem_cons_of_mem _ behind))
  | leave c gone front back =>
    refine ⟨same, knows, fun v among => fits v ?_⟩
    rcases List.mem_append.mp among with before | behind
    · exact List.mem_append_left _ before
    · exact List.mem_append_right _ (List.mem_cons_of_mem _ behind)

theorem Office.Reachable.invariant {first : Coordinator} {o : Office}
    (reached : o.Reachable first) (unknown : first.leader = none) : o.Invariant first := by
  induction reached with
  | opened =>
    refine ⟨rfl, fun id believed => ?_, fun v none_yet => by cases none_yet⟩
    cases unknown.symm.trans believed
  | step reached step ih => exact ih.step step

/-- A request to the leader calls at most once for each listed id, whatever the order of the turns
and however the nodes behave. -/
theorem Office.Reachable.routed {listed : List Member} {healthDeadline rpcDeadline : Nat}
    {o : Office} (reached : o.Reachable (.ofMembers listed healthDeadline rpcDeadline))
    {method : Method} {request : method.Request} {events : List Event}
    {rest : Program Turn (Except CoordinatorError method.Response)}
    (among : ⟨.route method request, events, rest⟩ ∈ o.visits) :
    Routed (.ofMembers listed healthDeadline rpcDeadline) (listed.map Member.id).dedup.length method
      request events rest := by
  obtain ⟨staged, asked, _⟩ := (reached.invariant rfl).fits _ among
  rw [← length_walk]
  refine Stage.routed staged fun nobody => ?_
  refine List.eq_nil_iff_forall_not_mem.mpr fun x member => ?_
  have configured := asked x member
  rw [List.length_eq_zero_iff.mp nobody] at configured
  cases configured

/-- What holds at any time of a coordinator of listed nodes and of its callers. -/
structure Office.Orderly (listed : List Member) (first : Coordinator) (o : Office) : Prop where
  /-- The leader that is believed is a listed node. -/
  believed : ∀ id, o.coordinator.leader = some id → ∃ m ∈ listed, m.id = id
  /-- Every leader that a caller is told of is found among the nodes. -/
  named : ∀ v ∈ o.visits, ∀ e ∈ v.events, ∀ id, e.named? = some id →
    ∃ m, o.coordinator.nodes.find? (·.id = id) = some m
  /-- A request to the leader calls at most once for each listed id. -/
  routed : ∀ method request events rest, ⟨.route method request, events, rest⟩ ∈ o.visits →
    Routed first (listed.map Member.id).dedup.length method request events rest

/-- Requests are bounded and never sent again after an answer, whatever their order and however the
nodes behave. -/
theorem orderly_of_reachable {listed : List Member} {healthDeadline rpcDeadline : Nat}
    {o : Office} (reached : o.Reachable (.ofMembers listed healthDeadline rpcDeadline)) :
    o.Orderly listed (.ofMembers listed healthDeadline rpcDeadline) := by
  obtain ⟨same, knows, fits⟩ := reached.invariant rfl
  have nodes : o.coordinator.nodes = walk listed := by rw [same]; rfl
  constructor
  · intro id believed
    obtain ⟨m, member, named⟩ := knows id believed
    rw [nodes] at member
    exact ⟨m, mem_walk member, named⟩
  · intro v among e happened id named
    obtain ⟨m, member, same_id⟩ := (fits v among).named e happened id named
    rw [nodes, ← Option.isSome_iff_exists, List.find?_isSome]
    exact ⟨m, member, decide_eq_true same_id⟩
  · exact fun method request events rest among => reached.routed among

/-- Two nodes, of which the first answers everything but buys. -/
def flapping : ScriptedPeers :=
  ⟨[{ id := 2, manner := .down, only := [.buy] }, { id := 1 }]⟩

/-- A node that answers health checks but no buys is elected twice, and then there is no attempt
left. -/
theorem orderly_flapping :
    ∃ (o : Office) (events : List Event), o.Reachable (ofMembers flapping.members 1000 2000) ∧
      o.visits = [⟨.route .buy ⟨"Fox", 1⟩, events,
        .done (.error (.peer (.unreachable "peer-2" "connection refused")))⟩] ∧
      o.coordinator.leader = some 2 ∧ events.length = 5 ∧ (calls events).length = 2 ∧
      o.Orderly flapping.members (ofMembers flapping.members 1000 2000) := by
  have listed : ofMembers flapping.members 1000 2000 = ⟨flapping.members, 1000, 2000, none⟩ :=
    congrArg (Coordinator.mk · 1000 2000 none) (walk_of_descending (by decide))
  have entered : Office.Reachable (ofMembers flapping.members 1000 2000)
      ⟨ofMembers flapping.members 1000 2000, [⟨.route .buy ⟨"Fox", 1⟩, [],
        (ofMembers flapping.members 1000 2000).routing .buy ⟨"Fox", 1⟩⟩]⟩ :=
    .step .opened (.enter _ (.route .buy ⟨"Fox", 1⟩))
  have reached := @Office.Reachable.course _ [] [] _ _ _ _ _ _ _ entered
    (course_happenings Question.perform _ _ flapping)
  have result : (((ofMembers flapping.members 1000 2000).buy ⟨"Fox", 1⟩).run Question.perform
      flapping).1.1 = .error (.peer (.unreachable "peer-2" "connection refused")) := by
    rw [listed]
    cbv
  refine ⟨_, happenings Question.perform ((ofMembers flapping.members 1000 2000).routing .buy
    ⟨"Fox", 1⟩) (ofMembers flapping.members 1000 2000) flapping, reached, ?_, ?_, ?_, ?_,
    orderly_of_reachable reached⟩
  · exact congrArg (fun result => [(⟨.route .buy ⟨"Fox", 1⟩, _, .done result⟩ : Visit)]) result
  · rw [listed]
    decide +kernel
  · rw [listed]
    decide +kernel
  · rw [listed]
    decide +kernel

/-- What is said of requests that share a coordinator is true of each that is run as a whole. -/
theorem routed_route {σ : Type} (perform : (q : Question) → σ → Interface.Answer q × σ)
    {listed : List Member} {healthDeadline rpcDeadline : Nat} {o : Office}
    (reached : o.Reachable (.ofMembers listed healthDeadline rpcDeadline)) (method : Method)
    (request : method.Request) (s : σ) :
    Routed (.ofMembers listed healthDeadline rpcDeadline) (listed.map Member.id).dedup.length method
      request (happenings perform (o.coordinator.routing method request) o.coordinator s)
      (.done ((o.coordinator.route method request).run perform s).1.1) := by
  have ended := (reached.step (.enter o (.route method request))).course
    (course_happenings perform _ _ s)
  exact ended.routed (List.mem_append_right _ List.mem_cons_self)

end OrderCluster.Coordinator
