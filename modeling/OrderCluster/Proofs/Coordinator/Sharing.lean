import OrderCluster.Proofs.Coordinator.Election

/-!
# Requests that share a coordinator

Any number of requests are under way at one coordinator, and their turns come in any order. A look
at the belief and an election are not interrupted; a call does not touch the belief, so it does not
matter what others do while it lasts. The nodes behave as they like, and differently from call to
call.

Whoever has a turn, nothing changes about the coordinator but its belief, and only configured nodes
are asked, believed in and named.
-/

namespace OrderCluster.Coordinator

open Program (Path)

/-- What a caller wants: an election, or a request sent to the leader, such as a buy or a query. -/
inductive Wish where
  | elect (stale : Option NodeId)
  | route (method : Method) (request : method.Request)

namespace Wish

/-- What a caller is answered when all goes well. -/
abbrev Response : Wish → Type
  | .elect _ => NodeId
  | .route method _ => method.Response

def work (c : Coordinator) : (wish : Wish) → Program Turn (Except CoordinatorError wish.Response)
  | .elect stale => (Turn.elect stale).await
  | .route method request => c.routing method request

end Wish

/-- What happened in a turn. -/
inductive Event where
  | looked (belief : Option NodeId)
  | elected (stale : Option NodeId) (exchanged : List (Exchange Question))
    (answer : Except CoordinatorError NodeId)
  | called (x : Exchange Question)

namespace Event

/-- What happened in a turn, by what was exchanged in it and what it told. -/
def ofTurn : (turn : Turn) → List (Exchange Question) → turn.Answer → Event
  | .look, _, belief => .looked belief
  | .elect stale, exchanged, answer => .elected stale exchanged answer
  | .call question, _, answer => .called ⟨question, answer⟩

def exchanges : Event → List (Exchange Question)
  | .looked _ => []
  | .elected _ exchanged _ => exchanged
  | .called x => [x]

def call? : Event → Option (Exchange Question)
  | .called x => some x
  | _ => none

def named? : Event → Option NodeId
  | .looked belief => belief
  | .elected _ _ (.ok id) => some id
  | _ => none

/-- Whether an election was run in which every node was checked and none answered. -/
def FoundNobody (c : Coordinator) : Event → Prop
  | .elected _ exchanged _ => List.Forall₂ c.Missed c.nodes exchanged
  | _ => False

end Event

def calls (events : List Event) : List (Exchange Question) := events.filterMap Event.call?

/-- A caller whose wish is under way: what happened so far, and what is left to do. -/
structure Visit where
  wish : Wish
  events : List Event
  rest : Program Turn (Except CoordinatorError wish.Response)

/-- A coordinator and its callers. -/
structure Office where
  coordinator : Coordinator
  visits : List Visit

namespace Office

/-- One step: a caller comes or goes away, or one of those who are there has a turn. -/
inductive Step : Office → Office → Prop where
  | enter (o : Office) (wish : Wish) :
    Step o { o with visits := o.visits ++ [⟨wish, [], wish.work o.coordinator⟩] }
  | turn {c c' : Coordinator} {wish : Wish} {events : List Event} {turn : Turn}
    {next : turn.Answer → Program Turn (Except CoordinatorError wish.Response)}
    {exchanged : List (Exchange Question)} {answer : turn.Answer} (front back : List Visit)
    (path : Path (turn.take c) exchanged (answer, c')) :
    Step ⟨c, front ++ ⟨wish, events, .act turn next⟩ :: back⟩
      ⟨c', front ++ ⟨wish, events ++ [.ofTurn turn exchanged answer], next answer⟩ :: back⟩
  /-- A caller does not wait for the end. An election that is broken off changes no belief. -/
  | leave (c : Coordinator) (gone : Visit) (front back : List Visit) :
    Step ⟨c, front ++ gone :: back⟩ ⟨c, front ++ back⟩

/-- The offices that can be reached from a coordinator to which nobody has come yet. -/
inductive Reachable (first : Coordinator) : Office → Prop where
  | opened : Reachable first ⟨first, []⟩
  | step {o o' : Office} (reached : Reachable first o) (step : Step o o') : Reachable first o'

end Office

/-! ## A caller who has the coordinator alone -/

/-- How the turns of a caller go when nobody else has any: what happens, and what is left. -/
inductive Course {α : Type} : Program Turn α → Coordinator → List Event → α × Coordinator → Prop
    where
  | done (result : α) (c : Coordinator) : Course (.done result) c [] (result, c)
  | act {c c' : Coordinator} {turn : Turn} {next : turn.Answer → Program Turn α}
    {exchanged : List (Exchange Question)} {answer : turn.Answer} {events : List Event}
    {ended : α × Coordinator} (path : Path (turn.take c) exchanged (answer, c'))
    (rest : Course (next answer) c' events ended) :
    Course (.act turn next) c (.ofTurn turn exchanged answer :: events) ended

section Alone

variable {σ α : Type} (perform : (q : Question) → σ → Interface.Answer q × σ)

/-- What happens to a caller while nobody else has a turn. -/
def happenings : Program Turn α → Coordinator → σ → List Event
  | .done _, _, _ => []
  | .act turn next, c, s =>
    let taken := (turn.take c).run perform s
    .ofTurn turn ((turn.take c).exchanges perform s) taken.1.1 ::
      happenings (next taken.1.1) taken.1.2 taken.2

/-- A request that is run as a whole takes a course. -/
theorem course_happenings (program : Program Turn α) (c : Coordinator) (s : σ) :
    Course program c (happenings perform program c s) ((serve program c).run perform s).1 := by
  induction program generalizing c s with
  | done result => exact .done result c
  | act turn next ih =>
    have run_eq : (serve (.act turn next) c).run perform s = _ :=
      Program.run_bind perform (turn.take c) _ s
    rw [run_eq]
    exact .act (Program.path_run perform (turn.take c) s) (ih _ _ _)

/-- What is exchanged while a request is run is what is exchanged in its turns. -/
theorem exchanges_serve (program : Program Turn α) (c : Coordinator) (s : σ) :
    (serve program c).exchanges perform s =
      (happenings perform program c s).flatMap Event.exchanges := by
  induction program generalizing c s with
  | done result => rfl
  | act turn next ih =>
    have split : (serve (.act turn next) c).exchanges perform s = _ :=
      Program.exchanges_bind perform (turn.take c) _ s
    have same : (Event.ofTurn turn ((turn.take c).exchanges perform s)
        ((turn.take c).run perform s).1.1).exchanges = (turn.take c).exchanges perform s := by
      cases turn <;> rfl
    rw [split, ih, happenings, List.flatMap_cons, same]

end Alone

theorem Course.of_done {α : Type} {result : α} {c : Coordinator} {events : List Event}
    {ended : α × Coordinator} (course : Course (.done result) c events ended) :
    events = [] ∧ ended = (result, c) := by
  cases course
  exact ⟨rfl, rfl⟩

theorem Course.of_act {α : Type} {turn : Turn} {next : turn.Answer → Program Turn α}
    {c : Coordinator} {events : List Event} {ended : α × Coordinator}
    (course : Course (.act turn next) c events ended) :
    ∃ exchanged answer c' later, events = .ofTurn turn exchanged answer :: later ∧
      Path (turn.take c) exchanged (answer, c') ∧ Course (next answer) c' later ended := by
  cases course with
  | act path rest => exact ⟨_, _, _, _, rfl, path, rest⟩

/-- At any time, a caller may have one turn after the other until the end. -/
theorem Office.Reachable.course {first : Coordinator} {front back : List Visit} {wish : Wish}
    {rest : Program Turn (Except CoordinatorError wish.Response)} {c c' : Coordinator}
    {before events : List Event} {result : Except CoordinatorError wish.Response}
    (reached : Reachable first ⟨c, front ++ ⟨wish, before, rest⟩ :: back⟩)
    (course : Course rest c events (result, c')) :
    Reachable first ⟨c', front ++ ⟨wish, before ++ events, .done result⟩ :: back⟩ := by
  induction rest generalizing c before events with
  | done answer =>
    obtain ⟨rfl, eq⟩ := course.of_done
    cases eq
    rw [List.append_nil]
    exact reached
  | act turn next ih =>
    obtain ⟨exchanged, answer, after, later, rfl, path, rest⟩ := course.of_act
    have ended := ih answer (reached.step (.turn front back path)) rest
    rwa [List.append_assoc, List.singleton_append] at ended

/-! ## One turn -/

/-- The leader that is believed is a configured node. -/
def Knows (c : Coordinator) : Prop := ∀ id, c.leader = some id → ∃ m ∈ c.nodes, m.id = id

/-- A call that did not reach its node. -/
def IsLost (x : Exchange Question) : Prop :=
  ∃ error : PeerError, x.answer = .error error ∧ error.isTransport = true

section Turns

variable {c c' : Coordinator} {exchanged : List (Exchange Question)}

theorem path_look {belief : Option NodeId} (path : Path (Turn.look.take c) exchanged (belief, c')) :
    exchanged = [] ∧ belief = c.leader ∧ c' = c := by
  obtain ⟨rfl, eq⟩ := path.of_done
  cases eq
  exact ⟨rfl, rfl, rfl⟩

theorem path_call {q : Question} {answer : Except PeerError q.method.Response}
    (path : Path ((Turn.call q).take c) exchanged (answer, c')) :
    exchanged = [⟨q, answer⟩] ∧ c' = c := by
  obtain ⟨told, later, rfl, after⟩ := path.of_act
  obtain ⟨rfl, eq⟩ := after.of_done
  cases eq
  exact ⟨rfl, rfl⟩

/-- The leader that an election names is a configured node. -/
theorem Elected.known {stale : Option NodeId} {id : NodeId}
    (elected : Elected c stale exchanged (.ok id, c')) (knows : c.Knows) :
    ∃ m ∈ c.nodes, m.id = id := by
  cases elected with
  | kept believed other => exact knows id believed
  | walked due election =>
    cases election with
    | @won above lower chosen _ _ _ split missed told =>
      refine ⟨chosen, ?_, rfl⟩
      rw [split]
      exact List.mem_append_right _ List.mem_cons_self

/-- An election that names a leader has not found everybody silent. -/
theorem Elected.found {stale : Option NodeId} {id : NodeId}
    (elected : Elected c stale exchanged (.ok id, c')) (knows : c.Knows) :
    ¬ List.Forall₂ c.Missed c.nodes exchanged := by
  intro silent
  obtain ⟨m, member, _⟩ := elected.known knows
  cases elected with
  | kept believed other =>
    rw [List.forall₂_nil_right_iff.mp silent] at member
    cases member
  | walked due election =>
    cases election with
    | won split missed told =>
      obtain ⟨_, _, error, eq⟩ := exists_of_exchanged silent
        (List.mem_append_right _ List.mem_cons_self)
      cases eq

end Turns

/-! ## What a turn leaves behind -/

/-- What a turn leaves behind, whoever's it was: nothing changes about the coordinator but its
belief, and only configured nodes are asked, believed in and named. -/
structure Turned (c : Coordinator) (e : Event) (after : Coordinator) : Prop where
  same : after = { c with leader := after.leader }
  knows : after.Knows
  asked : ∀ x ∈ e.exchanges, x.action.member ∈ c.nodes
  named : ∀ id, e.named? = some id → ∃ m ∈ c.nodes, m.id = id

theorem Elected.turned {c c' : Coordinator} {stale : Option NodeId}
    {exchanged : List (Exchange Question)} {answer : Except CoordinatorError NodeId}
    (elected : Elected c stale exchanged (answer, c')) (knows : c.Knows) :
    Turned c (.elected stale exchanged answer) c' := by
  have nodes : c'.nodes = c.nodes := by rw [elected.same]
  constructor
  · exact elected.same
  · intro id believed
    rw [nodes]
    rcases elected.belief with ⟨named, rfl, leader⟩ | ⟨_, nobody, _⟩
    · cases leader.symm.trans believed
      exact elected.known knows
    · cases nobody.symm.trans believed
  · exact fun x among => elected.asked among
  · intro id named
    cases answer with
    | ok leader =>
      cases named
      exact elected.known knows
    | error e => cases named

theorem turned_of_path {c c' : Coordinator} {turn : Turn} {exchanged : List (Exchange Question)}
    {answer : turn.Answer} (knows : c.Knows)
    (configured : ∀ q, turn = .call q → q.member ∈ c.nodes)
    (path : Path (turn.take c) exchanged (answer, c')) :
    Turned c (.ofTurn turn exchanged answer) c' := by
  cases turn with
  | look =>
    obtain ⟨rfl, rfl, rfl⟩ := path_look path
    exact ⟨rfl, knows, fun x none_asked => (nomatch none_asked), fun id named => knows id named⟩
  | elect stale => exact (path_elect path).turned knows
  | call q =>
    obtain ⟨rfl, rfl⟩ := path_call path
    refine ⟨rfl, knows, fun x asked => ?_, fun id named => nomatch named⟩
    cases List.mem_singleton.mp asked
    exact configured q rfl

end OrderCluster.Coordinator
