import OrderCluster.Catalog.Overridden
import OrderCluster.Proofs.Coordinator.Routing
import OrderCluster.Proofs.Registry
import OrderCluster.Proofs.Service.Answers
import OrderCluster.Proofs.Service.Buy
import OrderCluster.Proofs.Steady.World

/-!
# Whether the elected node knows that it leads

An election sends the node that it names one assignment, and names it whatever becomes of that. A
node that heard of the assignment refuses no buy for not being the leader, until it is started again
or hears of a leader from elsewhere. A node that did not hear of it goes on believing what it
believed. The coordinator believes in it all the same; where nodes are strict the node refuses each
buy, and since a refusal is an answer, the coordinator looks for no other node.
-/

namespace OrderCluster.Coordinator

open Program (Path)

/-! ## Whom a node believes to lead -/

/-- How far a call comes. -/
inductive Reach where
  /-- The node does not hear it. -/
  | lost
  /-- The node hears it, but its answer is lost. -/
  | unheard
  /-- The node hears it, and its answer comes back. -/
  | answered
  deriving DecidableEq, Repr

/-- What may bear on whom a node believes to lead. -/
inductive Incident where
  /-- The coordinator calls the node or another one. -/
  | called (x : Exchange Question) (reach : Reach)
  /-- The node hears who leads from another coordinator, or from a call that was given up. -/
  | assigned (leader : NodeId)
  /-- The node is started again over its log. -/
  | restarted

/-- The leader that a call assigns, if it assigns one. -/
def assigned? : Question → Option NodeId
  | ⟨_, _, .assign, (request : LeaderAssignment)⟩ => some request.id
  | _ => none

/-- Whether a call tells a node who leads. -/
def tells (id : NodeId) (x : Exchange Question) : Bool :=
  x.action.member.id = id && (assigned? x.action).isSome

namespace Incident

def exchange? : Incident → Option (Exchange Question)
  | called x _ => some x
  | assigned _ | restarted => none

/-- Whether an incident leaves a node's belief alone. -/
def isIdle (id : NodeId) : Incident → Bool
  | called x _ => !tells id x
  | assigned _ | restarted => false

/-- Whom a node believes to lead after an incident. -/
def belief (id : NodeId) (before : Option NodeId) : Incident → Option NodeId
  | called x reach =>
    if x.action.member.id = id ∧ reach ≠ .lost then (assigned? x.action).or before else before
  | assigned leader => some leader
  | restarted => none

end Incident

def exchangesOf (incidents : List Incident) : List (Exchange Question) :=
  incidents.filterMap Incident.exchange?

/-- Whom a node believes to lead after what happened. -/
def beliefAfter (id : NodeId) (before : Option NodeId) (incidents : List Incident) :
    Option NodeId :=
  incidents.foldl (Incident.belief id) before

/-- A node believes what it believed as long as nobody tells it of a leader. -/
theorem beliefAfter_of_idle {id : NodeId} {before : Option NodeId} {incidents : List Incident}
    (idle : ∀ i ∈ incidents, i.isIdle id = true) : beliefAfter id before incidents = before := by
  induction incidents with
  | nil => rfl
  | cons i later ih =>
    have same : i.belief id before = before := by
      have first := idle i List.mem_cons_self
      cases i with
      | called x reach =>
        simp only [Incident.isIdle, tells, Bool.not_eq_true', Bool.and_eq_false_iff,
          decide_eq_false_iff_not, Option.isSome_eq_false_iff, Option.isNone_iff_eq_none] at first
        rcases first with elsewhere | silent
        · simp [Incident.belief, elsewhere]
        · simp [Incident.belief, silent]
      | assigned leader => cases first
      | restarted => cases first
    rw [beliefAfter, List.foldl_cons, same]
    exact ih fun other among => idle other (List.mem_cons_of_mem _ among)

/-- The network lost the answer, or the caller did not wait for it; the node itself refused
nothing. -/
def IsBroken (error : PeerError) : Prop :=
  ∀ address status message, error ≠ .rejected address status message

section Node

variable {κ : Type} [Catalog κ]

/-- What the called node answers, and the desk that it leaves behind. -/
def answerOf (strict : Bool) (q : Question) (d : Desk κ) :
    Except PeerError q.method.Response × Desk κ :=
  let served := (Service.serve strict q.method q.request).perform d
  (Net.heard q.member served.1.1, served.2)

/-- What else goes on at a node, whoever asks for it: any action but noting a leader. Log calls may
begin or cease to fail, and the catalog may change. -/
inductive Stirs : Desk κ → Desk κ → Prop where
  | act (d : Desk κ) {action : Action} (other : ∀ leader, action ≠ .assignLeader leader) :
    Stirs d (action.perform d).2
  | disturb (d : Desk κ) (outage : LogCall → Option Failure) (catalog : κ) :
    Stirs d { node := { d.node with storage := { d.node.storage with outage } }, catalog }

/-- A call of the coordinator, and what it does at the node with some id. The other nodes answer as
they like. -/
inductive Meets (strict : Bool) (id : NodeId) :
    Desk κ → Exchange Question → Reach → Desk κ → Prop where
  | elsewhere (d : Desk κ) {x : Exchange Question} (reach : Reach)
    (other : x.action.member.id ≠ id) : Meets strict id d x reach d
  | lost (d : Desk κ) (q : Question) {error : PeerError} (broken : IsBroken error) :
    Meets strict id d ⟨q, (.error error : Except PeerError q.method.Response)⟩ .lost d
  | unheard (d : Desk κ) {q : Question} {error : PeerError} (here : q.member.id = id)
    (broken : IsBroken error) :
    Meets strict id d ⟨q, (.error error : Except PeerError q.method.Response)⟩ .unheard
      (answerOf strict q d).2
  | answered (d : Desk κ) {q : Question} (here : q.member.id = id) :
    Meets strict id d ⟨q, (answerOf strict q d).1⟩ .answered (answerOf strict q d).2

/-- What happens at the node with some id, one incident after the other. -/
inductive Passes (strict : Bool) (id : NodeId) : Desk κ → List Incident → Desk κ → Prop where
  | nil (d : Desk κ) : Passes strict id d [] d
  | stirs {d d' d'' : Desk κ} {later : List Incident} (stirs : Stirs d d')
    (rest : Passes strict id d' later d'') : Passes strict id d later d''
  | called {d d' d'' : Desk κ} {x : Exchange Question} {reach : Reach} {later : List Incident}
    (meets : Meets strict id d x reach d') (rest : Passes strict id d' later d'') :
    Passes strict id d (.called x reach :: later) d''
  | assigned {d d' : Desk κ} (request : LeaderAssignment) {later : List Incident}
    (rest : Passes strict id ((Service.assign request).perform d).2 later d') :
    Passes strict id d (.assigned request.id :: later) d'
  | restarted {d d' d'' : Desk κ} {outage : LogCall → Option Failure} {listed : List Member}
    {later : List Incident}
    (opened : Service.openNode ⟨d.node.storage.log.reopen, outage⟩ (.ofMembers id listed) =
      .ok d'.node)
    (rest : Passes strict id d' later d'') : Passes strict id d (.restarted :: later) d''

/-- A call changes a node's belief where it assigns a leader, and in no other case. -/
theorem belief_answerOf (strict : Bool) (q : Question) (d : Desk κ) :
    (answerOf strict q d).2.node.registry.selfId = d.node.registry.selfId ∧
      (answerOf strict q d).2.node.registry.leader =
        (assigned? q).or d.node.registry.leader := by
  obtain ⟨m, deadline, method, request⟩ := q
  cases method with
  | buy =>
    have same := (Service.buyEnd_buy strict request d).registry
    simp [answerOf, Service.serve, assigned?, same]
  | query => simp [answerOf, Service.serve, assigned?]
  | health => simp [answerOf, Service.serve, assigned?]
  | assign =>
    have noted := Service.registry_assign request d
    simp [answerOf, Service.serve, assigned?, noted, Registry.assignLeader]
  | fetch => simp [answerOf, Service.serve, assigned?, Registry.mark_selfId, Registry.leader_mark]
  | accept =>
    have same := (Service.acceptEnd_accept request d).registry
    simp [answerOf, Service.serve, assigned?, same]

variable {strict : Bool} {id : NodeId} {d d' : Desk κ}

theorem Stirs.belief (stirs : Stirs d d') :
    d'.node.registry.selfId = d.node.registry.selfId ∧
      d'.node.registry.leader = d.node.registry.leader := by
  cases stirs with
  | @act action other =>
    cases action with
    | assignLeader leader => exact absurd rfl (other leader)
    | mark id status => exact ⟨Registry.mark_selfId _ _ _, Registry.leader_mark _ _ _⟩
    | _ => exact ⟨rfl, rfl⟩
  | disturb outage catalog => exact ⟨rfl, rfl⟩

theorem Meets.belief {x : Exchange Question} {reach : Reach}
    (meets : Meets strict id d x reach d') :
    d'.node.registry.selfId = d.node.registry.selfId ∧
      d'.node.registry.leader = (Incident.called x reach).belief id d.node.registry.leader := by
  cases meets with
  | elsewhere reach other => simp [Incident.belief, other]
  | lost q broken => simp [Incident.belief]
  | @unheard q error here broken => simpa [Incident.belief, here] using belief_answerOf strict q d
  | @answered q here => simpa [Incident.belief, here] using belief_answerOf strict q d

/-- A node stays the node it is, and believes the leader that it heard of last since it was
started. -/
theorem Passes.belief {incidents : List Incident} (passes : Passes strict id d incidents d')
    (own : d.node.registry.selfId = id) :
    d'.node.registry.selfId = id ∧
      d'.node.registry.leader = beliefAfter id d.node.registry.leader incidents := by
  induction passes with
  | nil d => exact ⟨own, rfl⟩
  | stirs stirs rest ih =>
    obtain ⟨self, leader⟩ := stirs.belief
    rw [← leader]
    exact ih (self.trans own)
  | called meets rest ih =>
    obtain ⟨self, leader⟩ := meets.belief
    rw [beliefAfter, List.foldl_cons, ← leader]
    exact ih (self.trans own)
  | @assigned d d' request later rest ih =>
    have noted := Service.registry_assign request d
    rw [noted] at ih
    exact ih own
  | restarted opened rest ih =>
    obtain ⟨_, fresh⟩ := Service.counter_openNode opened
    rw [fresh] at ih
    exact ih rfl

/-! ## Refused buys -/

/-- A buy was refused by a node that does not believe itself to be the leader. -/
def Refused (m : Member) (answer : Except PeerError BuyResponse) : Prop :=
  ∃ known, answer =
    .error (.rejected m.address.text 409 (ServiceError.notLeader m.id known).message)

/-- A strict node refuses a valid buy just if it believes in another leader or in none. -/
theorem refused_iff_of_served {m : Member} {request : BuyRequest} (valid : request.problems = [])
    (own : d.node.registry.selfId = m.id) :
    Refused m (Net.heard m ((Service.buy true request).perform d).1.response) ↔
      d.node.registry.leader ≠ some m.id := by
  have how := Service.buyEnd_buy true request d
  generalize ((Service.buy true request).perform d).1 = outcome,
    ((Service.buy true request).perform d).2 = left_behind at how
  constructor
  · rintro ⟨known, eq⟩ leads
    cases how with
    | invalid wrong => exact wrong valid
    | notLeader _ _ follower => simp [Registry.isSelfLeader, leads, own] at follower
    | _ => simp [BuyOutcome.response, Net.heard, Except.mapError, ServiceError.status] at eq
  · intro other
    have follower : d.node.registry.isSelfLeader = false := by
      simp [Registry.isSelfLeader, own, other]
    cases how with
    | invalid wrong => exact absurd valid wrong
    | notLeader _ _ _ => exact ⟨d.node.registry.leader, by rw [own]; rfl⟩
    | unavailable _ allowed _ => simp [follower] at allowed
    | declined _ allowed _ _ => simp [follower] at allowed
    | exhausted _ allowed _ _ _ => simp [follower] at allowed
    | placed _ allowed _ _ _ _ _ => simp [follower] at allowed
    | lost _ allowed _ _ _ _ => simp [follower] at allowed

/-- A call for a buy is seen to be refused just if it is answered by a node that does not believe
itself to be the leader. -/
theorem Meets.refused_iff {m : Member} {request : BuyRequest} {deadline : Nat}
    {answer : Except PeerError BuyResponse} {reach : Reach}
    (meets : Meets true m.id d ⟨⟨m, deadline, .buy, request⟩, answer⟩ reach d')
    (valid : request.problems = []) (own : d.node.registry.selfId = m.id) :
    Refused m answer ↔ reach = .answered ∧ d.node.registry.leader ≠ some m.id := by
  have unbroken : ∀ error, IsBroken error → ¬ Refused m (.error error) := by
    rintro error broken ⟨known, eq⟩
    cases eq
    exact broken _ _ _ rfl
  cases meets with
  | elsewhere reach other => exact absurd rfl other
  | lost q broken => simp [unbroken _ broken]
  | unheard here broken => simp [unbroken _ broken]
  | answered here =>
    have served : (answerOf true ⟨m, deadline, .buy, request⟩ d).1 =
        Net.heard m ((Service.buy true request).perform d).1.response := by
      simp [answerOf, Service.serve]
    rw [served]
    simpa using refused_iff_of_served valid own

end Node

/-! ## The election and the buy -/

variable {c after : Coordinator}

/-- Of all calls of an election, just one tells the elected node who leads. -/
theorem Election.told_once {exchanged : List (Exchange Question)} {leader : NodeId}
    (election : Election c exchanged (.ok leader, after)) (descending : Descending c.nodes) :
    ∃ chosen ∈ c.nodes, chosen.id = leader ∧ after = { c with leader := some leader } ∧
      ∃ told : Except PeerError AssignmentResponse,
        exchanged.filter (tells leader) = [⟨c.notice chosen chosen, told⟩] := by
  cases election with
  | @won above lower chosen checks notices response split missed told =>
    rw [split] at descending ⊢
    obtain ⟨_, behind, _⟩ := List.pairwise_append.mp descending
    obtain ⟨below, _⟩ := List.pairwise_cons.mp behind
    obtain ⟨first, later, ⟨answer, rfl⟩, told_later, rfl⟩ := List.forall₂_cons_left_iff.mp told
    have no_check : checks.filter (tells chosen.id) = [] := by
      refine List.filter_eq_nil_iff.mpr fun x among => ?_
      obtain ⟨m, _, error, rfl⟩ := exists_of_exchanged missed among
      simp [tells, assigned?, probe]
    have no_lower : later.filter (tells chosen.id) = [] := by
      refine List.filter_eq_nil_iff.mpr fun x among => ?_
      obtain ⟨m, member, told, rfl⟩ := exists_of_exchanged told_later among
      have other : m.id ≠ chosen.id := UInt32.ne_of_lt (below m member)
      simp [tells, notice, other]
    refine ⟨chosen, by simp, rfl, rfl, answer, ?_⟩
    rw [List.filter_append, no_check, List.nil_append, List.filter_cons_of_neg,
      List.filter_cons_of_pos, no_lower]
    · simp [tells, assigned?, notice]
    · simp [tells, assigned?, probe]

/-- Where just one call told a node who leads, that call stands out from all that happened. -/
theorem exists_notice {incidents : List Incident} {id : NodeId} {x : Exchange Question}
    (once : (exchangesOf incidents).filter (tells id) = [x]) :
    ∃ front reach back, incidents = front ++ .called x reach :: back ∧
      ∀ y reached, .called y reached ∈ back → tells id y = false := by
  rw [exchangesOf, List.filter_filterMap] at once
  obtain ⟨front, i, back, rfl, _, here, behind⟩ := List.filterMap_eq_cons_iff.mp once
  have silent := List.filterMap_eq_nil_iff.mp behind
  cases i with
  | called y reach =>
    obtain ⟨same, _⟩ := Option.filter_eq_some_iff.mp here
    cases same
    refine ⟨front, reach, back, rfl, fun other reached among => ?_⟩
    simpa [Incident.exchange?] using silent _ among
  | assigned leader => cases here
  | restarted => cases here

/-- A request that finds a leader believed calls it. -/
theorem path_route {method : Method} {request : method.Request} {leader : NodeId} {m : Member}
    (believed : c.leader = some leader) (found : c.nodes.find? (·.id = leader) = some m)
    {exchanged : List (Exchange Question)}
    {ended : Except CoordinatorError method.Response × Coordinator}
    (path : Path (c.route method request) exchanged ended) :
    ∃ answer later, exchanged = ⟨c.ask method request m, answer⟩ :: later ∧
      Path (serve (c.afterCall method request (c.nodes.length - 1) leader answer) c) later
        ended := by
  have called : c.route method request = .act (c.ask method request m) fun answer =>
      serve (c.afterCall method request (c.nodes.length - 1) leader answer) c := by
    rw [route, routing_eq]
    change serve (c.afterLook method request c.leader) c = _
    rw [believed, afterLook, attempt_eq found]
    rfl
  rw [called] at path
  obtain ⟨answer, later, rfl, rest⟩ := path.of_act
  exact ⟨answer, later, rfl, rest⟩

section Node

variable {κ : Type} [Catalog κ] {d d' : Desk κ} {incidents front back : List Incident}

theorem Passes.meets {strict : Bool} {id : NodeId} {x : Exchange Question} {reach : Reach}
    (passes : Passes strict id d incidents d') (among : .called x reach ∈ incidents) :
    ∃ now later : Desk κ, Meets strict id now x reach later := by
  induction passes with
  | nil d => cases among
  | stirs _ _ ih => exact ih among
  | called meets _ ih =>
    rcases List.mem_cons.mp among with same | behind
    · cases same
      exact ⟨_, _, meets⟩
    · exact ih behind
  | assigned request _ ih => exact ih ((List.mem_cons.mp among).resolve_left nofun)
  | restarted _ _ ih => exact ih ((List.mem_cons.mp among).resolve_left nofun)

/-- Only a call that was heard is acknowledged. -/
theorem Meets.heard {strict : Bool} {id : NodeId} {q : Question} {reach : Reach}
    {answer : Except PeerError q.method.Response} (meets : Meets strict id d ⟨q, answer⟩ reach d')
    (here : q.member.id = id) {response : q.method.Response} (acknowledged : answer = .ok response) :
    reach = .answered := by
  cases meets with
  | elsewhere reach other => exact absurd here other
  | lost q broken => cases acknowledged
  | unheard _ broken => cases acknowledged
  | answered _ => rfl

/-- The node heard who leads from nobody else, and was not started again. -/
def Undisturbed (incidents : List Incident) : Prop :=
  ∀ i ∈ incidents, i.exchange?.isSome = true

/-- Whom a node believes to lead when nothing has happened since it was sent an assignment. -/
theorem beliefAfter_notice {chosen m : Member} {told : Except PeerError AssignmentResponse}
    {reach : Reach} {before : Option NodeId} (undisturbed : Undisturbed back)
    (untold : ∀ y reached, .called y reached ∈ back → tells m.id y = false) :
    beliefAfter m.id before (front ++ .called ⟨c.notice chosen m, told⟩ reach :: back) =
      if reach = .lost then beliefAfter m.id before front else some chosen.id := by
  have idle : ∀ i ∈ back, i.isIdle m.id = true := by
    intro i among
    have call := undisturbed i among
    cases i with
    | called y reached => simp [Incident.isIdle, untold y reached among]
    | assigned leader => cases call
    | restarted => cases call
  have split : beliefAfter m.id before (front ++ .called ⟨c.notice chosen m, told⟩ reach :: back) =
      beliefAfter m.id ((Incident.called ⟨c.notice chosen m, told⟩ reach).belief m.id
        (beliefAfter m.id before front)) back := by
    rw [beliefAfter, List.foldl_append, List.foldl_cons]
    rfl
  rw [split, beliefAfter_of_idle idle]
  by_cases lost : reach = .lost <;> simp [Incident.belief, assigned?, notice, lost]

/-- What its one assignment means for the buy that the elected node is sent. -/
structure Informed (chosen : Member) (before : Option NodeId) (front : List Incident)
    (told : Except PeerError AssignmentResponse) (reach : Reach) (back : List Incident)
    (answer : Except PeerError BuyResponse) (reached : Reach) : Prop where
  /-- Only a node that heard of its assignment acknowledges it. -/
  acknowledged : ∀ response, told = .ok response → reach = .answered
  /-- A node that heard of its assignment does not refuse the buy. -/
  aware : reach ≠ .lost → Undisturbed back → ¬ Refused chosen answer
  /-- A node that did not hear of it refuses each buy that it answers, unless it believed itself to
  be the leader before. -/
  unaware : reach = .lost → Undisturbed back →
    (Refused chosen answer ↔
      reached = .answered ∧ beliefAfter chosen.id before front ≠ some chosen.id)

/-- What comes of an election that named a leader, and of a buy that is sent to that node next: the
node was sent one assignment, on which it depends whether the buy is refused, and a refusal is
final. -/
def Aware (listed : List Member) (c after : Coordinator) (leader : NodeId)
    (d : Desk κ) (incidents : List Incident) (d' : Desk κ) (request : BuyRequest)
    (exchanged : List (Exchange Question))
    (ended : Except CoordinatorError BuyResponse × Coordinator) : Prop :=
  ∃ chosen ∈ listed, chosen.id = leader ∧ ∃ told front reach back answer rest,
    (exchangesOf incidents).filter (tells leader) = [⟨c.notice chosen chosen, told⟩] ∧
    incidents = front ++ .called ⟨c.notice chosen chosen, told⟩ reach :: back ∧
    exchanged = ⟨c.ask .buy request chosen, answer⟩ :: rest ∧
    (∀ reached d'', Meets true leader d' ⟨c.ask .buy request chosen, answer⟩ reached d'' →
      Informed chosen d.node.registry.leader front told reach back answer reached) ∧
    (Refused chosen answer → rest = [] ∧ ended = (answer.mapError .peer, after))

/-- In a cluster of strict nodes, a node that heard of its election refuses no buy for not being the
leader; an election whose assignment was lost may name a node that refuses them all. -/
theorem aware_of_elected {listed : List Member} {healthDeadline rpcDeadline : Nat}
    {belief stale : Option NodeId} {leader : NodeId}
    (opened : c = { ofMembers listed healthDeadline rpcDeadline with leader := belief })
    (due : c.leader = none ∨ c.leader = stale)
    (elected : Path (c.elect stale) (exchangesOf incidents) (.ok leader, after))
    (own : d.node.registry.selfId = leader) (passes : Passes true leader d incidents d')
    {request : BuyRequest} (valid : request.problems = [])
    {exchanged : List (Exchange Question)}
    {ended : Except CoordinatorError BuyResponse × Coordinator}
    (bought : Path (after.buy request) exchanged ended) :
    Aware listed c after leader d incidents d' request exchanged ended := by
  have nodes : c.nodes = walk listed := by rw [opened]; rfl
  have descending : Descending c.nodes := nodes ▸ descending_walk listed
  have election := (path_elect elected).of_due due
  obtain ⟨chosen, member, rfl, rfl, told, once⟩ := election.told_once descending
  obtain ⟨front, reach, back, split, untold⟩ := exists_notice once
  obtain ⟨answer, rest, called, after_call⟩ :=
    path_route (c := { c with leader := some chosen.id }) rfl (descending.find? member) bought
  refine ⟨chosen, mem_walk (nodes ▸ member), rfl, told, front, reach, back, answer, rest, once,
    split, called, fun reached d'' meets => ?_, ?_⟩
  · obtain ⟨self, believes⟩ := passes.belief own
    have decided := meets.refused_iff valid self
    rw [believes, split] at decided
    constructor
    · intro response acknowledged
      obtain ⟨now, later, notice_meets⟩ := passes.meets
        (split ▸ List.mem_append_right front List.mem_cons_self)
      exact notice_meets.heard rfl acknowledged
    · intro heard undisturbed refused
      rw [beliefAfter_notice undisturbed untold, if_neg heard] at decided
      exact (decided.mp refused).2 rfl
    · intro lost undisturbed
      rwa [beliefAfter_notice undisturbed untold, if_pos lost] at decided
  · rintro ⟨known, rfl⟩
    rw [afterCall_refused rfl] at after_call
    exact after_call.of_done

end Node

/-! ## One node -/

/-- The only node of its cluster. -/
def loner : Member := { id := 1, address := ⟨"node-1", 1700⟩ }

/-- The only node, just opened over an empty log. -/
def newcomer : Desk OverriddenCatalog where
  node :=
    { storage := { log := .table { medium := .inMemory } }
      counter := .startingAbove 0
      registry := .ofMembers 1 [loner] }
  catalog := { stock := {}, onTake := some (.ok .applied) }

/-- The coordinator of the only node, and whom it believes to lead. -/
def lonely (belief : Option NodeId) : Coordinator :=
  { ofMembers [loner] 1000 2000 with leader := belief }

def alone (told : Except PeerError AssignmentResponse) (reach : Reach) : List Incident :=
  [.called ⟨(lonely none).probe loner, (.ok .online : Except PeerError HealthResponse)⟩ .answered,
    .called ⟨(lonely none).notice loner loner, told⟩ reach]

theorem lonely_eq (belief : Option NodeId) : lonely belief = ⟨[loner], 1000, 2000, belief⟩ :=
  congrArg (Coordinator.mk · 1000 2000 belief) (walk_of_descending (by decide))

/-- The only node is elected whatever becomes of its assignment. -/
theorem elected_alone (told : Except PeerError AssignmentResponse) (reach : Reach) :
    Path ((lonely none).elect none) (exchangesOf (alone told reach)) (.ok 1, lonely (some 1)) := by
  rw [alone, lonely_eq, lonely_eq]
  refine .act (probe ⟨[loner], 1000, 2000, none⟩ loner) _ (Except.ok HealthResponse.online) ?_
  refine .act (notice ⟨[loner], 1000, 2000, none⟩ loner loner) _ told ?_
  exact .done _

/-- Where there is only one node, its answer is final. -/
theorem bought_alone (request : BuyRequest) (answer : Except PeerError BuyResponse) :
    Path ((lonely (some 1)).buy request) [⟨(lonely none).ask .buy request loner, answer⟩]
      (answer.mapError .peer, lonely (some 1)) := by
  rw [lonely_eq, lonely_eq]
  refine .act (ask ⟨[loner], 1000, 2000, none⟩ .buy request loner) _ answer ?_
  cases answer with
  | ok response => exact .done _
  | error e => cases e <;> exact .done _

/-- The node acknowledges its assignment, and then the first order is placed. -/
theorem aware_loner :
    ∃ (response : AssignmentResponse) (d' d'' : Desk OverriddenCatalog),
      Passes true 1 newcomer (alone (.ok response) .answered) d' ∧
      Meets true 1 d' ⟨(lonely none).ask .buy ⟨"Fox", 1⟩ loner,
        (.ok (.placed 1) : Except PeerError BuyResponse)⟩ .answered d'' ∧
      Aware [loner] (lonely none) (lonely (some 1)) 1 newcomer (alone (.ok response) .answered) d'
        ⟨"Fox", 1⟩
        [⟨(lonely none).ask .buy ⟨"Fox", 1⟩ loner,
          (.ok (.placed 1) : Except PeerError BuyResponse)⟩]
        (.ok (.placed 1), lonely (some 1)) := by
  have passes : Passes true 1 newcomer
      (alone (.ok ⟨"Received the leader id: 1, I am the leader!"⟩) .answered)
      (answerOf true ((lonely none).notice loner loner) newcomer).2 :=
    .called (.answered newcomer rfl) (.called (.answered newcomer rfl) (.nil _))
  refine ⟨_, _, _, passes, .answered _ rfl, ?_⟩
  exact aware_of_elected rfl (Or.inl rfl) (elected_alone _ _) rfl passes rfl
    (bought_alone ⟨"Fox", 1⟩ (.ok (.placed 1)))

/-- A node whose assignment is lost is elected without having acknowledged anything, and refuses the
buy that it is sent next; the coordinator goes on believing in it. -/
theorem unaware_loner :
    ∃ (error : PeerError) (d'' : Desk OverriddenCatalog),
      Path ((lonely none).elect none) (exchangesOf (alone (.error error) .lost))
        (.ok 1, lonely (some 1)) ∧
      Passes true 1 newcomer (alone (.error error) .lost) newcomer ∧
      Undisturbed (alone (.error error) .lost) ∧
      (∀ response : AssignmentResponse,
        ⟨(lonely none).notice loner loner, (.ok response : Except PeerError AssignmentResponse)⟩ ∉
          exchangesOf (alone (.error error) .lost)) ∧
      ∃ answer : Except PeerError BuyResponse,
        Meets true 1 newcomer ⟨(lonely none).ask .buy ⟨"Fox", 1⟩ loner, answer⟩ .answered d'' ∧
        answer = .error (.rejected "node-1:1700" 409
          "node 1 is not the leader (current leader: unknown)") ∧
        Path ((lonely (some 1)).buy ⟨"Fox", 1⟩)
          [⟨(lonely none).ask .buy ⟨"Fox", 1⟩ loner, answer⟩]
          (answer.mapError .peer, lonely (some 1)) := by
  have broken : IsBroken (.timeout "node-1:1700" (.millis 2000)) := fun _ _ _ => nofun
  refine ⟨.timeout "node-1:1700" (.millis 2000), _, elected_alone _ _,
    .called (.answered newcomer rfl) (.called (.lost newcomer _ broken) (.nil _)), ?_, ?_, _,
    .answered newcomer rfl, ?_, bought_alone _ _⟩
  · intro i among
    rcases List.mem_cons.mp among with rfl | among
    · rfl
    · rw [List.mem_singleton.mp among]
      rfl
  · intro response acknowledged
    rcases List.mem_cons.mp acknowledged with check | acknowledged
    · cases check
    · cases List.mem_singleton.mp acknowledged
  · rfl

end OrderCluster.Coordinator
