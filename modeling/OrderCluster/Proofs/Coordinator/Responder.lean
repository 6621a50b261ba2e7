import OrderCluster.Proofs.Coordinator.Sharing
import OrderCluster.Proofs.Coordinator.Walk
import OrderCluster.Rpc.Scripted

/-!
# The highest node that answers is elected

An election that is due checks the listed nodes in descending order until one of them answers in
time, and tells that node and all lower ones who leads, whatever becomes of the assignments. Each
listed id is checked at most once and told at most once, however often it is listed. From then on the
elected node is returned to every caller without a message, until a caller has seen that very node
fail.
-/

namespace OrderCluster.Coordinator

open Program (Path)

/-! ## Whom an election contacts -/

/-- The ids of the nodes that were asked, in the order in which they were asked. -/
def asked (exchanged : List (Exchange Question)) : List NodeId :=
  exchanged.map fun x => x.action.member.id

/-- Of all listed ids, just those in some range were asked, each of them once and in descending
order. -/
structure Sweeps (listed : List Member) (range : NodeId → Prop)
    (exchanged : List (Exchange Question)) : Prop where
  descending : (asked exchanged).Pairwise fun a b => b < a
  covered : ∀ id, id ∈ asked exchanged ↔ range id ∧ ∃ m ∈ listed, m.id = id

/-- What is exchanged in an election that a node wins. -/
structure Won (listed : List Member) (c : Coordinator) (leader : Member)
    (exchanged : List (Exchange Question)) : Prop where
  member : leader ∈ listed
  /-- Every higher node was checked and failed, and no lower node was checked; then the node itself
  and every lower one were told, whatever they answered. -/
  phases : ∃ checks response notices,
    exchanged = checks ++ ⟨c.probe leader, .ok response⟩ :: notices ∧
      (∀ x ∈ checks, ∃ m, c.Missed m x) ∧ Sweeps listed (leader.id < ·) checks ∧
      (∀ x ∈ notices, ∃ m, c.Told leader m x) ∧ Sweeps listed (· ≤ leader.id) notices

section Sweeping

variable {c : Coordinator} {listed nodes : List Member} {exchanged : List (Exchange Question)}

theorem asked_of_paired {R : Member → Exchange Question → Prop}
    (of : ∀ {m x}, R m x → x.action.member = m) (paired : List.Forall₂ R nodes exchanged) :
    asked exchanged = nodes.map Member.id := by
  induction paired with
  | nil => rfl
  | cons now later ih =>
    rw [asked, List.map_cons, List.map_cons, of now]
    exact congrArg _ ih

theorem Missed.member {m : Member} {x : Exchange Question} (missed : c.Missed m x) :
    x.action.member = m := by
  obtain ⟨error, rfl⟩ := missed
  rfl

theorem Told.member {leader m : Member} {x : Exchange Question} (told : c.Told leader m x) :
    x.action.member = m := by
  obtain ⟨answer, rfl⟩ := told
  rfl

/-- Just the listed ids are walked. -/
theorem walked_iff (listed : List Member) (id : NodeId) :
    (∃ m ∈ walk listed, m.id = id) ↔ ∃ m ∈ listed, m.id = id := by
  constructor
  · rintro ⟨m, walked, named⟩
    exact ⟨m, mem_walk walked, named⟩
  · rintro ⟨m, member, rfl⟩
    exact walk_covers member

/-- A range of ids is swept by asking the nodes of the walk that are in it, one after the other. -/
theorem sweeps_of_paired {R : Member → Exchange Question → Prop} {range : NodeId → Prop}
    {others : List Member} (of : ∀ {m x}, R m x → x.action.member = m)
    (paired : List.Forall₂ R nodes exchanged) (descending : Descending nodes)
    (whole : ∀ m, m ∈ walk listed ↔ m ∈ nodes ∨ m ∈ others) (inside : ∀ m ∈ nodes, range m.id)
    (outside : ∀ m ∈ others, ¬ range m.id) : Sweeps listed range exchanged := by
  constructor
  · rw [asked_of_paired of paired]
    exact List.pairwise_map.mpr descending
  · intro id
    rw [asked_of_paired of paired, List.mem_map, ← walked_iff listed]
    constructor
    · rintro ⟨m, among, rfl⟩
      exact ⟨inside m among, m, (whole m).mpr (Or.inl among), rfl⟩
    · rintro ⟨in_range, m, walked, rfl⟩
      rcases (whole m).mp walked with among | beside
      · exact ⟨m, among, rfl⟩
      · exact absurd in_range (outside m beside)

/-- An election that is run contacts the nodes as it should. -/
theorem Election.won_or_nobody {answer : Except CoordinatorError NodeId} {after : Coordinator}
    (election : Election c exchanged (answer, after)) (opened : c.nodes = walk listed) :
    (∃ leader, Won listed c leader exchanged ∧ answer = .ok leader.id ∧
        after = { c with leader := some leader.id }) ∨
      (∀ x ∈ exchanged, ∃ m, c.Missed m x) ∧ Sweeps listed (fun _ => True) exchanged ∧
        answer = .error .clusterUnreachable ∧ after = { c with leader := none } := by
  have descending : Descending (walk listed) := descending_walk listed
  cases election with
  | nobody missed =>
    refine Or.inr ⟨fun x among => ?_, ?_, rfl, rfl⟩
    · obtain ⟨m, _, failed⟩ := exists_of_exchanged missed among
      exact ⟨m, failed⟩
    · rw [opened] at missed
      have whole : ∀ m, m ∈ walk listed ↔ m ∈ walk listed ∨ m ∈ ([] : List Member) := by simp
      exact sweeps_of_paired Missed.member missed descending whole (by simp) (by simp)
  | @won above lower chosen checks notices response split missed told =>
    rw [← opened, split] at descending
    obtain ⟨above_descending, behind_descending, apart⟩ := List.pairwise_append.mp descending
    have whole : ∀ m, m ∈ walk listed ↔ m ∈ above ∨ m ∈ chosen :: lower := by
      intro m
      rw [← opened, split, List.mem_append]
    have higher : ∀ m ∈ above, chosen.id < m.id := fun m among =>
      apart m among chosen List.mem_cons_self
    have not_higher : ∀ m ∈ chosen :: lower, m.id ≤ chosen.id := by
      rintro m (_ | ⟨_, among⟩)
      · exact UInt32.le_refl _
      · exact UInt32.le_of_lt ((List.pairwise_cons.mp behind_descending).1 m among)
    refine Or.inl ⟨chosen, ⟨?_, checks, response, notices, rfl, ?_, ?_, ?_, ?_⟩, rfl, rfl⟩
    · exact mem_walk ((whole chosen).mpr (Or.inr List.mem_cons_self))
    · intro x among
      obtain ⟨m, _, failed⟩ := exists_of_exchanged missed among
      exact ⟨m, failed⟩
    · exact sweeps_of_paired Missed.member missed above_descending whole higher
        fun m behind => UInt32.not_lt.mpr (not_higher m behind)
    · intro x among
      obtain ⟨m, _, heard⟩ := exists_of_exchanged told among
      exact ⟨m, heard⟩
    · exact sweeps_of_paired Told.member told behind_descending
        (fun m => (whole m).trans or_comm) not_higher
        fun m before => UInt32.not_le.mpr (higher m before)

end Sweeping

/-! ## What later callers find -/

/-- Turns at a coordinator, one after the other; it does not matter whose they are, nor how many
callers there are. -/
inductive Turns : Coordinator → List Event → Coordinator → Prop where
  | nil (c : Coordinator) : Turns c [] c
  | cons {c c' after : Coordinator} {turn : Turn} {exchanged : List (Exchange Question)}
    {answer : turn.Answer} {later : List Event}
    (path : Path (turn.take c) exchanged (answer, c')) (rest : Turns c' later after) :
    Turns c (.ofTurn turn exchanged answer :: later) after

/-- Nobody has seen a leader fail. -/
def Unharmed (leader : NodeId) (events : List Event) : Prop :=
  ∀ exchanged answer, Event.elected (some leader) exchanged answer ∉ events

/-- What elections come to while a leader stays: it is returned, and nobody is contacted. -/
def Settled (leader : NodeId) (events : List Event) : Prop :=
  ∀ stale exchanged answer, Event.elected stale exchanged answer ∈ events →
    exchanged = [] ∧ answer = .ok leader

section Staying

variable {c after : Coordinator} {leader : NodeId}

/-- A turn leaves a believed leader alone, unless it is an election for its failure. -/
theorem settled_of_path {turn : Turn} {exchanged : List (Exchange Question)}
    {answer : turn.Answer} (believed : c.leader = some leader)
    (path : Path (turn.take c) exchanged (answer, after))
    (unharmed : Unharmed leader [.ofTurn turn exchanged answer]) :
    after = c ∧ Settled leader [.ofTurn turn exchanged answer] := by
  cases turn with
  | look =>
    obtain ⟨_, _, rfl⟩ := path_look path
    exact ⟨rfl, fun stale exchanged answer among => by simp [Event.ofTurn] at among⟩
  | call q =>
    obtain ⟨_, rfl⟩ := path_call path
    exact ⟨rfl, fun stale exchanged answer among => by simp [Event.ofTurn] at among⟩
  | elect stale =>
    have other : stale ≠ some leader := by
      rintro rfl
      exact unharmed exchanged answer (List.mem_singleton.mpr rfl)
    obtain ⟨rfl, result⟩ := (path_elect path).of_believed believed other
    cases result
    refine ⟨rfl, fun stale exchanged answer among => ?_⟩
    cases List.mem_singleton.mp among
    exact ⟨rfl, rfl⟩

/-- A leader that is believed once is returned to all callers, without a message, until one of them
has seen it fail. -/
theorem Turns.settled {events : List Event} (turns : Turns c events after)
    (believed : c.leader = some leader) (unharmed : Unharmed leader events) :
    after.leader = some leader ∧ Settled leader events := by
  induction turns with
  | nil c => exact ⟨believed, fun stale exchanged answer none_yet => by cases none_yet⟩
  | cons path rest ih =>
    obtain ⟨rfl, now⟩ := settled_of_path believed path fun exchanged answer first =>
      unharmed exchanged answer (List.mem_cons.mpr (Or.inl (List.mem_singleton.mp first)))
    obtain ⟨still, later⟩ := ih believed fun exchanged answer among =>
      unharmed exchanged answer (List.mem_cons_of_mem _ among)
    refine ⟨still, fun stale exchanged answer among => ?_⟩
    rcases List.mem_cons.mp among with first | behind
    · exact now stale exchanged answer (List.mem_singleton.mpr first)
    · exact later stale exchanged answer behind

end Staying

/-! ## Elections -/

/-- What is promised of a wish for an election at a coordinator of listed nodes. -/
structure Elects (listed : List Member) (c : Coordinator) (stale : Option NodeId)
    (exchanged : List (Exchange Question)) (answer : Except CoordinatorError NodeId)
    (after : Coordinator) : Prop where
  /-- Where another leader is believed than the one that was seen to fail, nobody is contacted and
  nothing changes. -/
  kept : ∀ current, c.leader = some current → stale ≠ some current →
    exchanged = [] ∧ answer = .ok current ∧ after = c
  /-- Otherwise a node wins, or all of them were checked and failed, and nobody is told anything. -/
  walked : c.leader = none ∨ c.leader = stale →
    (∃ leader, Won listed c leader exchanged ∧ answer = .ok leader.id ∧
        after = { c with leader := some leader.id }) ∨
      (∀ x ∈ exchanged, ∃ m, c.Missed m x) ∧ Sweeps listed (fun _ => True) exchanged ∧
        answer = .error .clusterUnreachable ∧ after = { c with leader := none }
  /-- A check succeeds just if it arrives within the deadline of health checks and is answered
  without an error. -/
  timely : ∀ {σ : Type} [Peers σ] (peers : σ) (m : Member) (response : HealthResponse),
    ((c.probe m).perform peers).1 = .ok response ↔
      (Peers.depart peers m .health .probe).1.delay ≤ c.healthDeadline ∧
        (Peers.arrive (Peers.depart peers m .health .probe).2 m
          (Peers.depart peers m .health .probe).1 .health .probe).1 = .ok response
  /-- Until a caller has seen the elected node fail, it is returned to all callers without a
  message. -/
  steady : ∀ leader, answer = .ok leader → ∀ events later, Turns after events later →
    Unharmed leader events → later.leader = some leader ∧ Settled leader events

theorem perform_probe (c : Coordinator) {σ : Type} [Peers σ] (peers : σ) (m : Member)
    (response : HealthResponse) :
    ((c.probe m).perform peers).1 = .ok response ↔
      (Peers.depart peers m .health .probe).1.delay ≤ c.healthDeadline ∧
        (Peers.arrive (Peers.depart peers m .health .probe).2 m
          (Peers.depart peers m .health .probe).1 .health .probe).1 = .ok response := by
  by_cases timely : (Peers.depart peers m .health .probe).1.delay ≤ c.healthDeadline <;>
    simp [Question.perform, Peers.call, probe, timely]

/-- Whoever is believed and however the nodes behave, an election elects the highest node that
answers. -/
theorem elects_of_path {listed : List Member} {healthDeadline rpcDeadline : Nat}
    {belief stale : Option NodeId} {c : Coordinator}
    (opened : c = { ofMembers listed healthDeadline rpcDeadline with leader := belief })
    {exchanged : List (Exchange Question)} {answer : Except CoordinatorError NodeId}
    {after : Coordinator} (path : Path (c.elect stale) exchanged (answer, after)) :
    Elects listed c stale exchanged answer after := by
  have elected := path_elect path
  have nodes : c.nodes = walk listed := by rw [opened]; rfl
  constructor
  · intro current believed other
    obtain ⟨silent, result⟩ := elected.of_believed believed other
    cases result
    exact ⟨silent, rfl, rfl⟩
  · exact fun due => (elected.of_due due).won_or_nobody nodes
  · exact fun peers m response => perform_probe c peers m response
  · intro leader named events later turns unharmed
    rcases elected.belief with ⟨id, same, believed⟩ | ⟨nobody, _⟩
    · cases named.symm.trans same
      exact turns.settled believed unharmed
    · cases named.symm.trans nobody

/-- Three nodes: the highest is dead, the next answers health checks and nothing else. -/
def reluctant : ScriptedPeers :=
  ⟨[{ id := 3, manner := .down }, { id := 2, manner := .rejects, only := [.assign] }, { id := 1 }]⟩

/-- The dead leader is replaced by the next node, though that node refuses its assignment. -/
theorem elects_reluctant :
    ∃ c : Coordinator, c = { ofMembers reluctant.members 1000 2000 with leader := some 3 } ∧
      ((c.elect (some 3)).exchanges Question.perform reluctant).map
        (fun x => (x.action.member.id, x.action.method)) =
          [(3, .health), (2, .health), (2, .assign), (1, .assign)] ∧
      ((c.elect (some 3)).run Question.perform reluctant).1 = (.ok 2, { c with leader := some 2 }) ∧
      Elects reluctant.members c (some 3) ((c.elect (some 3)).exchanges Question.perform reluctant)
        (.ok 2) { c with leader := some 2 } := by
  have listed : ofMembers reluctant.members 1000 2000 = ⟨reluctant.members, 1000, 2000, none⟩ :=
    congrArg (Coordinator.mk · 1000 2000 none) (walk_of_descending (by decide))
  have run : ((elect { ofMembers reluctant.members 1000 2000 with leader := some 3 } (some 3)).run
      Question.perform reluctant).1 =
        (.ok 2, { ofMembers reluctant.members 1000 2000 with leader := some 2 }) := by
    rw [listed]
    cbv
  refine ⟨_, rfl, ?_, run, elects_of_path rfl ?_⟩
  · rw [listed]
    cbv
  · rw [← run]
    exact Program.path_run _ _ _

end OrderCluster.Coordinator
