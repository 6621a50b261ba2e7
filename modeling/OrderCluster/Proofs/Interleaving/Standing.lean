import OrderCluster.Proofs.Interleaving.Marking
import OrderCluster.Proofs.Interleaving.Station
import OrderCluster.Proofs.Registry

/-!
# Who is called, and whose status changes

A sync or a push takes a look at the registry when it begins. Its calls may wait long for a lane,
and by then other operations may have noted other statuses; still they go to nobody but the peers
that were active at that moment. A status changes only where an operation has a reason: a call that
failed, a fetch by the peer itself, or an explicit mark.
-/

namespace OrderCluster.Interleaving

open Replication

/-- Whether an operation has nothing to say about statuses. -/
def Operation.isMute : Operation → Bool
  | .buy .. | .query _ | .assign _ | .accept _ | .status => true
  | _ => false

/-- An operation that has nothing to say about statuses may mark none. -/
theorem not_mayDo_of_mute {operation : Operation} (mute : operation.isMute = true)
    {trace : List Event} {id : NodeId} {status : Status} :
    ¬ MayDo operation trace (.mark id status) := by
  have silent : operation.callsPeers = false := by
    cases operation with
    | sync | push => cases mute
    | _ => rfl
  intro allowed
  cases status with
  | active =>
    rcases allowed with rfl | ⟨request, rfl, _⟩
    · cases mute
    · cases mute
  | offline =>
    rcases allowed with rfl | ⟨calls, _⟩
    · cases mute
    · rw [silent] at calls
      cases calls

namespace Station

variable {κ σ : Type} [Catalog κ] [Peers σ]

def status? (s : Station κ σ) (id : NodeId) : Option Status := s.desk.node.registry.status? id

/-- A step in which an operation does an action. -/
def Performs (s : Station κ σ) (ticket : Nat) (operation : Operation) (trace : List Event)
    (action : Action) (s' : Station κ σ) : Prop :=
  ∃ (front back : List (Nat × Thread)) (next : action.Answer → Work Outcome),
    s.threads = front ++ (ticket, ⟨operation, trace, .act action next⟩) :: back ∧
      s'.desk = (action.perform s.desk).2 ∧
      s'.threads = front ++
        (ticket, ⟨operation, trace ++ [.did action (action.perform s.desk).1],
          next (action.perform s.desk).1⟩) :: back

/-- Between two moments of a run, an operation began with a look at a registry. -/
def Began (first s : Station κ σ) (ticket : Nat) (operation : Operation) (registry : Registry) :
    Prop :=
  ∃ s₀ s₁, Run first s₀ ∧ s₀.Performs ticket operation [] .registry s₁ ∧ s₀.Step s₁ ∧ Run s₁ s ∧
    s₀.desk.node.registry = registry

theorem Began.step {first s s' : Station κ σ} {ticket : Nat} {operation : Operation}
    {registry : Registry} (began : Began first s ticket operation registry) (step : s.Step s') :
    Began first s' ticket operation registry := by
  obtain ⟨s₀, s₁, before, performs, now, later, saw⟩ := began
  exact ⟨s₀, s₁, before, performs, now, later.tail step, saw⟩

/-- A call that was made for an operation which saw its peer active. -/
def Justified (first s : Station κ σ) (call : Call) : Prop :=
  ∃ operation registry, operation.callsPeers = true ∧
    Began first s call.ticket operation registry ∧ call.member ∈ registry.activePeers

/-- What holds of an operation in the list of those that were begun. -/
structure Entry (first s : Station κ σ) (ticket : Nat) (t : Thread) : Prop where
  heeds : Heeds t.operation t.trace t.rest
  /-- What it saw of the registry it saw when it began. -/
  began : ∀ registry, looked? t.trace = some registry → Began first s ticket t.operation registry
  /-- What it heard of its calls has become of them. -/
  heard : ∀ member verdict, .landed member verdict ∈ t.trace →
    ∃ errand, (⟨ticket, member, errand⟩, verdict) ∈ s.landed

/-- A registry of one node in which only listed nodes are known. -/
structure Listed (selfId : NodeId) (listed : List Member) (r : Registry) : Prop where
  ordered : r.Ordered
  own : r.selfId = selfId
  known : ∀ m ∈ r.members, ∃ l ∈ listed, l.id = m.id

/-- What every step keeps. -/
structure Invariant (selfId : NodeId) (listed : List Member) (first s : Station κ σ) : Prop where
  registry : Listed selfId listed s.desk.node.registry
  entries : ∀ e ∈ s.threads, Entry first s e.1 e.2
  calls : ∀ call ∈ s.lanes.calls, Justified first s call
  landed : ∀ e ∈ s.landed, Justified first s e.1

/-! ## The registry -/

/-- Only marks and assignments touch the registry. -/
theorem registry_perform (action : Action) (d : Desk κ) :
    (action.perform d).2.node.registry = d.node.registry ∨
      (∃ id status, action = .mark id status ∧
        (action.perform d).2.node.registry = (d.node.registry.mark id status).2) ∨
      ∃ id, action = .assignLeader id ∧
        (action.perform d).2.node.registry = d.node.registry.assignLeader id := by
  cases action with
  | mark id status => exact Or.inr (Or.inl ⟨id, status, rfl, rfl⟩)
  | assignLeader id => exact Or.inr (Or.inr ⟨id, rfl, rfl⟩)
  | _ => exact Or.inl rfl

theorem Listed.of_map {selfId : NodeId} {listed : List Member} {r r' : Registry}
    (sound : Listed selfId listed r) (ordered : r'.Ordered) (own : r'.selfId = r.selfId)
    {change : Member → Member} (same_id : ∀ m, (change m).id = m.id)
    (members : r'.members = r.members.map change) : Listed selfId listed r' := by
  refine ⟨ordered, own.trans sound.own, fun m member => ?_⟩
  rw [members] at member
  obtain ⟨old, among, rfl⟩ := List.mem_map.mp member
  rw [same_id]
  exact sound.known old among

theorem Listed.perform {selfId : NodeId} {listed : List Member} {d : Desk κ}
    (sound : Listed selfId listed d.node.registry) (action : Action) :
    Listed selfId listed (action.perform d).2.node.registry := by
  rcases registry_perform action d with same | ⟨id, status, _, marked⟩ | ⟨id, _, assigned⟩
  · rw [same]
    exact sound
  · rw [marked]
    exact sound.of_map (Registry.ordered_mark sound.ordered id status)
      (Registry.mark_selfId _ _ _) (Registry.marked_id id status)
      (sound.ordered.members_mark id status)
  · rw [assigned]
    exact sound.of_map (Registry.ordered_assignLeader sound.ordered id) rfl
      (fun m => by split <;> rfl) rfl

theorem listed_ofMembers (selfId : NodeId) (listed : List Member) :
    Listed selfId listed (.ofMembers selfId listed) := by
  refine ⟨Registry.ordered_ofMembers selfId listed, rfl, fun m member => ?_⟩
  have kept : ∀ held : List Member,
      m ∈ listed.foldl (fun held m => Registry.place m held) held → m ∈ held ∨ m ∈ listed := by
    clear member
    induction listed with
    | nil => exact fun held among => Or.inl among
    | cons first rest ih =>
      intro held among
      rcases ih _ among with placed | later
      · rcases Registry.mem_place placed with rfl | old
        · exact Or.inr List.mem_cons_self
        · exact Or.inl old
      · exact Or.inr (List.mem_cons_of_mem _ later)
  rcases kept [] member with nowhere | among
  · cases nowhere
  · exact ⟨m, among, rfl⟩

/-- An action that changes a status is a mark with that status. -/
theorem mark_of_changed {action : Action} {d : Desk κ} {id : NodeId}
    (changed : (action.perform d).2.node.registry.status? id ≠ d.node.registry.status? id) :
    ∃ status, action = .mark id status ∧
      (action.perform d).2.node.registry.status? id = some status := by
  rcases registry_perform action d with same | ⟨other, status, rfl, marked⟩ | ⟨leader, _, assigned⟩
  · rw [same] at changed
    exact absurd rfl changed
  · rw [marked, Registry.status?_mark] at changed ⊢
    by_cases eq : id = other
    · subst eq
      refine ⟨status, rfl, ?_⟩
      rw [if_pos rfl] at changed ⊢
      cases before : d.node.registry.status? id with
      | none =>
        rw [before] at changed
        exact absurd rfl changed
      | some _ => rfl
    · rw [if_neg eq] at changed
      exact absurd rfl changed
  · rw [assigned, Registry.status?_assignLeader] at changed
    exact absurd rfl changed

/-! ## One step -/

section Steps

variable {first s s' : Station κ σ} {selfId : NodeId} {listed : List Member}

theorem Entry.step {ticket : Nat} {t : Thread} (entry : Entry first s ticket t) (step : s.Step s')
    (heard : ∀ e ∈ s.landed, e ∈ s'.landed) : Entry first s' ticket t := by
  refine ⟨entry.heeds, fun registry saw => (entry.began registry saw).step step, ?_⟩
  intro member verdict told
  obtain ⟨errand, landed⟩ := entry.heard member verdict told
  exact ⟨errand, heard _ landed⟩

theorem Justified.step {call : Call} (justified : Justified first s call) (step : s.Step s') :
    Justified first s' call := by
  obtain ⟨operation, registry, calls, began, active⟩ := justified
  exact ⟨operation, registry, calls, began.step step, active⟩

/-- The operation that goes on keeps to the rules. -/
theorem Entry.move {ticket : Nat} {t t' : Thread} {d' : Desk κ} {front back : List (Nat × Thread)}
    (run : Run first s) (among : s.threads = front ++ (ticket, t) :: back)
    (moved : t.Step (fun member errand verdict => (⟨ticket, member, errand⟩, verdict) ∈ s.landed)
      s.desk d' t')
    (step : s.Step s') (desk : s'.desk = d') (threads : s'.threads = front ++ (ticket, t') :: back)
    (landed : s'.landed = s.landed) (entry : Entry first s ticket t) :
    Entry first s' ticket t' := by
  have heeds := moved.heeds entry.heeds
  have later := entry.step step fun e before => landed ▸ before
  cases moved with
  | act operation trace action next =>
    refine ⟨heeds, fun registry saw => ?_, fun member verdict told => ?_⟩
    · cases trace with
      | nil =>
        -- the first action: this is the moment at which the operation begins
        cases action with
        | registry =>
          cases saw
          exact ⟨s, s', run, ⟨front, back, next, among, desk, threads⟩, step, .refl, rfl⟩
        | _ => cases saw
      | cons e rest => exact later.began registry saw
    · rcases List.mem_append.mp told with old | new
      · exact later.heard member verdict old
      · cases List.mem_singleton.mp new
  | land operation trace purpose waiting ended called allowed =>
    obtain ⟨_, calls⟩ := entry.heeds
    refine ⟨heeds, fun registry saw => ?_, fun member verdict told => ?_⟩
    · obtain ⟨seen, before, _⟩ := calls _ called
      cases (looked?_append before [_]).symm.trans saw
      exact later.began _ before
    · rcases List.mem_append.mp told with old | new
      · exact later.heard member verdict old
      · cases List.mem_singleton.mp new
        exact ⟨_, landed ▸ allowed⟩
  | conclude operation trace purpose ended => exact ⟨heeds, later.began, later.heard⟩

/-- The calls that an operation asks for go to peers that it saw active. -/
theorem Entry.launches {ticket : Nat} {t : Thread} (entry : Entry first s ticket t) {call : Call}
    (launched : call ∈ t.launches ticket) : Justified first s call := by
  obtain ⟨operation, trace, rest⟩ := t
  unfold Thread.launches at launched
  split at launched
  · rename_i purpose members calling
    dsimp only at calling
    obtain ⟨m, called, rfl⟩ := List.mem_map.mp launched
    have heeds := entry.heeds
    dsimp only at heeds
    rw [calling] at heeds
    obtain ⟨calls, saw⟩ := heeds
    obtain ⟨registry, before, active⟩ := saw m called
    exact ⟨operation, registry, calls, entry.began registry before, active⟩
  · cases launched

theorem Invariant.step (invariant : Invariant selfId listed first s) (run : Run first s)
    (step : s.Step s') : Invariant selfId listed first s' := by
  obtain ⟨registry, entries, calls, landed⟩ := invariant
  have kept := step
  cases step with
  | begin operation fresh =>
    refine ⟨registry, fun e member => ?_, fun call called => (calls call called).step kept,
      fun e member => (landed e member).step kept⟩
    rcases List.mem_append.mp member with old | new
    · exact (entries e old).step kept fun _ before => before
    · rw [List.mem_singleton.mp new]
      refine ⟨heeds_start operation, fun seen saw => ?_, fun member verdict told => ?_⟩
      · cases saw
      · cases told
  | @move ticket t t' d' front back among moved =>
    have mine : Entry first s ticket t :=
      entries (ticket, t) (among ▸ List.mem_append_right _ List.mem_cons_self)
    have goes_on := mine.move run among moved kept rfl rfl rfl
    refine ⟨?_, fun e member => ?_, fun call called => ?_, fun e member => (landed e member).step kept⟩
    · cases moved with
      | act operation trace action next => exact registry.perform action
      | land | conclude => exact registry
    · rcases mem_of_replaced member (ticket, t) with rfl | other
      · exact goes_on
      · exact (entries e (among ▸ other)).step kept fun _ landed => landed
    · rw [Lanes.enqueue, Lanes.calls_fill, ← List.append_assoc] at called
      rcases List.mem_append.mp called with before | launched
      · exact (calls call before).step kept
      · exact goes_on.launches launched
  | @land f others perm nearest =>
    have flew : f.call ∈ s.lanes.calls := (Lanes.perm_land perm).mem_iff.mpr List.mem_cons_self
    refine ⟨registry, fun e member => (entries e member).step kept fun _ before =>
      List.mem_append_left _ before, fun call called => ?_, fun e member => ?_⟩
    · have before := (Lanes.perm_land perm).mem_iff.mpr (List.mem_cons_of_mem _ called)
      exact (calls call before).step kept
    · rcases List.mem_append.mp member with old | new
      · exact (landed e old).step kept
      · rw [List.mem_singleton.mp new]
        exact (calls f.call flew).step kept
  | drift drift =>
    exact ⟨registry, fun e member => (entries e member).step kept fun _ before => before,
      fun call called => (calls call (drift.calls called)).step kept,
      fun e member => (landed e member).step kept⟩
  | @quit gone front back among =>
    refine ⟨registry, fun e member => ?_, fun call called => (calls call called).step kept,
      fun e member => (landed e member).step kept⟩
    refine (entries e ?_).step kept fun _ before => before
    rw [among]
    rcases List.mem_append.mp member with before | behind
    · exact List.mem_append_left _ before
    · exact List.mem_append_right _ (List.mem_cons_of_mem _ behind)
  | disturb =>
    exact ⟨registry, fun e member => (entries e member).step kept fun _ before => before,
      fun call called => (calls call called).step kept, fun e member => (landed e member).step kept⟩

/-- A status changes only where an operation marks it. -/
theorem Step.performs_mark (step : s.Step s') {id : NodeId} (changed : s'.status? id ≠ s.status? id) :
    ∃ ticket operation trace status, s.Performs ticket operation trace (.mark id status) s' ∧
      s'.status? id = some status := by
  cases step with
  | @move ticket t t' d' front back among moved =>
    cases moved with
    | act operation trace action next =>
      obtain ⟨status, rfl, noted⟩ := mark_of_changed changed
      exact ⟨ticket, operation, trace, status, ⟨front, back, next, among, rfl, rfl⟩, noted⟩
    | land | conclude => exact absurd rfl changed
  | begin | land | drift | quit | disturb => exact absurd rfl changed

end Steps

/-! ## Whole runs -/

/-- What is promised of the calls and of the statuses of a node with a list of members. -/
structure Discreet (selfId : NodeId) (listed : List Member) (first s : Station κ σ) : Prop where
  /-- Every call is made for a sync or a push. It goes to a listed node, not to the node itself, and
  its peer was believed active at the moment at which the sync or push began. -/
  called : ∀ call, (call ∈ s.lanes.calls ∨ ∃ verdict, (call, verdict) ∈ s.landed) →
    call.member.id ≠ selfId ∧ (∃ m ∈ listed, m.id = call.member.id) ∧
      ∃ s₀ s₁ operation, operation.callsPeers = true ∧ Run first s₀ ∧
        s₀.Performs call.ticket operation [] .registry s₁ ∧ s₀.Step s₁ ∧ Run s₁ s ∧
        s₀.status? call.member.id = some .active
  /-- A peer is believed offline after an explicit mark or after a call to it that failed. -/
  lost : ∀ s', s.Step s' → ∀ id, s.status? id = some .active → s'.status? id = some .offline →
    ∃ ticket operation trace, s.Performs ticket operation trace (.mark id .offline) s' ∧
      (operation = .mark id .offline ∨ operation.callsPeers = true ∧
        ∃ member errand error, member.id = id ∧
          (⟨ticket, member, errand⟩, .failed error) ∈ s.landed)
  /-- A peer is believed active again after an explicit mark or when it fetches. -/
  found : ∀ s', s.Step s' → ∀ id, s.status? id = some .offline → s'.status? id = some .active →
    ∃ ticket operation trace, s.Performs ticket operation trace (.mark id .active) s' ∧
      (operation = .mark id .active ∨
        ∃ request, operation = .fetch request ∧ request.requester = id)
  /-- Accepts, assignments, buys and queries change no status. -/
  mute : ∀ s' ticket operation trace action, s.Performs ticket operation trace action s' →
    operation.isMute = true → ∀ id, s'.status? id = s.status? id

theorem invariant_of_run {selfId : NodeId} {listed : List Member} {d : Desk κ}
    (named : d.node.registry = .ofMembers selfId listed) {parallel deadline : Nat} {peers : σ}
    {s : Station κ σ} (run : Run (opened d parallel deadline peers) s) :
    Invariant selfId listed (opened d parallel deadline peers) s := by
  induction run with
  | refl =>
    refine ⟨?_, fun e none_yet => ?_, fun call none_yet => ?_, fun e none_yet => ?_⟩
    · change Listed selfId listed d.node.registry
      rw [named]
      exact listed_ofMembers selfId listed
    · cases none_yet
    · cases none_yet
    · cases none_yet
  | tail before step ih => exact ih.step before step

/-- An operation that does an action may do it. -/
theorem Invariant.mayDo {selfId : NodeId} {listed : List Member} {first s s' : Station κ σ}
    (invariant : Invariant selfId listed first s) {ticket : Nat} {operation : Operation}
    {trace : List Event} {action : Action} (performs : s.Performs ticket operation trace action s') :
    MayDo operation trace action ∧ ∀ member verdict, .landed member verdict ∈ trace →
      ∃ errand, (⟨ticket, member, errand⟩, verdict) ∈ s.landed := by
  obtain ⟨front, back, next, among, _, _⟩ := performs
  have entry := invariant.entries (ticket, ⟨operation, trace, .act action next⟩)
    (among ▸ List.mem_append_right _ List.mem_cons_self)
  exact ⟨entry.heeds.1, entry.heard⟩

/-- The peer of a call is a listed node and not the node itself, and it was believed active at the
moment at which the sync or push began that the call was made for. -/
theorem Justified.seen {selfId : NodeId} {listed : List Member} {d : Desk κ}
    (named : d.node.registry = .ofMembers selfId listed) {parallel deadline : Nat} {peers : σ}
    {s : Station κ σ} {call : Call}
    (justified : Justified (opened d parallel deadline peers) s call) :
    call.member.id ≠ selfId ∧ (∃ m ∈ listed, m.id = call.member.id) ∧
      ∃ s₀ s₁ operation, operation.callsPeers = true ∧ Run (opened d parallel deadline peers) s₀ ∧
        s₀.Performs call.ticket operation [] .registry s₁ ∧ s₀.Step s₁ ∧ Run s₁ s ∧
        s₀.status? call.member.id = some .active := by
  obtain ⟨operation, registry, calls, ⟨s₀, s₁, before, performs, now, later, rfl⟩, active⟩ :=
    justified
  have sound := (invariant_of_run named before).registry
  obtain ⟨other, trusted⟩ := sound.ordered.trusts_iff.mp ⟨call.member, active, rfl⟩
  rw [sound.own] at other
  have member := (List.mem_filter.mp active).1
  exact ⟨other, sound.known _ member, s₀, s₁, operation, calls, before, performs, now, later,
    trusted⟩

/-- Nobody is called who was believed offline when the sync or push began, and no status changes
without a reason, however the operations interleave. -/
theorem discreet_of_run {selfId : NodeId} {listed : List Member} {d : Desk κ}
    (named : d.node.registry = .ofMembers selfId listed) {parallel deadline : Nat} {peers : σ}
    {s : Station κ σ} (run : Run (opened d parallel deadline peers) s) :
    Discreet selfId listed (opened d parallel deadline peers) s := by
  have invariant := invariant_of_run named run
  constructor
  · intro call made
    have justified : Justified (opened d parallel deadline peers) s call := by
      rcases made with under_way | ⟨verdict, ended⟩
      · exact invariant.calls call under_way
      · exact invariant.landed (call, verdict) ended
    exact justified.seen named
  · intro s' step id active offline
    have changed : s'.status? id ≠ s.status? id := by
      rw [active, offline]
      nofun
    obtain ⟨ticket, operation, trace, status, performs, noted⟩ := step.performs_mark changed
    cases offline.symm.trans noted
    obtain ⟨allowed, heard⟩ := invariant.mayDo performs
    refine ⟨ticket, operation, trace, performs, ?_⟩
    rcases allowed with explicit | ⟨calls, member, error, told, rfl⟩
    · exact Or.inl explicit
    · obtain ⟨errand, landed⟩ := heard member _ told
      exact Or.inr ⟨calls, member, errand, error, rfl, landed⟩
  · intro s' step id offline active
    have changed : s'.status? id ≠ s.status? id := by
      rw [active, offline]
      nofun
    obtain ⟨ticket, operation, trace, status, performs, noted⟩ := step.performs_mark changed
    cases active.symm.trans noted
    exact ⟨ticket, operation, trace, performs, (invariant.mayDo performs).1⟩
  · intro s' ticket operation trace action performs mute id
    refine Decidable.byContradiction fun changed => ?_
    have allowed := (invariant.mayDo performs).1
    obtain ⟨_, _, _, _, desk, _⟩ := performs
    unfold status? at changed
    rw [desk] at changed
    obtain ⟨status, rfl, _⟩ := mark_of_changed changed
    exact not_mayDo_of_mute mute allowed

/-- Two peers, of which one is down. -/
def unequal : ScriptedPeers := ⟨[{ id := 2, manner := .down }, { id := 3 }]⟩

/-- A sync finds one peer down; the push that begins then calls the other one only. -/
def disappointed : Station Stock ScriptedPeers :=
  [.begin 0 .sync, .act 0, .act 0, .land, .land, .hear 0, .act 0, .act 0,
    .begin 1 (.push ⟨1, "ant", 1⟩), .act 1].foldl follow (scripted 2 unequal)

theorem discreet_disappointed :
    disappointed.landed.map (fun e => (e.1.member.id, e.2.isFailed)) = [(2, true), (3, false)] ∧
      disappointed.status? 2 = some .offline ∧
      disappointed.lanes.calls.map (fun call => (call.ticket, call.member.id)) = [(1, 3)] ∧
      Discreet 1 unequal.members (scripted 2 unequal) disappointed := by
  refine ⟨by decide +kernel, by decide +kernel, by decide +kernel, ?_⟩
  exact discreet_of_run rfl (run_foldl (scripted 2 unequal) _)

end Station

end OrderCluster.Interleaving
