import Mathlib.Data.List.Forall2
import OrderCluster.Coordinator
import OrderCluster.Proofs.Program

/-!
# What an election comes to

An election checks the nodes in the order of the walk until one of them answers, and then tells that
node and all that come after it who leads. Here the ways in which that can end are listed, with all
that was exchanged, for every behaviour of the nodes.
-/

namespace OrderCluster.Coordinator

open Program (Path)

def probe (c : Coordinator) (m : Member) : Question := ⟨m, c.healthDeadline, .health, .probe⟩

def notice (c : Coordinator) (leader m : Member) : Question :=
  ⟨m, c.rpcDeadline, .assign, ⟨leader.id, leader.address.host, leader.address.port⟩⟩

/-- A node was checked and did not answer as it should. -/
def Missed (c : Coordinator) (m : Member) (x : Exchange Question) : Prop :=
  ∃ error, x = ⟨c.probe m, .error error⟩

/-- A node was told who leads, whatever came of it. -/
def Told (c : Coordinator) (leader m : Member) (x : Exchange Question) : Prop :=
  ∃ answer, x = ⟨c.notice leader m, answer⟩

/-- How a walk ends: what was exchanged, who was elected, and what the coordinator then believes. -/
inductive Election (c : Coordinator) :
    List (Exchange Question) → Except CoordinatorError NodeId × Coordinator → Prop where
  | nobody {checks : List (Exchange Question)} (missed : List.Forall₂ c.Missed c.nodes checks) :
    Election c checks (.error .clusterUnreachable, { c with leader := none })
  | won {above lower : List Member} {chosen : Member} {checks notices : List (Exchange Question)}
    {response : HealthResponse} (split : c.nodes = above ++ chosen :: lower)
    (missed : List.Forall₂ c.Missed above checks)
    (told : List.Forall₂ (c.Told chosen) (chosen :: lower) notices) :
    Election c (checks ++ ⟨c.probe chosen, .ok response⟩ :: notices)
      (.ok chosen.id, { c with leader := some chosen.id })

/-- How the wish for an election ends: there is none where the belief has moved on already. -/
inductive Elected (c : Coordinator) (stale : Option NodeId) :
    List (Exchange Question) → Except CoordinatorError NodeId × Coordinator → Prop where
  | kept {current : NodeId} (believed : c.leader = some current) (other : stale ≠ some current) :
    Elected c stale [] (.ok current, c)
  | walked {exchanged : List (Exchange Question)}
    {result : Except CoordinatorError NodeId × Coordinator}
    (due : c.leader = none ∨ c.leader = stale) (election : Election c exchanged result) :
    Elected c stale exchanged result

variable {c : Coordinator} {exchanged : List (Exchange Question)}

/-- What was exchanged in pairs with members was exchanged with one of them. -/
theorem exists_of_exchanged {R : Member → Exchange Question → Prop} {nodes : List Member}
    (paired : List.Forall₂ R nodes exchanged) {x : Exchange Question} (among : x ∈ exchanged) :
    ∃ m ∈ nodes, R m x := by
  induction paired with
  | nil => cases among
  | cons now later ih =>
    cases among with
    | head => exact ⟨_, List.mem_cons_self, now⟩
    | tail _ among =>
      obtain ⟨m, member, related⟩ := ih among
      exact ⟨m, List.mem_cons_of_mem _ member, related⟩

/-- The walk passes the nodes that do not answer, and stops at the first that does. -/
theorem path_firstOnline {nodes found : List Member}
    (path : Path (firstOnline c.healthDeadline nodes) exchanged found) :
    (found = [] ∧ List.Forall₂ c.Missed nodes exchanged) ∨
      ∃ above chosen lower checks response, nodes = above ++ chosen :: lower ∧
        found = chosen :: lower ∧ List.Forall₂ c.Missed above checks ∧
        exchanged = checks ++ [⟨c.probe chosen, .ok response⟩] := by
  induction nodes generalizing exchanged with
  | nil =>
    obtain ⟨rfl, rfl⟩ := path.of_done
    exact Or.inl ⟨rfl, .nil⟩
  | cons m rest ih =>
    obtain ⟨answer, later, rfl, after⟩ := path.of_act
    cases answer with
    | ok response =>
      obtain ⟨rfl, rfl⟩ := after.of_done
      exact Or.inr ⟨[], m, rest, [], response, rfl, rfl, .nil, rfl⟩
    | error e =>
      rcases ih after with ⟨rfl, missed⟩ | ⟨above, chosen, lower, checks, response, rfl, rfl, missed, rfl⟩
      · exact Or.inl ⟨rfl, .cons ⟨e, rfl⟩ missed⟩
      · exact Or.inr ⟨m :: above, chosen, lower, _ :: checks, response, rfl, rfl,
          .cons ⟨e, rfl⟩ missed, rfl⟩

/-- Each node is told once who leads, in the order of the walk. -/
theorem path_announce {leader : Member} {nodes : List Member} {u : Unit}
    (path : Path (announce c.rpcDeadline leader nodes) exchanged u) :
    List.Forall₂ (c.Told leader) nodes exchanged := by
  induction nodes generalizing exchanged with
  | nil =>
    obtain ⟨rfl, _⟩ := path.of_done
    exact .nil
  | cons m rest ih =>
    obtain ⟨answer, later, rfl, after⟩ := path.of_act
    exact .cons ⟨answer, rfl⟩ (ih after)

theorem path_holdElection {result : Except CoordinatorError NodeId × Coordinator}
    (path : Path c.holdElection exchanged result) : Election c exchanged result := by
  obtain ⟨front, back, found, rfl, walk, after⟩ := path.of_bind
  rcases path_firstOnline walk with
    ⟨rfl, missed⟩ | ⟨above, chosen, lower, checks, response, split, rfl, missed, rfl⟩
  · obtain ⟨rfl, rfl⟩ := after.of_done
    rw [List.append_nil]
    exact .nobody missed
  · obtain ⟨notices, none_left, _, rfl, told, last⟩ := after.of_bind
    obtain ⟨rfl, rfl⟩ := last.of_done
    rw [List.append_nil, List.append_assoc, List.singleton_append]
    exact .won split missed (path_announce told)

/-- The ways in which the wish for an election can end, however the nodes behave. -/
theorem path_elect {stale : Option NodeId} {result : Except CoordinatorError NodeId × Coordinator}
    (path : Path (c.elect stale) exchanged result) : Elected c stale exchanged result := by
  unfold elect at path
  split at path
  · rename_i nobody
    exact .walked (Or.inl nobody) (path_holdElection path)
  · rename_i current believed
    split at path
    · rename_i failed
      exact .walked (Or.inr (believed.trans failed.symm)) (path_holdElection path)
    · rename_i other
      obtain ⟨rfl, rfl⟩ := path.of_done
      exact .kept believed other

/-- Where another leader is believed than the one that was seen to fail, there is no election. -/
theorem Elected.of_believed {stale : Option NodeId} {current : NodeId}
    {result : Except CoordinatorError NodeId × Coordinator}
    (elected : Elected c stale exchanged result) (believed : c.leader = some current)
    (other : stale ≠ some current) : exchanged = [] ∧ result = (.ok current, c) := by
  cases elected with
  | kept known _ =>
    cases believed.symm.trans known
    exact ⟨rfl, rfl⟩
  | walked due _ =>
    rcases due with unknown | failed
    · cases believed.symm.trans unknown
    · exact absurd (failed.symm.trans believed) other

/-- Otherwise an election is run. -/
theorem Elected.of_due {stale : Option NodeId}
    {result : Except CoordinatorError NodeId × Coordinator}
    (elected : Elected c stale exchanged result) (due : c.leader = none ∨ c.leader = stale) :
    Election c exchanged result := by
  cases elected with
  | kept known other =>
    rcases due with unknown | failed
    · cases known.symm.trans unknown
    · exact absurd (failed.symm.trans known) other
  | walked _ election => exact election

/-- An election changes nothing about a coordinator but its belief. -/
theorem Elected.same {stale : Option NodeId} {answer : Except CoordinatorError NodeId}
    {after : Coordinator} (elected : Elected c stale exchanged (answer, after)) :
    after = { c with leader := after.leader } := by
  cases elected with
  | kept believed other => rfl
  | walked due election => cases election <;> rfl

/-- Only configured nodes are asked anything. -/
theorem Elected.asked {stale : Option NodeId}
    {result : Except CoordinatorError NodeId × Coordinator}
    (elected : Elected c stale exchanged result) {x : Exchange Question} (among : x ∈ exchanged) :
    x.action.member ∈ c.nodes := by
  cases elected with
  | kept believed other => cases among
  | walked due election =>
    cases election with
    | nobody missed =>
      obtain ⟨m, member, _, rfl⟩ := exists_of_exchanged missed among
      exact member
    | won split missed told =>
      rw [split]
      rcases List.mem_append.mp among with before | behind
      · obtain ⟨m, member, _, rfl⟩ := exists_of_exchanged missed before
        exact List.mem_append_left _ member
      · rcases List.mem_cons.mp behind with rfl | notice
        · exact List.mem_append_right _ List.mem_cons_self
        · obtain ⟨m, member, _, rfl⟩ := exists_of_exchanged told notice
          exact List.mem_append_right _ member

/-- Whom an election names is believed afterwards; where it names nobody, nobody is. -/
theorem Elected.belief {stale : Option NodeId} {answer : Except CoordinatorError NodeId}
    {after : Coordinator} (elected : Elected c stale exchanged (answer, after)) :
    (∃ id, answer = .ok id ∧ after.leader = some id) ∨
      answer = .error .clusterUnreachable ∧ after.leader = none ∧
        List.Forall₂ c.Missed c.nodes exchanged := by
  cases elected with
  | kept believed other => exact Or.inl ⟨_, rfl, believed⟩
  | walked due election =>
    cases election with
    | nobody missed => exact Or.inr ⟨rfl, rfl, missed⟩
    | won split missed told => exact Or.inl ⟨_, rfl, rfl⟩

end OrderCluster.Coordinator
