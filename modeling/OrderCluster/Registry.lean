import OrderCluster.Member

/-!
# The registry

One node's view of the cluster. Membership is fixed when the registry is made; status, mode and
the believed leader change afterwards. The number of active peers is published when it is made and
each time a status changes.
-/

namespace OrderCluster

/-- Membership, liveness and leadership as one node sees them; members ascend by id. -/
structure Registry where
  selfId : NodeId
  members : List Member
  leader : Option NodeId
  publishedActive : Nat
  deriving DecidableEq, Repr

namespace Registry

/-- Puts a member into an ascending list, in the place of one with the same id if there is one. -/
def place (m : Member) : List Member → List Member
  | [] => [m]
  | held :: rest =>
    if m.id < held.id then m :: held :: rest
    else if m.id = held.id then m :: rest
    else held :: place m rest

/-- The members of a list in ascending order; of those with one id the last listed stays. -/
def canonical (listed : List Member) : List Member := listed.foldl (fun held m => place m held) []

/-- The members other than the node itself that are not believed offline, ascending. -/
def activeAmong (selfId : NodeId) (members : List Member) : List Member :=
  members.filter (fun m => m.id ≠ selfId && m.isActive)

/-- The registry of a node, from the configured list, which may name the node itself. -/
def ofMembers (selfId : NodeId) (listed : List Member) : Registry :=
  let members := canonical listed
  ⟨selfId, members, none, (activeAmong selfId members).length⟩

/-- The peers that a sync or a fan-out calls, ascending. -/
def activePeers (r : Registry) : List Member := activeAmong r.selfId r.members

def find? (r : Registry) (id : NodeId) : Option Member := r.members.find? (fun m => m.id = id)

def publish (r : Registry) : Registry := { r with publishedActive := r.activePeers.length }

/-- Notes a status and says whether it changed anything; an unknown id changes nothing. -/
def mark (r : Registry) (id : NodeId) (status : Status) : Bool × Registry :=
  match r.find? id with
  | none => (false, r)
  | some m =>
    if m.status = status then (false, r)
    else
      let members := r.members.map (fun m => if m.id = id then { m with status } else m)
      (true, { r with members }.publish)

/-- Notes the leader that the coordinator chose. A known member is shown as leader from then on. -/
def assignLeader (r : Registry) (id : NodeId) : Registry :=
  { r with
    leader := some id
    members := r.members.map (fun m => if m.id = id then { m with mode := .leader } else m) }

/-- Whether the last assignment named this node. -/
def isSelfLeader (r : Registry) : Bool := r.leader = some r.selfId

def selfMode (r : Registry) : Mode := if r.isSelfLeader then .leader else .follower

end Registry

end OrderCluster
