/-!
# Members of the cluster

What one node believes about another: where it lives, whether it was last reached, and whether it
was ever named leader. Two nodes may disagree about a third.
-/

namespace OrderCluster

abbrev NodeId := UInt32

/-- Where a node listens. -/
structure Address where
  host : String
  port : UInt16
  deriving DecidableEq, Repr

/-- The address as it is written in urls and error texts. -/
def Address.text (a : Address) : String := a.host ++ ":" ++ toString a.port.toNat

/-- Whether a node was last found reachable. -/
inductive Status where
  | active
  | offline
  deriving DecidableEq, Repr

/-- Whether a node was ever named leader. -/
inductive Mode where
  | leader
  | follower
  deriving DecidableEq, Repr

/-- A node as another node, or the coordinator, knows it. Endpoints that are not told apart by their
address are told apart by their line. -/
structure Member where
  id : NodeId
  address : Address
  line : Nat := 0
  status : Status := .active
  mode : Mode := .follower
  deriving DecidableEq, Repr

namespace Member

def isActive (m : Member) : Bool := m.status = .active

end Member

/-- A member as it is shown to the outside. -/
structure MemberView where
  id : NodeId
  address : String
  status : Status
  mode : Mode
  deriving DecidableEq, Repr

def Member.view (m : Member) : MemberView := ⟨m.id, m.address.text, m.status, m.mode⟩

end OrderCluster
