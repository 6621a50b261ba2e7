import OrderCluster.Member
import OrderCluster.Rpc.Method
import OrderCluster.Rpc.PeerError

/-!
# Peers that can be called

A call sets out, and arrives some milliseconds later. A call that would arrive after its deadline
is given up at the deadline and never arrives; one that needs no time is in time for any deadline.
-/

namespace OrderCluster

/-- How a call sets out: how long it is on its way, and whether the peer heeds its script or
answers at once. -/
structure Departure where
  delay : Nat
  heedful : Bool := true
  deriving DecidableEq, Repr

/-- Anything that answers calls to the members of a cluster. -/
class Peers (σ : Type) where
  depart : σ → Member → (method : Method) → method.Request → Departure × σ
  arrive : σ → Member → Departure → (method : Method) → method.Request →
    Except PeerError method.Response × σ

namespace Peers

def gaveUp (member : Member) (deadline : Nat) : PeerError :=
  .timeout member.address.text (.millis deadline)

def call [Peers σ] (peers : σ) (member : Member) (deadline : Nat) (method : Method)
    (request : method.Request) : Except PeerError method.Response × σ :=
  let (departure, peers) := Peers.depart peers member method request
  if departure.delay ≤ deadline then Peers.arrive peers member departure method request
  else (.error (gaveUp member deadline), peers)

end Peers

end OrderCluster
