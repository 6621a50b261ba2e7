import OrderCluster.Duration

/-!
# How a call to a peer fails

In the first two ways the peer was not reached; in the other two it answered. Only the first two
make a coordinator look for another leader.
-/

namespace OrderCluster

/-- Why a call to a peer gave no answer of the wanted kind. -/
inductive PeerError where
  /-- There was no connection, or it broke. -/
  | unreachable (address reason : String)
  /-- There was no answer within the deadline. -/
  | timeout (address : String) (after : Duration)
  /-- The answer was a refusal. -/
  | rejected (address : String) (status : Nat) (message : String)
  /-- The answer could not be read. -/
  | unreadable (address reason : String)
  deriving DecidableEq, Repr

namespace PeerError

/-- Whether the peer itself was not reached. -/
def isTransport : PeerError → Bool
  | .unreachable .. | .timeout .. => true
  | .rejected .. | .unreadable .. => false

def text : PeerError → String
  | .unreachable address reason => "peer " ++ address ++ " unreachable: " ++ reason
  | .timeout address after => "peer " ++ address ++ " did not answer within " ++ after.text
  | .rejected address status message =>
    "peer " ++ address ++ " rejected the call with status " ++ toString status ++ ": " ++ message
  | .unreadable address reason => "peer " ++ address ++ " sent an unreadable response: " ++ reason

end PeerError

end OrderCluster
