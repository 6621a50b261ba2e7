import OrderCluster.Member
import OrderCluster.Text.Quoted

/-!
# Members in words

The one-line description of a member for logs and for debugging.
-/

namespace OrderCluster

def Status.name : Status → String
  | .active => "Active"
  | .offline => "Offline"

def Mode.name : Mode → String
  | .leader => "Leader"
  | .follower => "Follower"

def Member.described (m : Member) : String :=
  "OrderNode \x7b id: " ++ toString m.id.toNat ++
    ", address: Address \x7b host: " ++ Text.quoted m.address.host ++
    ", port: " ++ toString m.address.port.toNat ++
    " \x7d, status: " ++ m.status.name ++ ", mode: " ++ m.mode.name ++ ", .. \x7d"

end OrderCluster
