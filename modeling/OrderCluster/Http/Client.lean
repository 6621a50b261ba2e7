import OrderCluster.Http.Network
import OrderCluster.Json.Document
import OrderCluster.Rpc.Peers
import OrderCluster.Text.Lossy

/-!
# Calling a node

A call is posted as JSON to its path. A response other than a success is a rejection; its message is
the one inside the error body or, where there is none, the body itself.
-/

namespace OrderCluster.Http

open Json (Bytes Document)

def callRequest (method : Method) (request : method.Request) : Request :=
  { method := "POST", path := method.path, contentType := some jsonType,
    body := Wire.encode request }

def rejectionMessage (body : Bytes) : String :=
  let text := Text.lossy body
  let message? := do
    let document ← Document.ofText? (Json.utf8 text)
    (← (← document.member? "error").member? "message").text?
  message?.getD text

def callOutcome (address : Address) (deadline : Nat) (method : Method) :
    Delivery → Except PeerError method.Response
  | .refused reason => .error (.unreachable address.text reason)
  | .silent => .error (.timeout address.text (.millis deadline))
  | .answered r =>
    if r.isSuccess then
      match Wire.decode r.body with
      | .ok response => .ok response
      | .error _ => .error (.unreadable address.text "error decoding response body")
    else .error (.rejected address.text r.status (rejectionMessage r.body))

def callOver [Network σ] (network : σ) (address : Address) (deadline : Nat) (method : Method)
    (request : method.Request) : Except PeerError method.Response × σ :=
  let (delivery, network) := Network.deliver network address (callRequest method request)
  (callOutcome address deadline method delivery, network)

/-- The deadlines of calls, in milliseconds. -/
structure Deadlines where
  rpc : Nat
  health : Nat
  deriving DecidableEq, Repr

def Deadlines.of (d : Deadlines) : Method → Nat
  | .health => d.health
  | _ => d.rpc

/-- Peers that are called over a network; it tells at once what becomes of a request. -/
structure RemotePeers (σ : Type) where
  network : σ
  deadlines : Deadlines

instance [Network σ] : Peers (RemotePeers σ) where
  depart peers _ _ _ := (⟨0, true⟩, peers)
  arrive peers member _ method request :=
    let (answer, network) :=
      callOver peers.network member.address (peers.deadlines.of method) method request
    (answer, { peers with network })

end OrderCluster.Http
