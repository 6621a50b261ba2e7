import OrderCluster.CommandLine
import OrderCluster.Http.Client
import OrderCluster.Http.Framing
import Std.Async.DNS
import Std.Async.TCP
import Std.Async.Timer

/-!
# The coordinator as a program

Reads the configuration file and makes each call on a connection of its own.
-/

namespace OrderCluster

open Std.Async Std.Net

def endpoint (number : UInt16) : IPAddr → SocketAddress
  | .v4 addr => .v4 ⟨addr, number⟩
  | .v6 addr => .v6 ⟨addr, number⟩

/-- Reads from a connection up to its end. -/
partial def receive (client : TCP.Socket.Client) (bytes : ByteArray) : Async ByteArray := do
  match ← client.recv? 65536 with
  | none => return bytes
  | some more => receive client (bytes ++ more)

def exchange (address : Address) (request : Http.Request) (target : SocketAddress) :
    Async Http.Delivery := do
  let client ← TCP.Socket.Client.mk
  client.connect target
  client.send ⟨(request.toBytes address.text).toArray⟩
  let bytes ← receive client .empty
  return match Http.Response.ofBytes? bytes.toList with
    | some response => .answered response
    | none => .severed

/-- Makes one exchange with the first endpoint of a host that can be connected to. -/
def attempt (address : Address) (request : Http.Request) : List SocketAddress → Async Http.Delivery
  | [] => return .severed
  | target :: rest => do
    try exchange address request target
    catch _ => attempt address request rest

/-- Sends a request to an address and waits for the response until the deadline. -/
def send (address : Address) (deadline : Nat) (request : Http.Request) : IO Http.Delivery := do
  let delivery : Async Http.Delivery := do
    let found ← DNS.getAddrInfo address.host (toString address.port.toNat)
    attempt address request (found.toList.map (endpoint address.port))
  let silence : Async Http.Delivery := do
    sleep (.ofNat deadline)
    return .silent
  try
    let _ : Inhabited Http.Delivery := ⟨.silent⟩
    (Async.race delivery silence).block
  catch e => return .refused (toString e)

def ask (q : Question) : IO (Except PeerError q.method.Response) := do
  let delivery ← send q.member.address q.deadline (Http.callRequest q.method q.request)
  return Http.callOutcome q.member.address q.deadline q.method delivery

def fileContent? (path : String) : IO (Option Json.Bytes) := do
  try return some (← IO.FS.readBinFile path).toList
  catch _ => return none

end OrderCluster

open OrderCluster in
def main (args : List String) : IO UInt32 := do
  let outcome ← match CommandLine.parse args with
    | .error refusal => pure (.ofRefusal refusal)
    | .ok invocation => (invocation.run (← fileContent? invocation.config)).runM ask
  IO.print outcome.output
  IO.eprint outcome.complaint
  return outcome.code.toUInt32
