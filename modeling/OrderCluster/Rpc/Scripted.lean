import OrderCluster.Rpc.Peers

/-!
# Peers that follow a script

Peers that hold orders and answer like nodes, except where their script makes them late, makes them
fail, or lets it touch certain calls only. They note every call that sets out.
-/

namespace OrderCluster

/-- What a peer does with the calls that its script touches. -/
inductive Manner where
  | answers
  | down
  | rejects
  | garbles
  deriving DecidableEq, Repr

structure ScriptedPeer where
  id : NodeId
  orders : List Order := []
  manner : Manner := .answers
  delay : Nat := 0
  /-- The calls that the script touches; all of them if none is listed. -/
  only : List Method := []
  /-- What it sends to every node that catches up, instead of what it holds. -/
  fetchAnswer : Option (List Order) := none
  /-- The calls noted so far, the oldest first. -/
  calls : List ((method : Method) × method.Request) := []

namespace ScriptedPeer

def name (p : ScriptedPeer) : String := "peer-" ++ toString p.id.toNat

def touches (p : ScriptedPeer) (method : Method) : Bool := p.only.isEmpty || p.only.contains method

def holds (p : ScriptedPeer) (n : OrderNumber) : Bool := p.orders.any (·.number = n)

def maxNumber (p : ScriptedPeer) : OrderNumber := ((p.orders.map Order.number).max?).getD 0

def after (p : ScriptedPeer) (n : OrderNumber) : List Order :=
  (p.orders.filter (n < ·.number)).mergeSort (·.number ≤ ·.number)

def answer (p : ScriptedPeer) : (method : Method) → method.Request → method.Response × ScriptedPeer
  | .buy, (request : BuyRequest) =>
    let n := p.maxNumber + 1
    (.placed n, { p with orders := p.orders ++ [⟨n, request.name, request.quantity⟩] })
  | .query, (request : QueryRequest) =>
    (.ofOrder? (p.orders.find? (·.number = request.orderNumber)), p)
  | .health, _ => (.online, p)
  | .assign, _ => (⟨""⟩, p)
  | .fetch, (request : FetchRequest) =>
    (⟨p.fetchAnswer.getD (p.after request.after), request.after⟩, p)
  | .accept, (request : AcceptRequest) =>
    if p.holds request.order.number then (⟨false⟩, p)
    else (⟨true⟩, { p with orders := p.orders ++ [request.order] })

def depart (p : ScriptedPeer) (method : Method) (request : method.Request) :
    Departure × ScriptedPeer :=
  let touched := p.touches method
  (⟨if touched then p.delay else 0, touched⟩, { p with calls := p.calls ++ [⟨method, request⟩] })

def arrive (p : ScriptedPeer) (departure : Departure) (method : Method) (request : method.Request) :
    Except PeerError method.Response × ScriptedPeer :=
  let reply (_ : Unit) :=
    let (response, p) := p.answer method request
    (.ok response, p)
  if !departure.heedful then reply ()
  else
    match p.manner with
    | .answers => reply ()
    | .down => (.error (.unreachable p.name "connection refused"), p)
    | .rejects => (.error (.rejected p.name 409 "no"), p)
    | .garbles => (.error (.unreadable p.name "bad body"), p)

end ScriptedPeer

/-- Peers with scripts; a member's line tells which of them serves it. -/
structure ScriptedPeers where
  peers : List ScriptedPeer := []

namespace ScriptedPeers

def modify (s : ScriptedPeers) (line : Nat) (f : ScriptedPeer → ScriptedPeer) : ScriptedPeers :=
  ⟨s.peers.modify line f⟩

def members (s : ScriptedPeers) : List Member :=
  s.peers.zipIdx.map fun (p, line) => { id := p.id, address := ⟨p.name, 1700⟩, line }

def forgetCalls (s : ScriptedPeers) : ScriptedPeers := ⟨s.peers.map ({ · with calls := [] })⟩

instance : Peers ScriptedPeers where
  depart s member method request :=
    match s.peers[member.line]? with
    | none => (⟨0, true⟩, s)
    | some p =>
      let (departure, p) := p.depart method request
      (departure, s.modify member.line fun _ => p)
  arrive s member departure method request :=
    match s.peers[member.line]? with
    | none => (.error (.unreachable member.address.text "no such peer"), s)
    | some p =>
      let (answer, p) := p.arrive departure method request
      (answer, s.modify member.line fun _ => p)

end ScriptedPeers

end OrderCluster
