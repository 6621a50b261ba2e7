import OrderCluster.Program
import OrderCluster.Rpc.Peers

/-!
# The coordinator

A client of the whole cluster. It walks the nodes from the highest id to the lowest, takes the first
that answers a health check as leader, and tells that node and all lower ones. Requests go to the
leader until a call to it does not reach it; then there is a new election. At most one attempt is
made for each configured node. Requests may share a coordinator: an election is not interrupted, but
between the turns of one request others may have theirs.
-/

namespace OrderCluster

structure Question where
  member : Member
  deadline : Nat
  method : Method
  request : method.Request

instance : Interface Question where
  Answer q := Except PeerError q.method.Response

def Question.ask (q : Question) : Program Question (Except PeerError q.method.Response) :=
  .act q .done

def Question.perform [Peers σ] (q : Question) (peers : σ) :
    Except PeerError q.method.Response × σ :=
  Peers.call peers q.member q.deadline q.method q.request

inductive CoordinatorError where
  /-- No node answered a health check. -/
  | clusterUnreachable
  /-- The leader refused the call or garbled the answer. -/
  | peer (error : PeerError)
  deriving DecidableEq, Repr

def CoordinatorError.text : CoordinatorError → String
  | .clusterUnreachable => "no order-service node is reachable"
  | .peer error => error.text

/-- The nodes to walk, descending by id, and the leader that was elected last. -/
structure Coordinator where
  nodes : List Member
  healthDeadline : Nat
  rpcDeadline : Nat
  leader : Option NodeId := none
  deriving DecidableEq, Repr

namespace Coordinator

/-- Leaves out the members that follow one with the same id. -/
def distinct : List Member → List Member
  | [] => []
  | m :: rest => m :: go m.id rest
where
  go (id : NodeId) : List Member → List Member
    | [] => []
    | m :: rest => if m.id = id then go id rest else m :: go m.id rest

/-- The order in which nodes are walked; of those with one id the first listed stays. -/
def walk (listed : List Member) : List Member :=
  distinct (listed.mergeSort fun a b => b.id ≤ a.id)

def ofMembers (listed : List Member) (healthDeadline rpcDeadline : Nat) : Coordinator :=
  { nodes := walk listed, healthDeadline, rpcDeadline }

/-- The nodes from the first that answers a health check on. -/
def firstOnline (deadline : Nat) : List Member → Program Question (List Member)
  | [] => return []
  | m :: rest => do
    match ← Question.ask ⟨m, deadline, .health, .probe⟩ with
    | .ok _ => return m :: rest
    | .error _ => firstOnline deadline rest

/-- Tells nodes who leads; it does not matter whether they hear it. -/
def announce (deadline : Nat) (leader : Member) : List Member → Program Question Unit
  | [] => return ()
  | m :: rest => do
    let _ ← Question.ask
      ⟨m, deadline, .assign, ⟨leader.id, leader.address.host, leader.address.port⟩⟩
    announce deadline leader rest

def holdElection (c : Coordinator) :
    Program Question (Except CoordinatorError NodeId × Coordinator) := do
  match ← firstOnline c.healthDeadline c.nodes with
  | [] => return (.error .clusterUnreachable, { c with leader := none })
  | chosen :: lower => do
    announce c.rpcDeadline chosen (chosen :: lower)
    return (.ok chosen.id, { c with leader := some chosen.id })

/-- Elects a leader, unless another than the one that was seen to fail is known already. -/
def elect (c : Coordinator) (stale : Option NodeId) :
    Program Question (Except CoordinatorError NodeId × Coordinator) :=
  match c.leader with
  | none => c.holdElection
  | some current => if stale = some current then c.holdElection else return (.ok current, c)

end Coordinator

/-- What a request does at its coordinator. Nothing comes between the parts of one turn; between two
turns other requests may have theirs. -/
inductive Turn where
  | look
  /-- Elects a leader, unless another than the one that was seen to fail is known already. -/
  | elect (stale : Option NodeId)
  | call (question : Question)

namespace Turn

abbrev Answer : Turn → Type
  | .look => Option NodeId
  | .elect _ => Except CoordinatorError NodeId
  | .call question => Except PeerError question.method.Response

instance : Interface Turn where
  Answer := Answer

def await (turn : Turn) : Program Turn turn.Answer := .act turn .done

def take : (turn : Turn) → Coordinator → Program Question (turn.Answer × Coordinator)
  | .look, c => return (c.leader, c)
  | .elect stale, c => c.elect stale
  | .call question, c => do return (← question.ask, c)

end Turn

namespace Coordinator

/-- Does what a request does at a coordinator, with nothing in between. -/
def serve : Program Turn α → Coordinator → Program Question (α × Coordinator)
  | .done a, c => return (a, c)
  | .act turn next, c => do
    let (answer, c) ← turn.take c
    serve (next answer) c

/-- The leader, elected if none is known. -/
def findLeader : Program Turn (Except CoordinatorError NodeId) := do
  match ← Turn.look.await with
  | some id => return .ok id
  | none => (Turn.elect none).await

/-- Calls the leader, and goes on as told where the call does not reach it. -/
def callLeader (c : Coordinator) (method : Method) (request : method.Request) (leader : NodeId)
    (lost : PeerError → Program Turn (Except CoordinatorError method.Response)) :
    Program Turn (Except CoordinatorError method.Response) :=
  match c.nodes.find? (·.id = leader) with
  | none => return .error .clusterUnreachable
  | some m => do
    match ← (Turn.call ⟨m, c.rpcDeadline, method, request⟩).await with
    | .ok response => return .ok response
    | .error e => if e.isTransport then lost e else return .error (.peer e)

/-- Sends a request to the leader, and to the next one where the leader is not reached, as long as
there are attempts left. -/
def attempt (c : Coordinator) (method : Method) (request : method.Request) :
    Nat → NodeId → Program Turn (Except CoordinatorError method.Response)
  | 0, leader => c.callLeader method request leader fun e => return .error (.peer e)
  | attemptsLeft + 1, leader =>
    c.callLeader method request leader fun _ => do
      match ← (Turn.elect (some leader)).await with
      | .ok leader => attempt c method request attemptsLeft leader
      | .error e => return .error e

def routing (c : Coordinator) (method : Method) (request : method.Request) :
    Program Turn (Except CoordinatorError method.Response) := do
  match ← findLeader with
  | .ok leader => c.attempt method request (c.nodes.length - 1) leader
  | .error e => return .error e

def route (c : Coordinator) (method : Method) (request : method.Request) :
    Program Question (Except CoordinatorError method.Response × Coordinator) :=
  serve (c.routing method request) c

def buy (c : Coordinator) (request : BuyRequest) :
    Program Question (Except CoordinatorError BuyResponse × Coordinator) :=
  c.route .buy request

def query (c : Coordinator) (n : OrderNumber) :
    Program Question (Except CoordinatorError QueryResponse × Coordinator) :=
  c.route .query ⟨n⟩

end Coordinator

end OrderCluster
