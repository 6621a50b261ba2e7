import OrderCluster.Proofs.Service.Answers
import OrderCluster.Replication.Site
import OrderCluster.Service.Serve

/-!
# A cluster with a steady leader

Nodes that call each other, one operation after the other. All buys go to one node, which is never
stopped and pushes each order that it places until all its calls have ended. Any call may fail. A
pushed order may be taken although its sender saw the call fail, at once or at any later time, and
more than once; a fetch that its sender sees fail has no effect. Every other node may be opened
again over its log at any time.

Log calls may fail too, save the two on which a served fetch rests: reading the orders above a
number, and writing a batch.
-/

namespace OrderCluster

/-- How a call ends that arrives in time. -/
inductive Fate where
  /-- It is served, and the answer is heard. -/
  | served
  /-- It has no effect. -/
  | lost (error : PeerError)
  /-- A pushed order is taken, though its sender sees the call fail. -/
  | unheard (error : PeerError)
  deriving DecidableEq, Repr

/-- What befalls the calls of one operation: how many may be under way at once, how long each may
last, how long they are on their way, and how those that arrive end. -/
structure Weather where
  parallel : Nat
  deadline : Nat
  delays : List Nat := []
  fates : List Fate := []
  deriving DecidableEq, Repr

/-- The nodes, and every order that was ever pushed, with the node it was pushed to. -/
structure World (κ : Type) where
  strict : Bool
  desks : NodeId → Desk κ
  sent : List (NodeId × AcceptRequest) := []

/-- The world as the calls of one operation find it. -/
structure Net (κ : Type) where
  world : World κ
  delays : List Nat
  fates : List Fate

namespace World

variable {κ : Type}

def log (w : World κ) (id : NodeId) : OrderLog := (w.desks id).node.storage.log

def registry (w : World κ) (id : NodeId) : Registry := (w.desks id).node.registry

def put (w : World κ) (id : NodeId) (d : Desk κ) : World κ :=
  { w with desks := fun other => if other = id then d else w.desks other }

def work [Catalog κ] (w : World κ) (id : NodeId) (task : Work α) : World κ :=
  w.put id (task.perform (w.desks id)).2

end World

namespace Net

variable {κ : Type} [Catalog κ]

def serve (net : Net κ) (member : Member) (method : Method) (request : method.Request) :
    Except PeerError method.Response × Net κ :=
  let task := Service.serve net.world.strict method request
  let answer := (task.perform (net.world.desks member.id)).1.1
  (answer.mapError fun e => .rejected member.address.text e.status e.message,
    { net with world := net.world.work member.id task })

/-- Sends a call out; pushed orders are noted. -/
def depart (net : Net κ) (member : Member) :
    (method : Method) → method.Request → Departure × Net κ
  | .accept, request =>
    (⟨net.delays.headD 0, true⟩,
      { net with
        delays := net.delays.tail
        world := { net.world with sent := net.world.sent ++ [(member.id, request)] } })
  | _, _ => (⟨net.delays.headD 0, true⟩, { net with delays := net.delays.tail })

/-- Lets a call arrive. -/
def arrive (net : Net κ) (member : Member) (method : Method) (request : method.Request) :
    Except PeerError method.Response × Net κ :=
  let next := { net with fates := net.fates.tail }
  match net.fates.headD .served with
  | .served => next.serve member method request
  | .lost error => (.error error, next)
  | .unheard error =>
    (.error error, if method = .accept then (next.serve member method request).2 else next)

instance : Peers (Net κ) where
  depart := depart
  arrive net member _ := net.arrive member

end Net

namespace World

open Replication

variable {κ : Type} [Catalog κ]

omit [Catalog κ] in
def site (w : World κ) (id : NodeId) (weather : Weather) : Site κ (Net κ) where
  desk := w.desks id
  lanes := .ofWidth weather.parallel weather.deadline ⟨w, weather.delays, weather.fates⟩

def leave (id : NodeId) (s : Site κ (Net κ)) : World κ := s.lanes.peers.world.put id s.desk

def sync (w : World κ) (id : NodeId) (weather : Weather) :
    Except Failure SyncReport × World κ :=
  let (answer, s) := (w.site id weather).sync
  (answer, leave id s)

/-- Lets a node buy, and push the order that it places. -/
def buy (w : World κ) (id : NodeId) (weather : Weather) (request : BuyRequest) : World κ :=
  let (outcome, s) := (w.site id weather).work (Service.buy w.strict request)
  match outcome.owed? with
  | none => leave id s
  | some order => leave id (s.fanOut order).2

/-- The log calls on which a served fetch rests do not fail. -/
def Usable (outage : LogCall → Option Failure) : Prop :=
  outage .after = none ∧ outage .insertAll = none

/-- One operation in a world with a steady leader. -/
inductive Step (leader : NodeId) : World κ → World κ → Prop where
  /-- The leader buys, and pushes the order that it places. -/
  | buy (w : World κ) (weather : Weather) (request : BuyRequest) :
    Step leader w (w.buy leader weather request)
  /-- A node catches up. -/
  | sync (w : World κ) (id : NodeId) (weather : Weather) : Step leader w (w.sync id weather).2
  /-- A pushed order arrives late, or once more. -/
  | deliver (w : World κ) {id : NodeId} {request : AcceptRequest}
    (sent : (id, request) ∈ w.sent) : Step leader w (w.work id (Service.accept request))
  /-- A node is told who leads. -/
  | assign (w : World κ) (id : NodeId) (request : LeaderAssignment) :
    Step leader w (w.work id (Service.assign request))
  /-- A node other than the leader is opened again over its log. -/
  | restart (w : World κ) {id : NodeId} {d : Desk κ} {outage : LogCall → Option Failure}
    {listed : List Member} (other : id ≠ leader) (usable : Usable outage)
    (opened : Service.openNode ⟨(w.log id).reopen, outage⟩ (.ofMembers id listed) = .ok d.node) :
    Step leader w (w.put id d)
  /-- Log calls begin or cease to fail, and the catalog changes. -/
  | disturb (w : World κ) (id : NodeId) {outage : LogCall → Option Failure}
    (usable : Usable outage) (catalog : κ) :
    Step leader w
      (w.put id
        { node :=
            { (w.desks id).node with
              storage := { (w.desks id).node.storage with outage := outage } }
          catalog })

omit [Catalog κ] in
/-- A world in which nothing has happened yet: nodes just opened over empty files. -/
structure Fresh (w : World κ) : Prop where
  opened : ∀ id, ∃ connections outage listed, Usable outage ∧
    Service.openNode ⟨.table { medium := .onFile connections }, outage⟩ (.ofMembers id listed) =
      .ok (w.desks id).node
  unsent : w.sent = []

/-- The worlds that can be reached from a fresh one. -/
inductive Reachable (leader : NodeId) : World κ → Prop where
  | fresh {w : World κ} (fresh : w.Fresh) : Reachable leader w
  | step {w w' : World κ} (reached : Reachable leader w) (step : Step leader w w') :
    Reachable leader w'

end World

/-! ## What can become of a call -/

namespace Net

open Replication

variable {κ : Type} [Catalog κ]

/-- The answer of a peer as its caller sees it. -/
def heard (member : Member) (answer : Except ServiceError α) : Except PeerError α :=
  answer.mapError fun e => .rejected member.address.text e.status e.message

/-- A call that leaves no order owed is served by its own task. -/
theorem serve_eq (net : Net κ) (member : Member) {method : Method} {request : method.Request}
    {task : Work (Except ServiceError method.Response)}
    (own : Service.serve net.world.strict method request = do return (← task, none)) :
    net.serve member method request =
      (heard member (task.perform (net.world.desks member.id)).1,
        { net with world := net.world.work member.id task }) := by
  have eq : (Service.serve net.world.strict method request).perform (net.world.desks member.id) =
      (((task.perform (net.world.desks member.id)).1, none),
        (task.perform (net.world.desks member.id)).2) := by
    rw [own, Work.perform_bind, Work.perform_pure]
  exact congrArg
    (fun done => (heard member done.1.1, { net with world := net.world.put member.id done.2 })) eq

theorem serve_accept (net : Net κ) (member : Member) (request : AcceptRequest) :
    net.serve member .accept request =
      (heard member ((Service.accept request).perform (net.world.desks member.id)).1,
        { net with world := net.world.work member.id (Service.accept request) }) :=
  serve_eq net member rfl

theorem serve_fetch (net : Net κ) (member : Member) (request : FetchRequest) :
    net.serve member .fetch request =
      (heard member ((Service.fetch request).perform (net.world.desks member.id)).1,
        { net with world := net.world.work member.id (Service.fetch request) }) :=
  serve_eq net member rfl

/-- A pushed order that arrives has no effect and fails, or is taken by the peer, whatever the
sender sees. -/
theorem arrive_accept (net : Net κ) (member : Member) (departure : Departure)
    (request : AcceptRequest) :
    (((Errand.accept request).arrive net member departure).2.world = net.world ∧
        ((Errand.accept request).arrive net member departure).1.isFailed = true) ∨
      (((Errand.accept request).arrive net member departure).2.world =
          net.world.work member.id (Service.accept request) ∧
        (((Errand.accept request).arrive net member departure).1.isFailed = true ∨
          ∃ response, ((Service.accept request).perform (net.world.desks member.id)).1 =
            .ok response)) := by
  have eq : (Errand.accept request).arrive net member departure =
      (.ofAccept (net.arrive member .accept request).1,
        (net.arrive member .accept request).2) := rfl
  rw [eq]
  unfold arrive
  cases net.fates.headD .served with
  | served =>
    refine Or.inr ?_
    simp only [serve_accept]
    refine ⟨trivial, ?_⟩
    cases ((Service.accept request).perform (net.world.desks member.id)).1 with
    | error e => exact Or.inl rfl
    | ok response => exact Or.inr ⟨response, rfl⟩
  | lost e => exact Or.inl ⟨rfl, rfl⟩
  | unheard e =>
    refine Or.inr ⟨?_, Or.inl rfl⟩
    simp only [if_true, serve_accept]

/-- A fetch that arrives has no effect and fails, or is answered with the orders above the number
that was asked for. -/
theorem arrive_fetch (net : Net κ) (member : Member) (departure : Departure)
    (request : FetchRequest)
    (readable : (net.world.desks member.id).node.storage.outage .after = none) :
    (((Errand.fetch request).arrive net member departure).2.world = net.world ∧
        ((Errand.fetch request).arrive net member departure).1.isFailed = true) ∨
      (((Errand.fetch request).arrive net member departure).2.world =
          net.world.work member.id (Service.fetch request) ∧
        ((Errand.fetch request).arrive net member departure).1 =
          .sent ((net.world.log member.id).after request.after)) := by
  have eq : (Errand.fetch request).arrive net member departure =
      (.ofFetch (net.arrive member .fetch request).1,
        (net.arrive member .fetch request).2) := rfl
  rw [eq]
  unfold arrive
  cases net.fates.headD .served with
  | served =>
    refine Or.inr ?_
    simp only [serve_fetch, Service.perform_fetch, Storage.read_of_works readable]
    exact ⟨trivial, rfl⟩
  | lost e => exact Or.inl ⟨rfl, rfl⟩
  | unheard e => exact Or.inl ⟨rfl, rfl⟩

end Net

end OrderCluster
