import OrderCluster.Replication.Call
import OrderCluster.Rpc.Peers

/-!
# Lanes for replication calls

All replication calls of a node share a fixed number of lanes. A call waits its turn until a lane is
free, and its deadline counts from then. Time is virtual, in milliseconds, and passes only from one
landing to the next.
-/

namespace OrderCluster.Replication

/-- A call that a round of calls asks for. -/
structure Call where
  ticket : Nat
  member : Member
  errand : Errand
  deriving DecidableEq, Repr

structure Flight where
  call : Call
  departed : Nat
  departure : Departure
  deriving DecidableEq, Repr

namespace Flight

/-- Whether a call is given up before it arrives. -/
def isLate (f : Flight) (deadline : Nat) : Bool := deadline < f.departure.delay

/-- When a call ends, in one way or the other. -/
def landsAt (f : Flight) (deadline : Nat) : Nat := f.departed + min f.departure.delay deadline

/-- The flight that lands first, of two that land together the one that departed first, and the
other flights. -/
def earliest? (deadline : Nat) : List Flight → Option (Flight × List Flight)
  | [] => none
  | f :: rest =>
    match earliest? deadline rest with
    | none => some (f, [])
    | some (g, others) =>
      if f.landsAt deadline ≤ g.landsAt deadline then some (f, rest) else some (g, f :: others)

end Flight

/-- The lanes of a node, with the calls on them and those that wait, in their order. -/
structure Lanes (σ : Type) where
  now : Nat := 0
  deadline : Nat
  free : Nat
  flights : List Flight := []
  waiting : List Call := []
  peers : σ

structure Landing (σ : Type) where
  call : Call
  verdict : Verdict
  lanes : Lanes σ

def Errand.depart [Peers σ] (peers : σ) (member : Member) : Errand → Departure × σ
  | .fetch request => Peers.depart peers member .fetch request
  | .accept request => Peers.depart peers member .accept request

def Errand.arrive [Peers σ] (peers : σ) (member : Member) (departure : Departure) :
    Errand → Verdict × σ
  | .fetch request =>
    let (answer, peers) := Peers.arrive peers member departure .fetch request
    (.ofFetch answer, peers)
  | .accept request =>
    let (answer, peers) := Peers.arrive peers member departure .accept request
    (.ofAccept answer, peers)

namespace Lanes

variable {σ : Type} [Peers σ]

/-- So many empty lanes, at least one. -/
def ofWidth (parallel deadline : Nat) (peers : σ) : Lanes σ :=
  { deadline, free := max parallel 1, peers }

def depart (l : Lanes σ) (call : Call) : Lanes σ :=
  let (departure, peers) := call.errand.depart l.peers call.member
  { l with free := l.free - 1, flights := l.flights ++ [⟨call, l.now, departure⟩], peers }

/-- Lets calls depart in their order while there are free lanes; the others wait. -/
def fill (l : Lanes σ) : List Call → Lanes σ
  | [] => { l with waiting := [] }
  | call :: rest => if l.free = 0 then { l with waiting := call :: rest } else (l.depart call).fill rest

/-- Takes calls in, behind those that wait already. -/
def enqueue (l : Lanes σ) (calls : List Call) : Lanes σ := l.fill (l.waiting ++ calls)

/-- Lands a flight: it arrives or is given up, its lane is free again, and the next call departs. -/
def land (l : Lanes σ) (f : Flight) (others : List Flight) : Landing σ :=
  let (verdict, peers) :=
    if f.isLate l.deadline then (.failed (Peers.gaveUp f.call.member l.deadline), l.peers)
    else f.call.errand.arrive l.peers f.call.member f.departure
  let l := { l with now := f.landsAt l.deadline, free := l.free + 1, flights := others, peers }
  ⟨f.call, verdict, l.fill l.waiting⟩

/-- The next landing that is not after the horizon. -/
def landNext? (l : Lanes σ) (horizon : Option Nat) : Option (Landing σ) :=
  match Flight.earliest? l.deadline l.flights with
  | none => none
  | some (f, others) =>
    if horizon.all (f.landsAt l.deadline ≤ ·) then some (l.land f others) else none

def load (l : Lanes σ) : Nat := l.flights.length + l.waiting.length

/-- Drops calls: nothing of them arrives any more, their lanes are free again, and the next calls
depart. -/
def drop (l : Lanes σ) (gone : Call → Bool) : Lanes σ :=
  let flights := l.flights.filter fun f => !gone f.call
  { l with free := l.free + (l.flights.length - flights.length), flights }.fill
    (l.waiting.filter fun call => !gone call)

def clear (l : Lanes σ) : Lanes σ := l.drop fun _ => true

end Lanes

end OrderCluster.Replication
