import OrderCluster.Replication.FanOut
import OrderCluster.Replication.Lanes
import OrderCluster.Replication.Sync
import OrderCluster.Service.Buy

/-!
# A node among its peers

A node at work together with the calls it has under way. Calls come in rounds, one for each sync
and each push. A sync is waited for; a push is waited for or goes on in the background while time
passes, until it has ended or is abandoned.
-/

namespace OrderCluster.Replication

/-- The calls of one sync or push: how many have not ended, and how the others ended. -/
structure Round where
  ticket : Nat
  kind : CallKind
  left : Nat
  ended : List Ended := []
  deriving DecidableEq, Repr

def Round.note (call : Call) (verdict : Verdict) (r : Round) : Round :=
  if r.ticket = call.ticket then
    { r with left := r.left - 1, ended := r.ended ++ [(call.member.id, verdict)] }
  else r

structure Site (κ σ : Type) where
  desk : Desk κ
  lanes : Lanes σ
  rounds : List Round := []
  nextTicket : Nat := 0

namespace Site

variable {κ σ : Type} [Catalog κ] [Peers σ]

/-- Does a task of the node; no time passes. -/
def work (s : Site κ σ) (task : Work α) : α × Site κ σ :=
  let (a, desk) := task.perform s.desk
  (a, { s with desk })

/-- Begins a round of calls to some members, in their order. -/
def launch (s : Site κ σ) (kind : CallKind) (members : List Member) (errand : Errand) :
    Nat × Site κ σ :=
  let calls := members.map fun member => ⟨s.nextTicket, member, errand⟩
  let rounds := if calls.isEmpty then s.rounds else s.rounds ++ [⟨s.nextTicket, kind, calls.length, []⟩]
  (s.nextTicket,
    { s with lanes := s.lanes.enqueue calls, rounds, nextTicket := s.nextTicket + 1 })

/-- Lands the next call that lands by the horizon, and settles it. A round whose last call has
landed is taken off the list and given back. -/
def landNext? (s : Site κ σ) (horizon : Option Nat) : Option (Option Round × Site κ σ) := do
  let landing ← s.lanes.landNext? horizon
  let s := { s with lanes := landing.lanes }
  let call := landing.call
  let kind := match call.errand with
    | .fetch _ => .fetch
    | .accept _ => .accept
  let (_, s) := s.work (settle kind call.member.id landing.verdict)
  let rounds := s.rounds.map (Round.note call landing.verdict)
  let finished := rounds.find? (·.left = 0)
  return (finished, { s with rounds := rounds.filter (·.left ≠ 0) })

def awaitWith (ticket : Nat) : Nat → Site κ σ → List Ended × Site κ σ
  | 0, s => ([], s)
  | fuel + 1, s =>
    match s.landNext? none with
    | none => ([], s)
    | some (some r, s) => if r.ticket = ticket then (r.ended, s) else awaitWith ticket fuel s
    | some (none, s) => awaitWith ticket fuel s

/-- Makes a round of calls and waits for its end; each landing takes one call away. -/
def call (s : Site κ σ) (kind : CallKind) (members : List Member) (errand : Errand) :
    List Ended × Site κ σ :=
  let (ticket, s) := s.launch kind members errand
  if members.isEmpty then ([], s) else awaitWith ticket s.lanes.load s

def sync (s : Site κ σ) : Except Failure SyncReport × Site κ σ :=
  match s.work Sync.begin with
  | (.error cause, s) => (.error cause, s)
  | (.ok sync, s) =>
    let (ended, s) := s.call .fetch sync.peers sync.errand
    s.work (sync.conclude ended)

def fanOut (s : Site κ σ) (order : Order) : FanOutReport × Site κ σ :=
  let (push, s) := s.work (FanOut.begin order)
  let (ended, s) := s.call .accept push.peers push.errand
  (FanOut.report ended, s)

def spawn (s : Site κ σ) (order : Order) : Site κ σ :=
  let (push, s) := s.work (FanOut.begin order)
  (s.launch .accept push.peers push.errand).2

def pending (s : Site κ σ) : Nat := s.rounds.length

def landAllWith (horizon : Nat) : Nat → Site κ σ → Site κ σ
  | 0, s => s
  | fuel + 1, s =>
    match s.landNext? (some horizon) with
    | none => s
    | some (_, s) => landAllWith horizon fuel s

/-- Lands all calls that land by the horizon; each landing takes one call away. -/
def landAll (s : Site κ σ) (horizon : Nat) : Site κ σ := landAllWith horizon s.lanes.load s

def advance (s : Site κ σ) (millis : Nat) : Site κ σ :=
  let horizon := s.lanes.now + millis
  let s := s.landAll horizon
  { s with lanes := { s.lanes with now := horizon } }

/-- Waits for the pushes in the background, but no longer than the grace period; those that have not
ended by then are abandoned and counted. -/
def drain (s : Site κ σ) (grace : Nat) : Nat × Site κ σ :=
  let horizon := s.lanes.now + grace
  let s := s.landAll horizon
  match s.rounds with
  | [] => (0, s)
  | rounds =>
    (rounds.length, { s with lanes := { s.lanes with now := horizon }.clear, rounds := [] })

end Site

end OrderCluster.Replication
