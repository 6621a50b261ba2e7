import Mathlib.Logic.Relation
import OrderCluster.Catalog.Stock
import OrderCluster.Proofs.Interleaving.Thread
import OrderCluster.Proofs.Replication.Limiter
import OrderCluster.Rpc.Scripted

/-!
# One node, its operations and its calls

Any number of operations run at one node, and their actions interleave in any order. The calls of
its syncs and pushes, waited for or in the background, share the lanes of the node. Time passes
until a call ends; an operation that waits for calls hears of them in any order, some time after
they ended. Operations may be broken off, and calls may be dropped, one by one or together.
-/

namespace OrderCluster.Interleaving

open Replication

/-- A node that is at work on several operations. -/
structure Station (κ σ : Type) where
  desk : Desk κ
  lanes : Lanes σ
  /-- The operations, each with the ticket that its calls bear. -/
  threads : List (Nat × Thread) := []
  /-- What became of the calls that landed. -/
  landed : List (Call × Verdict) := []

/-- The calls of a thread that has just decided whom to call. -/
def Thread.launches (ticket : Nat) (t : Thread) : List Call :=
  match t.rest with
  | .done (.calling purpose members []) => members.map fun m => ⟨ticket, m, purpose.errand⟩
  | _ => []

namespace Station

variable {κ σ : Type} [Catalog κ] [Peers σ]

/-- A node at which nothing has begun, with so many lanes. -/
def opened (desk : Desk κ) (parallel deadline : Nat) (peers : σ) : Station κ σ :=
  { desk, lanes := .ofWidth parallel deadline peers }

/-- A ticket that nothing at a node bears. -/
structure Fresh (s : Station κ σ) (ticket : Nat) : Prop where
  threads : ∀ e ∈ s.threads, e.1 ≠ ticket
  calls : ∀ call ∈ s.lanes.calls, call.ticket ≠ ticket
  landed : ∀ e ∈ s.landed, e.1.ticket ≠ ticket

/-- One step of a node. -/
inductive Step : Station κ σ → Station κ σ → Prop where
  /-- An operation begins, under a ticket of its own. -/
  | begin {s : Station κ σ} {ticket : Nat} (operation : Operation) (fresh : s.Fresh ticket) :
    Step s { s with threads := s.threads ++ [(ticket, .start operation)] }
  /-- An operation goes on. It hears of its calls after they landed, and once it has decided whom to
  call its calls are taken in. -/
  | move {s : Station κ σ} {ticket : Nat} {t t' : Thread} {d' : Desk κ}
    {front back : List (Nat × Thread)} (among : s.threads = front ++ (ticket, t) :: back)
    (step : t.Step (fun member errand verdict => (⟨ticket, member, errand⟩, verdict) ∈ s.landed)
      s.desk d' t') :
    Step s
      { s with
        desk := d'
        lanes := s.lanes.enqueue (t'.launches ticket)
        threads := front ++ (ticket, t') :: back }
  /-- The next call lands. -/
  | land {s : Station κ σ} {f : Flight} {others : List Flight}
    (perm : s.lanes.flights.Perm (f :: others))
    (first : ∀ g ∈ s.lanes.flights, f.landsAt s.lanes.deadline ≤ g.landsAt s.lanes.deadline) :
    Step s
      { s with
        lanes := (s.lanes.land f others).lanes
        landed := s.landed ++ [(f.call, (s.lanes.land f others).verdict)] }
  /-- Time passes, calls are dropped or change places, or the peers change. -/
  | drift {s : Station κ σ} {lanes : Lanes σ} (drift : s.lanes.Drift lanes) :
    Step s { s with lanes }
  /-- An operation is broken off. -/
  | quit {s : Station κ σ} {gone : Nat × Thread} {front back : List (Nat × Thread)}
    (among : s.threads = front ++ gone :: back) : Step s { s with threads := front ++ back }
  /-- Log calls begin or cease to fail, and the catalog changes. -/
  | disturb (s : Station κ σ) (outage : LogCall → Option Failure) (catalog : κ) :
    Step s
      { s with
        desk :=
          { node :=
              { s.desk.node with storage := { s.desk.node.storage with outage := outage } }
            catalog } }

abbrev Run : Station κ σ → Station κ σ → Prop := Relation.ReflTransGen Step

/-- The threads beside one that changes stay. -/
theorem mem_of_replaced {front back : List (Nat × Thread)} {old e : Nat × Thread}
    (member : e ∈ front ++ old :: back) (new : Nat × Thread) :
    e = old ∨ e ∈ front ++ new :: back := by
  rcases List.mem_append.mp member with before | behind
  · exact Or.inr (List.mem_append_left _ before)
  · rcases List.mem_cons.mp behind with rfl | behind
    · exact Or.inl rfl
    · exact Or.inr (List.mem_append_right _ (List.mem_cons_of_mem _ behind))

/-- Whatever happens at a node, its lanes are left alone or make a move. -/
theorem Step.lanes {s s' : Station κ σ} (step : s.Step s') :
    s'.lanes = s.lanes ∨ s.lanes.Move s'.lanes := by
  cases step with
  | begin | quit | disturb => exact Or.inl rfl
  | move among step => exact Or.inr (.enqueue _ _)
  | land perm first => exact Or.inr (.land perm first)
  | drift drift => exact Or.inr (.drift drift)

/-- What is promised of the calls of a node that has so many lanes. -/
structure Limited (width deadline : Nat) (s : Station κ σ) : Prop where
  /-- Only so many calls are under way, over all syncs and pushes together. -/
  running : s.lanes.flights.length ≤ width
  /-- Every lane is free or has one call on it. -/
  permits : s.lanes.free + s.lanes.flights.length = width
  /-- No call waits while a lane is free. -/
  busy : s.lanes.waiting ≠ [] → s.lanes.free = 0
  /-- No call runs longer than the deadline, counted from its departure. -/
  timely : ∀ f ∈ s.lanes.flights,
    f.departed ≤ s.lanes.now ∧ s.lanes.now ≤ f.departed + deadline
  /-- A call departs at the moment at which it gets its lane. -/
  granted : ∀ s', s.Step s' → ∀ f ∈ s'.lanes.flights,
    f ∈ s.lanes.flights ∨ f.departed = s'.lanes.now

theorem Run.limited {width deadline : Nat} {s s' : Station κ σ} (run : Run s s')
    (limited : s.lanes.Limited width deadline) : s'.lanes.Limited width deadline := by
  induction run with
  | refl => exact limited
  | tail before step ih =>
    rcases step.lanes with same | move
    · rw [same]
      exact ih
    · exact move.limited ih

/-- The limiter is shared by all syncs and pushes of a node, and it leaks nothing, whatever the
peers do and whatever is broken off. -/
theorem limited_of_run {d : Desk κ} {parallel deadline : Nat} {peers : σ} {s : Station κ σ}
    (run : Run (opened d parallel deadline peers) s) : s.Limited (max parallel 1) deadline := by
  obtain ⟨patience, permits, busy, timely⟩ :=
    run.limited (Lanes.limited_ofWidth parallel deadline peers)
  constructor
  · omega
  · exact permits
  · exact busy
  · intro f flies
    have due := timely f flies
    have bound : f.landsAt deadline ≤ f.departed + deadline :=
      Nat.add_le_add_left (Nat.min_le_right _ _) _
    omega
  · intro s' step f flies
    rcases step.lanes with same | move
    · rw [same] at flies
      exact Or.inl flies
    · exact move.departed flies

/-! ## Schedules -/

omit [Catalog κ] [Peers σ] in
theorem fresh_iff {s : Station κ σ} {ticket : Nat} :
    s.Fresh ticket ↔ (∀ e ∈ s.threads, e.1 ≠ ticket) ∧
      (∀ call ∈ s.lanes.calls, call.ticket ≠ ticket) ∧ ∀ e ∈ s.landed, e.1.ticket ≠ ticket :=
  ⟨fun fresh => ⟨fresh.threads, fresh.calls, fresh.landed⟩, fun ⟨a, b, c⟩ => ⟨a, b, c⟩⟩

instance (s : Station κ σ) (ticket : Nat) : Decidable (s.Fresh ticket) :=
  decidable_of_iff _ fresh_iff.symm

/-- What is to happen next at a node. -/
inductive Cue where
  | begin (ticket : Nat) (operation : Operation)
  /-- The operation at a position does its next action. -/
  | act (position : Nat)
  | land
  /-- The operation at a position hears of one of its calls. -/
  | hear (position : Nat)
  /-- The operation at a position concludes, all of its calls having ended. -/
  | conclude (position : Nat)
  /-- The calls with a ticket are dropped. -/
  | drop (ticket : Nat)

def start (s : Station κ σ) (ticket : Nat) (operation : Operation) : Station κ σ :=
  if s.Fresh ticket then { s with threads := s.threads ++ [(ticket, .start operation)] } else s

def act (s : Station κ σ) (position : Nat) : Station κ σ :=
  match s.threads[position]? with
  | some (ticket, ⟨operation, trace, .act action next⟩) =>
    let t : Thread :=
      ⟨operation, trace ++ [.did action (action.perform s.desk).1], next (action.perform s.desk).1⟩
    { s with
      desk := (action.perform s.desk).2
      lanes := s.lanes.enqueue (t.launches ticket)
      threads := s.threads.set position (ticket, t) }
  | _ => s

def land (s : Station κ σ) : Station κ σ :=
  match Flight.earliest? s.lanes.deadline s.lanes.flights with
  | some (f, others) =>
    { s with
      lanes := (s.lanes.land f others).lanes
      landed := s.landed ++ [(f.call, (s.lanes.land f others).verdict)] }
  | none => s

/-- Lets an operation hear of one of its calls. -/
def hear (s : Station κ σ) (position : Nat) : Station κ σ :=
  match s.threads[position]? with
  | some (ticket, ⟨operation, trace, .done (.calling purpose waiting ended)⟩) =>
    match s.landed.find? fun e =>
        e.1.ticket = ticket ∧ e.1.errand = purpose.errand ∧ e.1.member ∈ waiting with
    | some (call, verdict) =>
      let t : Thread :=
        ⟨operation, trace ++ [.landed call.member verdict], do
          settle purpose.errand.kind call.member.id verdict
          return .calling purpose (waiting.erase call.member) (ended ++ [(call.member.id, verdict)])⟩
      { s with
        lanes := s.lanes.enqueue (t.launches ticket)
        threads := s.threads.set position (ticket, t) }
    | none => s
  | _ => s

def conclude (s : Station κ σ) (position : Nat) : Station κ σ :=
  match s.threads[position]? with
  | some (ticket, ⟨operation, trace, .done (.calling purpose [] ended)⟩) =>
    let t : Thread := ⟨operation, trace, purpose.conclude ended⟩
    { s with
      lanes := s.lanes.enqueue (t.launches ticket)
      threads := s.threads.set position (ticket, t) }
  | _ => s

/-- What comes of a cue; one that cannot be followed is passed over. -/
def follow (s : Station κ σ) : Cue → Station κ σ
  | .begin ticket operation => s.start ticket operation
  | .act position => s.act position
  | .land => s.land
  | .hear position => s.hear position
  | .conclude position => s.conclude position
  | .drop ticket => { s with lanes := s.lanes.drop fun call => call.ticket = ticket }

/-- A thread of the list, with those before and after it. -/
theorem among_of_get {threads : List (Nat × Thread)} {position : Nat} {entry : Nat × Thread}
    (found : threads[position]? = some entry) :
    threads = threads.take position ++ entry :: threads.drop (position + 1) ∧
      ∀ other, threads.set position other =
        threads.take position ++ other :: threads.drop (position + 1) := by
  obtain ⟨inside, rfl⟩ := List.getElem?_eq_some_iff.mp found
  constructor
  · rw [List.getElem_cons_drop, List.take_append_drop]
  · intro other
    rw [List.set_eq_take_append_cons_drop, if_pos inside]

theorem step_start (s : Station κ σ) (ticket : Nat) (operation : Operation) :
    Relation.ReflGen Step s (s.start ticket operation) := by
  unfold start
  split
  · rename_i fresh
    exact .single (.begin operation fresh)
  · exact .refl

theorem step_act (s : Station κ σ) (position : Nat) :
    Relation.ReflGen Step s (s.act position) := by
  unfold act
  split
  · rename_i ticket operation trace action next found
    obtain ⟨among, set⟩ := among_of_get found
    dsimp only
    rw [set]
    exact .single (.move among (.act s.desk operation trace action next))
  · exact .refl

theorem step_land (s : Station κ σ) : Relation.ReflGen Step s s.land := by
  unfold land
  split
  · rename_i f others found
    exact .single (.land (Flight.earliest?_perm found) (Flight.earliest?_first found))
  · exact .refl

theorem step_hear (s : Station κ σ) (position : Nat) :
    Relation.ReflGen Step s (s.hear position) := by
  unfold hear
  split
  · rename_i ticket operation trace purpose waiting ended found
    obtain ⟨among, set⟩ := among_of_get found
    split
    · rename_i call verdict heard
      have fits := List.find?_some heard
      simp only [decide_eq_true_eq] at fits
      obtain ⟨mine, errand, called⟩ := fits
      have landed := List.mem_of_find?_eq_some heard
      dsimp only
      rw [set]
      refine .single (.move among (.land s.desk operation trace purpose waiting ended called ?_))
      rw [← mine, ← errand]
      exact landed
    · exact .refl
  · exact .refl

theorem step_conclude (s : Station κ σ) (position : Nat) :
    Relation.ReflGen Step s (s.conclude position) := by
  unfold conclude
  split
  · rename_i ticket operation trace purpose ended found
    obtain ⟨among, set⟩ := among_of_get found
    dsimp only
    rw [set]
    exact .single (.move among (.conclude s.desk operation trace purpose ended))
  · exact .refl

/-- A cue is followed by at most one step. -/
theorem step_follow (s : Station κ σ) (cue : Cue) : Relation.ReflGen Step s (s.follow cue) := by
  cases cue with
  | begin ticket operation => exact step_start s ticket operation
  | act position => exact step_act s position
  | land => exact step_land s
  | hear position => exact step_hear s position
  | conclude position => exact step_conclude s position
  | drop ticket => exact .single (.drift (.drop _ _))

theorem run_foldl (s : Station κ σ) (schedule : List Cue) : Run s (schedule.foldl follow s) := by
  induction schedule generalizing s with
  | nil => exact .refl
  | cons cue rest ih => exact (step_follow s cue).to_reflTransGen.trans (ih _)

/-- A node without orders, with so many lanes and peers that follow a script. -/
def scripted (parallel : Nat) (peers : ScriptedPeers) : Station Stock ScriptedPeers :=
  opened
    { node :=
        { storage := { log := .table { medium := .inMemory } }
          counter := .startingAbove 0
          registry := .ofMembers 1 peers.members }
      catalog := {} } parallel 50 peers

/-- A node with one lane, one peer that is too slow and one that answers. -/
def narrow : Station Stock ScriptedPeers := scripted 0 ⟨[{ id := 2, delay := 80 }, { id := 3 }]⟩

/-- Two pushes at once. The first call is given up, and the next one, which gets its lane, is
dropped; then it is the turn of the second push. -/
def crowded : Station Stock ScriptedPeers :=
  [.begin 0 (.push ⟨1, "ant", 1⟩), .act 0, .begin 1 (.push ⟨2, "bee", 1⟩), .act 1, .land,
    .drop 0].foldl follow narrow

theorem limited_crowded :
    crowded.landed.map (fun e => e.2.isFailed) = [true] ∧
      crowded.lanes.flights.map (fun f => (f.call.ticket, f.departed)) = [(1, 50)] ∧
      crowded.lanes.waiting.length = 1 ∧ crowded.Limited 1 50 := by
  refine ⟨by decide +kernel, by decide +kernel, by decide +kernel, ?_⟩
  exact limited_of_run (run_foldl narrow _)

end Station

end OrderCluster.Interleaving
