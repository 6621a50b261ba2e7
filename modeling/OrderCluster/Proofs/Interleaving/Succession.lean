import OrderCluster.Proofs.Interleaving.Mirror
import OrderCluster.Proofs.Interleaving.Standing
import OrderCluster.Proofs.Lifetime

/-!
# One operation after the other

A site runs each operation to its end before the next one begins, and the calls of its pushes in the
background land in between. That is one of the schedules of a node, so whatever holds in every
schedule holds of a site.
-/

namespace OrderCluster

/-- Whether a deed is one of the node itself. -/
def Lifetime.Deed.isOwn : Lifetime.Deed → Bool
  | .disturb | .restart => false
  | _ => true

namespace Interleaving

open Replication

namespace Station

variable {κ σ : Type} [Catalog κ] [Peers σ]

/-- A node can come, from its beginning, to where a site is. -/
def Mirrored (first : Station κ σ) (site : Site κ σ) : Prop :=
  ∃ s purposes, Mirrors first purposes s site

/-! ## What a site does -/

section Doings

variable {first s : Station κ σ} {purposes : Nat → Purpose} {site : Site κ σ} {width deadline : Nat}
  (starts : first.lanes.Limited width deadline)
include starts

theorem mirrored_advance (mirrors : Mirrors first purposes s site) (millis : Nat) :
    Mirrored first (site.advance millis) := by
  obtain ⟨landed, soon, due⟩ := Site.due_landAllWith (Nat.le_refl _) (mirrors.limited starts)
    (Nat.le_add_right site.lanes.now millis)
  obtain ⟨s', after⟩ := mirrors.landAllWith (site.lanes.now + millis) site.lanes.load
  refine ⟨_, purposes, after.elapse soon fun f flies => ?_⟩
  rw [landed.patience]
  exact due f flies

theorem mirrored_drain (mirrors : Mirrors first purposes s site) (grace : Nat) :
    Mirrored first (site.drain grace).2 := by
  obtain ⟨landed, soon, due⟩ := Site.due_landAllWith (Nat.le_refl _) (mirrors.limited starts)
    (Nat.le_add_right site.lanes.now grace)
  obtain ⟨s', after⟩ := mirrors.landAllWith (site.lanes.now + grace) site.lanes.load
  simp only [Site.drain]
  split
  · exact ⟨s', purposes, after⟩
  · refine ⟨_, purposes, (after.elapse soon fun f flies => ?_).clear⟩
    rw [landed.patience]
    exact due f flies

theorem mirrored_fanOut (mirrors : Mirrors first purposes s site) (roomy : 0 < width)
    (order : Order) : Mirrored first (site.fanOut order).2 := by
  obtain ⟨s', purposes', _, _, after, _⟩ :=
    mirrors.call starts roomy (perform_push order site.desk) .accept
  exact ⟨s', purposes', after⟩

theorem mirrored_spawn (mirrors : Mirrors first purposes s site) (order : Order) :
    Mirrored first (site.spawn order) := by
  obtain ⟨s', _, after, _⟩ := mirrors.launch starts (perform_push order site.desk) .accept
  exact ⟨s', _, after⟩

/-- Log calls may begin or cease to fail between the calls of a sync and its end. -/
theorem mirrored_sync (mirrors : Mirrors first purposes s site) (roomy : 0 < width)
    (outage : LogCall → Option Failure) : Mirrored first (site.syncMeeting outage).2 := by
  cases begun : Sync.begin.perform site.desk with
  | mk decided d =>
    cases decided with
    | error cause =>
      have failed := perform_sync_error begun
      have same : (site.syncMeeting outage).2 = (site.work Operation.sync.work).2 := by
        simp only [Site.syncMeeting, Site.work, begun, failed]
      have silent : ∀ ticket trace, Thread.launches ticket
          ⟨.sync, trace, .done (Operation.sync.work.perform site.desk).1⟩ = [] := by
        intro ticket trace
        rw [failed]
        rfl
      rw [same]
      obtain ⟨s', after⟩ := mirrors.work starts silent
      exact ⟨s', purposes, after⟩
    | ok sync =>
      obtain ⟨s', purposes', _, _, heard, thread⟩ :=
        mirrors.call starts roomy (perform_sync_ok begun) .fetch
      let round := ({ site with desk := d } : Site κ σ).call .fetch sync.peers sync.errand
      have met := heard.disturb outage round.2.desk.catalog
      have same : (site.syncMeeting outage).2 =
          ((round.2.failing outage).work ((Purpose.sync sync).conclude round.1)).2 := by
        simp only [Site.syncMeeting, Site.work, begun, perform_conclude_sync, round]
      rw [same]
      obtain ⟨s'', after⟩ := met.conclude starts thread fun _ => by
        rw [perform_conclude_sync]
        rfl
      exact ⟨s'', purposes', after⟩

omit [Peers σ] starts in
/-- What an operation answers is of no concern to the site. -/
theorem work_wrapped (site : Site κ σ) (task : Work α) (f : α → Outcome) :
    (site.work (do return f (← task))).2 = (site.work task).2 := by
  rw [Site.work, Work.perform_bind]
  rfl

/-- A mirror follows whatever a node does by itself. -/
theorem mirrored_step (mirrors : Mirrors first purposes s site) (roomy : 0 < width)
    {deed : Lifetime.Deed} {site' : Site κ σ} (own : deed.isOwn = true)
    (step : Lifetime.Step site deed site') : Mirrored first site' := by
  have silent : ∀ operation : Operation, operation.callsPeers = false →
      Mirrored first (site.work operation.work).2 := by
    intro operation silent
    obtain ⟨s', after⟩ := mirrors.work starts (Thread.launches_silent silent site.desk)
    exact ⟨s', purposes, after⟩
  cases step with
  | buy strict request => exact work_wrapped site _ Outcome.bought ▸ silent (.buy strict request) rfl
  | query request => exact work_wrapped site _ Outcome.queried ▸ silent (.query request) rfl
  | status => exact work_wrapped site _ Outcome.reported ▸ silent .status rfl
  | assign request => exact work_wrapped site _ Outcome.assigned ▸ silent (.assign request) rfl
  | fetch request => exact work_wrapped site _ Outcome.fetched ▸ silent (.fetch request) rfl
  | mark id status => exact work_wrapped site _ Outcome.marked ▸ silent (.mark id status) rfl
  | accept request => exact work_wrapped site _ Outcome.accepted ▸ silent (.accept request) rfl
  | sync outage => exact mirrored_sync starts mirrors roomy outage
  | fanOut order => exact mirrored_fanOut starts mirrors roomy order
  | spawn order => exact mirrored_spawn starts mirrors order
  | advance millis => exact mirrored_advance starts mirrors millis
  | drain grace => exact mirrored_drain starts mirrors grace
  | disturb | restart => cases own

end Doings

/-! ## Whole histories -/

/-- What happens at a site, one thing after the other. -/
inductive Happens : Site κ σ → Site κ σ → Prop where
  /-- The node does something, to its end. -/
  | deed {site site' : Site κ σ} {deed : Lifetime.Deed} (own : deed.isOwn = true)
    (step : Lifetime.Step site deed site') : Happens site site'
  /-- Log calls begin or cease to fail, and the catalog and the peers change. -/
  | disturb (site : Site κ σ) (outage : LogCall → Option Failure) (catalog : κ) (peers : σ) :
    Happens site
      { site with
        desk :=
          { node :=
              { site.desk.node with
                storage := { site.desk.node.storage with outage := outage } }
            catalog }
        lanes := { site.lanes with peers } }

/-- A site with so many lanes at which nothing has happened. -/
def vacant (desk : Desk κ) (parallel deadline : Nat) (peers : σ) : Site κ σ :=
  { desk, lanes := .ofWidth parallel deadline peers }

/-- What happens at a site, one thing after the other, is one of the schedules of a node. -/
theorem run_of_history {d : Desk κ} {parallel deadline : Nat} {peers : σ} {site : Site κ σ}
    (history : Relation.ReflTransGen Happens (vacant d parallel deadline peers) site) :
    ∃ s, Run (opened d parallel deadline peers) s ∧ s.desk = site.desk ∧ s.lanes = site.lanes := by
  have starts := Lanes.limited_ofWidth parallel deadline peers
  have roomy : 0 < max parallel 1 := by omega
  suffices mirrored : Mirrored (opened d parallel deadline peers) site by
    obtain ⟨s, _, mirrors⟩ := mirrored
    exact ⟨s, mirrors.run, mirrors.desk, mirrors.lanes⟩
  induction history with
  | refl =>
    exact ⟨_, fun _ => .push ⟨0, [], ⟨0, "", 0⟩⟩, .refl, rfl, rfl, nofun, nofun, List.nodup_nil,
      nofun, nofun⟩
  | tail before happens ih =>
    obtain ⟨s, purposes, mirrors⟩ := ih
    cases happens with
    | deed own step => exact mirrored_step starts mirrors roomy own step
    | disturb outage catalog peers =>
      obtain ⟨run, desk, lanes, threads, landed, distinct, known, rounds⟩ :=
        mirrors.disturb outage catalog
      refine ⟨_, purposes, run.tail (.drift (.stir _ peers)), desk, ?_, threads, landed, distinct,
        known, rounds⟩
      rw [← lanes]

/-- A site loses no lane, whatever happens at it. -/
theorem limited_of_history {d : Desk κ} {parallel deadline : Nat} {peers : σ} {site : Site κ σ}
    (history : Relation.ReflTransGen Happens (vacant d parallel deadline peers) site) :
    site.lanes.Limited (max parallel 1) deadline := by
  obtain ⟨s, run, _, lanes⟩ := run_of_history history
  rw [← lanes]
  exact run.limited (Lanes.limited_ofWidth parallel deadline peers)

/-- A site calls listed nodes only, and never itself. -/
theorem called_of_history {selfId : NodeId} {listed : List Member} {d : Desk κ}
    (named : d.node.registry = .ofMembers selfId listed) {parallel deadline : Nat} {peers : σ}
    {site : Site κ σ}
    (history : Relation.ReflTransGen Happens (vacant d parallel deadline peers) site) :
    ∀ call ∈ site.lanes.calls,
      call.member.id ≠ selfId ∧ ∃ m ∈ listed, m.id = call.member.id := by
  obtain ⟨s, run, _, lanes⟩ := run_of_history history
  intro call under_way
  rw [← lanes] at under_way
  obtain ⟨other, listed, _⟩ := ((invariant_of_run named run).calls call under_way).seen named
  exact ⟨other, listed⟩

end Station

end Interleaving

end OrderCluster
