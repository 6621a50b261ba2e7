import Mathlib
import OrderCluster.Catalog.Stock
import OrderCluster.Proofs.Replication.Account
import OrderCluster.Rpc.Scripted

/-!
# What becomes of a push

Over any history of a node each of its pushes has ended, or was abandoned by one drain, or is
pending. One that has ended has heard of all its calls, and the peers that failed are believed
offline; one that was abandoned never calls again.
-/

namespace OrderCluster.Replication

namespace Account

/-! ## One of three -/

section Fates

variable {κ σ : Type} {a : Account κ σ} {width : Nat}

/-- Of a push one thing is true and the others are not: it has ended, or just one drain abandoned
it, or it is pending. -/
def Accounted (a : Account κ σ) (ticket : Nat) : Prop :=
  (a.Finished ticket ∧ (∀ drain, ¬ a.Abandoned drain ticket) ∧ ¬ a.Pending ticket) ∨
  ((∃! drain, a.Abandoned drain ticket) ∧ ¬ a.Finished ticket ∧ ¬ a.Pending ticket) ∨
  (a.Pending ticket ∧ ¬ a.Finished ticket ∧ ∀ drain, ¬ a.Abandoned drain ticket)

theorem finished_iff {ticket : Nat} :
    a.Finished ticket ↔ ticket ∈ a.finished.map Finish.ticket := List.mem_map.symm

theorem abandoned_iff {ticket : Nat} :
    (∃ drain, a.Abandoned drain ticket) ↔ ticket ∈ a.abandoned.map Prod.snd := by
  simp [Abandoned]

theorem pending_iff {ticket : Nat} :
    a.Pending ticket ↔ ticket ∈ a.site.rounds.map Round.ticket := List.mem_map.symm

theorem Sound.spawned_iff (sound : a.Sound width) {ticket : Nat} :
    (∃ members, (ticket, members) ∈ a.spawned) ↔
      a.Finished ticket ∨ (∃ drain, a.Abandoned drain ticket) ∨ a.Pending ticket := by
  have among : (∃ members, (ticket, members) ∈ a.spawned) ↔ ticket ∈ a.spawned.map Prod.fst := by
    simp
  rw [among, ← sound.parted.mem_iff, finished_iff, abandoned_iff, pending_iff, List.mem_append,
    List.mem_append, or_assoc]

theorem Sound.accounted (sound : a.Sound width) {p : Nat × List Member} (spawned : p ∈ a.spawned) :
    a.Accounted p.1 := by
  have distinct := sound.parted.nodup_iff.mpr sound.distinct
  obtain ⟨settled, _, under_way⟩ := List.nodup_append.mp distinct
  obtain ⟨_, once, either⟩ := List.nodup_append.mp settled
  have not_both (ends : a.Finished p.1) (drain : Nat) : ¬ a.Abandoned drain p.1 := fun left =>
    either p.1 (finished_iff.mp ends) p.1 (abandoned_iff.mp ⟨drain, left⟩) rfl
  have not_over (pending : a.Pending p.1) :
      p.1 ∉ a.finished.map Finish.ticket ++ a.abandoned.map Prod.snd := fun among =>
    under_way p.1 among p.1 (pending_iff.mp pending) rfl
  rcases sound.spawned_iff.mp ⟨p.2, spawned⟩ with ends | ⟨drain, left⟩ | pending
  · refine .inl ⟨ends, not_both ends, fun pending => ?_⟩
    exact not_over pending (List.mem_append_left _ (finished_iff.mp ends))
  · refine .inr (.inl ⟨⟨drain, left, ?_⟩, fun ends => not_both ends drain left, ?_⟩)
    · intro other too
      have same := List.inj_on_of_nodup_map once too left rfl
      exact congrArg Prod.fst same
    · intro pending
      exact not_over pending (List.mem_append_right _ (abandoned_iff.mp ⟨drain, left⟩))
  · refine .inr (.inr ⟨pending, fun ends => ?_, fun drain left => ?_⟩)
    · exact not_over pending (List.mem_append_left _ (finished_iff.mp ends))
    · exact not_over pending (List.mem_append_right _ (abandoned_iff.mp ⟨drain, left⟩))

/-- An abandoned push is not pending. -/
theorem Sound.not_pending (sound : a.Sound width) {drain ticket : Nat}
    (left : a.Abandoned drain ticket) : ¬ a.Pending ticket := by
  obtain ⟨members, spawned⟩ := sound.spawned_iff.mpr (.inr (.inl ⟨drain, left⟩))
  rcases sound.accounted spawned with ⟨_, never, _⟩ | ⟨_, _, gone⟩ | ⟨_, _, never⟩
  · exact absurd left (never drain)
  · exact gone
  · exact absurd left (never drain)

end Fates

/-! ## A history -/

section History

variable {κ σ : Type} [Catalog κ] [Peers σ] {a b : Account κ σ} {width : Nat}

theorem Step.sound (step : Step a b) (sound : a.Sound width) : b.Sound width := by
  cases step with
  | spawn order => exact sound.spawn order
  | pending => exact sound
  | advance millis => exact sound.advance millis
  | drain grace => exact sound.drain grace
  | work d same => exact sound.work same
  | stir peers => exact sound.stir peers

/-- Nothing is taken off an account. -/
theorem Step.extends (step : Step a b) :
    a.spawned <+: b.spawned ∧ a.finished <+: b.finished ∧ a.abandoned <+: b.abandoned := by
  cases step with
  | spawn => exact ⟨List.prefix_append _ _, List.prefix_append _ _, List.prefix_rfl⟩
  | advance => exact ⟨List.prefix_rfl, List.prefix_append _ _, List.prefix_rfl⟩
  | drain => exact ⟨List.prefix_rfl, List.prefix_append _ _, List.prefix_append _ _⟩
  | pending => exact ⟨List.prefix_rfl, List.prefix_rfl, List.prefix_rfl⟩
  | work => exact ⟨List.prefix_rfl, List.prefix_rfl, List.prefix_rfl⟩
  | stir => exact ⟨List.prefix_rfl, List.prefix_rfl, List.prefix_rfl⟩

/-- What happens to an account, one thing after the other. -/
abbrev Run : Account κ σ → Account κ σ → Prop := Relation.ReflTransGen Step

theorem Run.sound (run : Run a b) (sound : a.Sound width) : b.Sound width := by
  induction run with
  | refl => exact sound
  | tail _ step ih => exact step.sound ih

theorem Run.extends (run : Run a b) :
    a.spawned <+: b.spawned ∧ a.finished <+: b.finished ∧ a.abandoned <+: b.abandoned := by
  induction run with
  | refl => exact ⟨List.prefix_rfl, List.prefix_rfl, List.prefix_rfl⟩
  | tail _ step ih =>
    obtain ⟨spawned, finished, abandoned⟩ := step.extends
    exact ⟨ih.1.trans spawned, ih.2.1.trans finished, ih.2.2.trans abandoned⟩

/-- The account of a node that has not pushed anything. -/
def opened (d : Desk κ) (parallel deadline : Nat) (peers : σ) : Account κ σ :=
  { site := { desk := d, lanes := .ofWidth parallel deadline peers } }

omit [Catalog κ] [Peers σ] in
theorem sound_opened (d : Desk κ) (parallel deadline : Nat) (peers : σ) :
    (opened d parallel deadline peers).Sound (max parallel 1) := by
  have roomy : 0 < max parallel 1 := by omega
  refine ⟨Site.tidy_idle d deadline 0 peers 0 roomy, .refl _, .nil, ?_, ?_, ?_, ?_⟩
  all_goals exact fun x none => absurd none List.not_mem_nil

/-! ## Every push is accounted for -/

/-- What can be told of the pushes of a node from its account. -/
structure Accounts (a : Account κ σ) (width : Nat) : Prop where
  /-- Every push has a ticket of its own. -/
  distinct : (a.spawned.map Prod.fst).Nodup
  accounted : ∀ p ∈ a.spawned, a.Accounted p.1
  /-- Nothing else has ended, was abandoned or is pending. -/
  spawned : ∀ ticket, a.Finished ticket ∨ (∃ drain, a.Abandoned drain ticket) ∨ a.Pending ticket →
    ∃ members, (ticket, members) ∈ a.spawned
  counted : a.finished.length + a.abandoned.length + a.site.pending = a.spawned.length
  /-- Of a push that has ended all calls have ended, and those that failed were noted. -/
  ended : ∀ f ∈ a.finished, ∃ members, (f.ticket, members) ∈ a.spawned ∧
    (f.round.ended.map Prod.fst).Perm (members.map Member.id) ∧
    Marked a.site.desk.node.registry f.round.ended
  /-- All calls are calls of pushes that are pending. -/
  owned : ∀ call ∈ a.site.lanes.calls, a.Pending call.ticket
  drains : ∀ grace, a.site.Drains width grace
  /-- A drain returns the number of pushes it abandons. -/
  abandons : ∀ grace,
    (a.drain grace).abandoned.length = a.abandoned.length + (a.site.drain grace).1
  /-- A push that has ended stays so, -/
  settled : ∀ b, Run a b → ∀ ticket, a.Finished ticket → b.Finished ticket
  /-- and one that was abandoned makes no call at any later time. -/
  silenced : ∀ b, Run a b → ∀ drain ticket, a.Abandoned drain ticket →
    b.Abandoned drain ticket ∧ ¬ b.Pending ticket ∧
      ∀ call ∈ b.site.lanes.calls, call.ticket ≠ ticket

/-- Over any history every push is accounted for. -/
theorem accounts_of_run {d : Desk κ} {parallel deadline : Nat} {peers : σ}
    (run : Run (opened d parallel deadline peers) a) : a.Accounts (max parallel 1) := by
  have sound := run.sound (sound_opened d parallel deadline peers)
  constructor
  case distinct => exact sound.distinct
  case accounted => exact fun p spawned => sound.accounted spawned
  case spawned => exact fun ticket => sound.spawned_iff.mpr
  case counted =>
    have whole := sound.parted.length_eq
    simp only [List.length_append, List.length_map] at whole
    exact whole
  case ended =>
    intro f among
    obtain ⟨⟨members, spawned, everyone⟩, marked⟩ := sound.ended f among
    rw [List.map_nil, List.append_nil] at everyone
    exact ⟨members, spawned, everyone, marked⟩
  case owned => exact sound.tidy.owned
  case drains => exact fun grace => sound.tidy.drains grace
  case abandons =>
    intro grace
    have drained := Site.drain_eq sound.tidy grace
    dsimp only at drained
    rw [drained]
    simp [Account.drain]
  case settled =>
    rintro b later ticket ⟨f, among, named⟩
    exact ⟨f, later.extends.2.1.subset among, named⟩
  case silenced =>
    intro b later drain ticket left
    have sound_then := Run.sound later sound
    have stays : b.Abandoned drain ticket := later.extends.2.2.subset left
    have gone := sound_then.not_pending stays
    refine ⟨stays, gone, fun call called same => gone ?_⟩
    rw [← same]
    exact sound_then.tidy.owned call called

end History

/-! ## A push of every sort -/

/-- Three peers: one answers at once, one is down, one is slow but in time. -/
def unequal : ScriptedPeers where
  peers := [{ id := 2, delay := 10 }, { id := 3, manner := .down, delay := 20 },
    { id := 4, delay := 500 }]

/-- A node that has not pushed anything. -/
def founded : Desk Stock where
  node :=
    { storage := { log := .table { medium := .inMemory } }
      counter := .startingAbove 0
      registry := .ofMembers 1 unequal.members }
  catalog := {}

/-- One push ends within the grace period, one is abandoned and one is begun after the drain. -/
def eventful : Account Stock ScriptedPeers :=
  ((((opened founded 2 1000 unequal).spawn ⟨1, "ant", 1⟩).advance 25).spawn ⟨2, "bee", 1⟩).drain 500
    |>.spawn ⟨3, "gnat", 1⟩

theorem accounts_eventful :
    Run (opened founded 2 1000 unequal) eventful ∧
      eventful.finished.map (fun f => (f.time, f.ticket)) = [(510, 0)] ∧
      eventful.site.desk.node.registry.status? 3 = some .offline ∧
      eventful.abandoned = [(0, 1)] ∧ eventful.site.rounds.map Round.ticket = [2] ∧
      eventful.Accounts 2 := by
  have run : Run (opened founded 2 1000 unequal) eventful :=
    .tail (.tail (.tail (.tail (.single (.spawn _ _)) (.advance _ _)) (.spawn _ _)) (.drain _ _))
      (.spawn _ _)
  exact ⟨run, by cbv, by cbv, by cbv, by cbv, accounts_of_run run⟩

end Account

end OrderCluster.Replication
