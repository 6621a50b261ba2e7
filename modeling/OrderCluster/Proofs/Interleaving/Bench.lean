import OrderCluster.Proofs.Catalog.Stock
import OrderCluster.Proofs.Interleaving.Conduct
import OrderCluster.Proofs.Service.Answers

/-!
# One node under concurrent operations

Any number of operations run at one node, and their actions interleave in any order. Between minting
a number and committing the order under it, another operation may take the number: the buy then
finds it held and gives its stock back. While operations are under way the counter may lag behind
the log, but each number that it lags behind is covered by an operation that is going to move the
counter above it.
-/

namespace OrderCluster.Interleaving

open Replication

/-- A node that keeps stock itself, and the operations that were begun at it. -/
structure Bench where
  desk : Desk Stock
  threads : List Thread

namespace Bench

/-- One step: an operation begins, or one of those under way goes on. Calls to peers end in any
way. -/
inductive Step : Bench → Bench → Prop where
  | start (b : Bench) (operation : Operation) :
    Step b { b with threads := b.threads ++ [.start operation] }
  | move {d d' : Desk Stock} {t t' : Thread} (front back : List Thread)
    (step : t.Step (fun _ _ _ => True) d d' t') :
    Step ⟨d, front ++ t :: back⟩ ⟨d', front ++ t' :: back⟩

/-- The benches that can be reached from a node at which nothing has begun. -/
inductive Reachable (opened : Desk Stock) : Bench → Prop where
  | opened : Reachable opened ⟨opened, []⟩
  | step {b b' : Bench} (reached : Reachable opened b) (step : Step b b') : Reachable opened b'

end Bench

/-- What holds of each thread by itself at a desk. -/
structure Thread.Fits (d : Desk Stock) (t : Thread) : Prop where
  proper : t.Proper
  /-- The number just minted lies below the counter. -/
  minted : ∀ n, pending? t.trace = some n → n < d.node.counter.next
  /-- What was written is held. -/
  held : ∀ order ∈ written t.trace, d.node.storage.log.get? order.number = some order
  /-- What was taken belongs to a product that is sold here. -/
  sold : ∀ stock ∈ taken t.trace, (d.catalog.of? stock.1).isSome
  /-- What was offered back was taken back. -/
  restored : returned t.trace = offered t.trace

/-! ## The actions of others -/

/-- A product that is sold here stays so. -/
theorem known_perform (action : Action) {d : Desk Stock} {name : String}
    (known : (d.catalog.of? name).isSome) : ((action.perform d).2.catalog.of? name).isSome := by
  cases action with
  | changeStock wish => exact Stock.known_change known wish
  | _ => exact known

/-- What holds of a thread is kept by whatever others do. -/
theorem Thread.Fits.keep {d : Desk Stock} {t : Thread} (fits : t.Fits d) (action : Action) :
    t.Fits (action.perform d).2 where
  proper := fits.proper
  minted n now := Int64.lt_of_lt_of_le (fits.minted n now) (action.next_le_perform d)
  held order member := action.get?_perform (fits.held order member)
  sold stock member := known_perform action (fits.sold stock member)
  restored := fits.restored

/-! ## A step of one thread -/

theorem lt_of_minted {action : Action} {d : Desk Stock} {n : OrderNumber}
    (minted : Event.minted? (.did action (action.perform d).1) = some n) :
    n < (action.perform d).2.node.counter.next := by
  cases action with
  | mint => exact Counter.lt_mint minted
  | _ => cases minted

theorem sold_of_taken {action : Action} {d : Desk Stock} {stock : String × Int32}
    (took : Event.taken? (.did action (action.perform d).1) = some stock) :
    ((action.perform d).2.catalog.of? stock.1).isSome := by
  cases action with
  | changeStock wish =>
    simp only [Event.taken?, Option.ite_none_right_eq_some, Bool.and_eq_true] at took
    obtain ⟨⟨_, success⟩, eq⟩ := took
    cases eq
    exact Stock.known_change (Stock.known_of_success success) wish
  | _ => cases took

/-- What was taken before can be given back. -/
theorem returned_eq_offered {operation : Operation} {trace : List Event} {action : Action}
    {next : action.Answer → Work Outcome} (allowed : Allowed operation trace action next)
    {d : Desk Stock} (sold : ∀ stock ∈ taken trace, (d.catalog.of? stock.1).isSome) :
    Event.returned? (.did action (action.perform d).1) =
      Event.offered? (.did action (action.perform d).1) := by
  cases action with
  | changeStock wish =>
    cases back : wish.isIncrement with
    | false => simp only [Event.returned?, Event.offered?, back, Bool.false_and]
    | true =>
      have success : Event.granted ((Action.changeStock wish).perform d).1 = true :=
        Stock.success_of_known (sold _ (allowed back)) back
      simp only [Event.returned?, Event.offered?, back, success, Bool.true_and]
  | _ => rfl

theorem Thread.Fits.step {lands : Member → Errand → Verdict → Prop} {d d' : Desk Stock}
    {t t' : Thread} (fits : t.Fits d) (step : t.Step lands d d' t') : t'.Fits d' := by
  have proper := step.proper fits.proper
  cases step with
  | act operation trace action next =>
    obtain ⟨before, minted, held, sold, restored⟩ := fits
    constructor
    · exact proper
    · intro n now
      rw [pending?_append] at now
      exact lt_of_minted now
    · intro order member
      rw [written_append, List.mem_append, Option.mem_toList] at member
      rcases member with old | now
      · exact action.get?_perform (held order old)
      · exact (held_of_written now).2
    · intro stock member
      rw [taken_append, List.mem_append, Option.mem_toList] at member
      rcases member with old | now
      · exact known_perform action (sold stock old)
      · exact sold_of_taken now
    · rw [returned_append, offered_append, returned_eq_offered before.1 sold]
      exact congrArg (· ++ _) restored
  | land operation trace purpose waiting ended called allowed =>
    obtain ⟨_, _, held, sold, restored⟩ := fits
    constructor
    · exact proper
    · intro n now
      rw [pending?_append] at now
      cases now
    · intro order member
      rw [written_landed] at member
      exact held order member
    · intro stock member
      rw [taken_landed] at member
      exact sold stock member
    · rw [returned_append, offered_append]
      exact congrArg (· ++ _) restored
  | conclude operation trace purpose ended =>
    exact ⟨proper, fits.minted, fits.held, fits.sold, fits.restored⟩

/-- A number that is held is cleared by the counter, or covered by an operation under way. -/
def Bench.Covered (b : Bench) : Prop :=
  ∀ k order, b.desk.node.storage.log.get? k = some order →
    b.desk.node.counter.Clears k ∨ ∃ t ∈ b.threads, Covers k t.rest

/-- Two threads that wrote nothing under the same number. -/
def Thread.Apart (t u : Thread) : Prop :=
  ∀ order ∈ written t.trace, ∀ other ∈ written u.trace, order.number ≠ other.number

theorem Thread.Apart.symm {t u : Thread} (apart : t.Apart u) : u.Apart t :=
  fun order member other among eq => apart other among order member eq.symm

/-- What holds of a bench at any time. -/
structure Bench.Orderly (b : Bench) : Prop where
  works : ∀ call, b.desk.node.storage.outage call = none
  fits : ∀ t ∈ b.threads, t.Fits b.desk
  apart : b.threads.Pairwise Thread.Apart
  covered : b.Covered

namespace Bench

/-- A thread at rest covers nothing. -/
theorem not_covers_of_resting {t : Thread} (resting : t.IsResting) (k : OrderNumber) :
    ¬ Covers k t.rest := by
  obtain ⟨outcome, eq⟩ := resting
  rw [eq]
  exact id

/-- A number of the log stays covered while a thread goes on. -/
theorem covered_move {lands : Member → Errand → Verdict → Prop} {d d' : Desk Stock}
    {t t' : Thread} {front back : List Thread} (works : ∀ call, d.node.storage.outage call = none)
    (fits : t.Fits d) (covered : Covered ⟨d, front ++ t :: back⟩) (step : t.Step lands d d' t') :
    Covered ⟨d', front ++ t' :: back⟩ := by
  have others : ∀ k, (∃ u ∈ front ++ t :: back, Covers k u.rest) →
      Covers k t.rest ∨ ∃ u ∈ front ++ t' :: back, Covers k u.rest := by
    rintro k ⟨u, member, covers⟩
    rcases List.mem_append.mp member with before | behind
    · exact Or.inr ⟨u, List.mem_append_left _ before, covers⟩
    · rcases List.mem_cons.mp behind with rfl | behind
      · exact Or.inl covers
      · exact Or.inr ⟨u, List.mem_append_right _ (List.mem_cons_of_mem _ behind), covers⟩
  have mine : ∀ k, Covers k t'.rest → ∃ u ∈ front ++ t' :: back, Covers k u.rest :=
    fun k covers => ⟨t', List.mem_append_right _ List.mem_cons_self, covers⟩
  intro k order found
  cases step with
  | act operation trace action next =>
    rcases Allowed.written fits.proper.1 found with old | ⟨_, ⟨_, minted⟩ | ⟨_, _, covers⟩⟩
    · rcases covered k order old with cleared | before
      · exact Or.inl (cleared.mono (action.next_le_perform d))
      · rcases others k before with covers | still
        · exact (covers_perform covers (works .maxNumber) old).imp_right (mine k)
        · exact Or.inr still
    · exact Or.inl (Counter.Clears.mono (Or.inl (fits.minted k minted)) (action.next_le_perform d))
    · exact Or.inr (mine k covers)
  | land operation trace purpose waiting ended called allowed =>
    refine (covered k order found).imp_right fun before => ?_
    exact (others k before).resolve_left (not_covers_of_resting ⟨_, rfl⟩ k)
  | conclude operation trace purpose ended =>
    refine (covered k order found).imp_right fun before => ?_
    exact (others k before).resolve_left (not_covers_of_resting ⟨_, rfl⟩ k)

/-- What a thread writes next is apart from all that others wrote. -/
theorem apart_move {lands : Member → Errand → Verdict → Prop} {d d' : Desk Stock}
    {t t' u : Thread} (step : t.Step lands d d' t') (apart : t.Apart u) (fits : u.Fits d) :
    t'.Apart u := by
  intro order member other among
  cases step with
  | act operation trace action next =>
    rw [written_append, List.mem_append, Option.mem_toList] at member
    rcases member with old | now
    · exact apart order old other among
    · intro eq
      have held := fits.held other among
      rw [← eq, (held_of_written now).1] at held
      cases held
  | land operation trace purpose waiting ended called allowed =>
    rw [written_landed] at member
    exact apart order member other among
  | conclude operation trace purpose ended => exact apart order member other among

/-- The desk after a step of a thread is that before it, or that after an action. -/
theorem desk_move {lands : Member → Errand → Verdict → Prop} {κ : Type} [Catalog κ]
    {d d' : Desk κ} {t t' : Thread} (step : t.Step lands d d' t') :
    d' = d ∨ ∃ action : Action, d' = (action.perform d).2 := by
  cases step with
  | act operation trace action next => exact Or.inr ⟨action, rfl⟩
  | land operation trace purpose waiting ended called allowed => exact Or.inl rfl
  | conclude operation trace purpose ended => exact Or.inl rfl

theorem orderly_start {b : Bench} (orderly : b.Orderly) (operation : Operation) :
    Orderly { b with threads := b.threads ++ [.start operation] } := by
  constructor
  · exact orderly.works
  · intro t member
    rcases List.mem_append.mp member with old | new
    · exact orderly.fits t old
    · rw [List.mem_singleton.mp new]
      refine ⟨proper_start operation, fun n now => ?_, fun order none_yet => ?_,
        fun stock none_yet => ?_, rfl⟩
      · cases now
      · cases none_yet
      · cases none_yet
  · rw [List.pairwise_append]
    refine ⟨orderly.apart, List.pairwise_singleton _ _, fun t _ u new => ?_⟩
    rw [List.mem_singleton.mp new]
    intro order _ other none_yet
    cases none_yet
  · intro k order found
    refine (orderly.covered k order found).imp_right ?_
    rintro ⟨t, member, covers⟩
    exact ⟨t, List.mem_append_left _ member, covers⟩

theorem Step.orderly {b b' : Bench} (step : Step b b') (orderly : b.Orderly) : b'.Orderly := by
  cases step with
  | start _ operation => exact orderly_start orderly operation
  | @move d d' t t' front back step =>
    have inside : t ∈ front ++ t :: back := List.mem_append_right _ List.mem_cons_self
    have fits := orderly.fits t inside
    have before : ∀ u ∈ front ++ back, u.Fits d := by
      intro u member
      refine orderly.fits u ?_
      rcases List.mem_append.mp member with left | right
      · exact List.mem_append_left _ left
      · exact List.mem_append_right _ (List.mem_cons_of_mem _ right)
    have kept : ∀ u ∈ front ++ back, u.Fits d' := by
      intro u member
      rcases desk_move step with same | ⟨action, moved⟩
      · rw [same]
        exact before u member
      · rw [moved]
        exact (before u member).keep action
    obtain ⟨apart, apart_others⟩ := List.pairwise_cons.mp
      ((List.pairwise_middle Thread.Apart.symm).mp orderly.apart)
    constructor
    · intro call
      rcases desk_move step with same | ⟨action, moved⟩
      · rw [same]
        exact orderly.works call
      · rw [moved, Action.outage_perform]
        exact orderly.works call
    · intro u member
      rcases List.mem_append.mp member with left | right
      · exact kept u (List.mem_append_left _ left)
      · rcases List.mem_cons.mp right with rfl | right
        · exact fits.step step
        · exact kept u (List.mem_append_right _ right)
    · refine (List.pairwise_middle Thread.Apart.symm).mpr
        (List.pairwise_cons.mpr ⟨?_, apart_others⟩)
      intro u member
      exact apart_move step (apart u member) (before u member)
    · exact covered_move orderly.works fits orderly.covered step

/-! ## What is true at any time -/

theorem orderly_opened {d : Desk Stock} (ahead : d.node.Ahead)
    (works : ∀ call, d.node.storage.outage call = none) : Orderly ⟨d, []⟩ where
  works := works
  fits _ none_yet := by cases none_yet
  apart := .nil
  covered k order found := Or.inl (ahead k order found)

theorem Reachable.orderly {opened : Desk Stock} (start : Orderly ⟨opened, []⟩) {b : Bench}
    (reached : Reachable opened b) : b.Orderly := by
  induction reached with
  | opened => exact start
  | step _ step ih => exact step.orderly ih

/-- What is true of the operations of a node, in whichever order their actions were done. -/
structure Sound (b : Bench) : Prop where
  /-- A placed order is the one that was wished for, and is held under its number; its stock was
  taken for good. -/
  placed : ∀ t ∈ b.threads, ∀ order, t.placed? = some order →
    t.operation.Wants order ∧ b.desk.node.storage.log.get? order.number = some order ∧
      taken t.trace = [(order.product, order.quantity)] ∧ returned t.trace = []
  /-- No two placed orders have the same number. -/
  apart : b.threads.Pairwise fun t u => ∀ order other, t.placed? = some order →
    u.placed? = some other → order.number ≠ other.number
  /-- A buy that placed nothing has written nothing, and has given back just what it took. -/
  undone : ∀ t ∈ b.threads, ∀ outcome, t.rest = .done (.bought outcome) → outcome.owed? = none →
    written t.trace = [] ∧ returned t.trace = taken t.trace
  /-- Where every operation has ended or waits for its peers, the counter clears the whole log. -/
  ahead : (∀ t ∈ b.threads, t.IsResting) → b.desk.node.Ahead

/-- However the actions of concurrent operations interleave, placed orders are held under numbers of
their own, failed buys are undone, and a node at rest is ahead of its log. -/
theorem sound_of_reachable {storage : Storage} {registry : Registry} {opened : Desk Stock}
    (start : Service.openNode storage registry = .ok opened.node)
    (works : ∀ call, storage.outage call = none) {b : Bench} (reached : Reachable opened b) :
    b.Sound := by
  obtain ⟨kept, ahead⟩ := Service.ahead_openNode start
  have orderly : b.Orderly := by
    refine reached.orderly (orderly_opened ahead fun call => ?_)
    rw [kept]
    exact works call
  constructor
  · intro t member order placed
    have fits := orderly.fits t member
    obtain ⟨wanted, wrote, took, kept⟩ := closing_of_placed fits.proper placed
    refine ⟨wanted, fits.held order ?_, took, fits.restored.trans kept⟩
    rw [wrote]
    exact List.mem_cons_self
  · refine orderly.apart.imp_of_mem fun {t u} member among apart order other placed_t placed_u => ?_
    obtain ⟨_, wrote_t, _⟩ := closing_of_placed (orderly.fits t member).proper placed_t
    obtain ⟨_, wrote_u, _⟩ := closing_of_placed (orderly.fits u among).proper placed_u
    refine apart order ?_ other ?_
    · rw [wrote_t]
      exact List.mem_cons_self
    · rw [wrote_u]
      exact List.mem_cons_self
  · intro t member outcome ended unplaced
    obtain ⟨proper, _, _, _, restored⟩ := orderly.fits t member
    unfold Thread.Proper at proper
    rw [ended] at proper
    cases outcome with
    | placed order => cases unplaced
    | declined message => exact ⟨proper.2.1, restored.trans proper.2.2⟩
    | refused error => exact ⟨proper.2.1, restored.trans proper.2.2.1⟩
  · intro resting k order found
    refine (orderly.covered k order found).resolve_right ?_
    rintro ⟨t, member, covers⟩
    exact not_covers_of_resting (resting t member) k covers

/-! ## A contested number -/

/-- Lets the thread at a position do its next action. -/
def act (b : Bench) (i : Nat) : Bench :=
  match b.threads[i]? with
  | some ⟨operation, trace, .act action next⟩ =>
    ⟨(action.perform b.desk).2,
      b.threads.set i
        ⟨operation, trace ++ [.did action (action.perform b.desk).1],
          next (action.perform b.desk).1⟩⟩
  | _ => b

theorem reachable_act {opened : Desk Stock} {b : Bench} (reached : Reachable opened b) (i : Nat) :
    Reachable opened (b.act i) := by
  unfold act
  split
  · rename_i operation trace action next found
    obtain ⟨inside, eq⟩ := List.getElem?_eq_some_iff.mp found
    have split_at : b.threads = b.threads.take i ++
        ⟨operation, trace, .act action next⟩ :: b.threads.drop (i + 1) := by
      rw [← eq, List.getElem_cons_drop, List.take_append_drop]
    refine reached.step ?_
    rw [List.set_eq_take_append_cons_drop, if_pos inside]
    have step := Step.move (b.threads.take i) (b.threads.drop (i + 1))
      (Thread.Step.act b.desk operation trace action next)
    rwa [← split_at] at step
  · exact reached

theorem reachable_foldl {opened : Desk Stock} {b : Bench} (reached : Reachable opened b)
    (schedule : List Nat) : Reachable opened (schedule.foldl act b) := by
  induction schedule generalizing b with
  | nil => exact reached
  | cons i rest ih => exact ih (reachable_act reached i)

/-- A node that sells apples and has no orders yet. -/
def orchard : Desk Stock where
  node :=
    { storage := { log := .table { medium := .inMemory } }
      counter := .startingAbove 0
      registry := .ofMembers 1 [] }
  catalog := .ofList [("apple", 3)]

/-- Two buys, and an order from a leader that takes the number minted by the first. -/
def contested : Bench :=
  [0, 0, 0, 1, 0, 0, 2, 2, 2, 0, 0, 0, 1, 2, 2, 2, 1, 1].foldl act
    ⟨orchard, [.start (.buy false ⟨"apple", 2⟩), .start (.accept ⟨⟨1, "pear", 5⟩, 2⟩),
      .start (.buy false ⟨"apple", 1⟩)]⟩

theorem sound_contested :
    Service.openNode orchard.node.storage orchard.node.registry = .ok orchard.node ∧
      (∀ call, orchard.node.storage.outage call = none) ∧ Reachable orchard contested ∧
      contested.threads.map (fun t => t.placed?.map (·.number)) = [none, none, some 2] ∧
      contested.Sound := by
  have opened : Service.openNode orchard.node.storage orchard.node.registry = .ok orchard.node :=
    rfl
  have reached : Reachable orchard contested := by
    refine reachable_foldl ?_ _
    exact ((Reachable.opened.step (.start _ _)).step (.start _ _)).step (.start _ _)
  have works : ∀ call, orchard.node.storage.outage call = none := fun _ => rfl
  exact ⟨opened, works, reached, by decide +kernel, sound_of_reachable opened works reached⟩

end Bench

end OrderCluster.Interleaving
