import OrderCluster.Catalog.Overridden
import OrderCluster.Proofs.Replication.Sync
import OrderCluster.Proofs.Service.Answers
import OrderCluster.Proofs.Service.Buy
import OrderCluster.Rpc.Scripted

/-!
# The life of a node

A life is a run of operations, each done to its end before the next begins, by a node whose log held
anything when it was opened. The peers answer as they like. Between two operations the catalog and
the peers may change and log calls may begin or cease to fail, and so they may while a sync waits for
its peers; and the node may be opened again over the log that it kept.

The invariant is that the node stands ahead of its log. Then a minted number is free and lies above
all that is held, and an operation that places nothing uses up no number unless the log refuses the
very write. The invariant has one exception. A sync that stored orders and cannot read the log again
ends with an error and does not move the counter, which is stranded below what was stored until some
other operation moves it above the log. In any case what is held once is never lost and no counter
falls behind what was placed, so the numbers of the placed orders ascend over the whole life.
-/

namespace OrderCluster.Lifetime

open Replication (Site)

/-- An operation of a node; of a buy also what became of it. -/
inductive Deed where
  | buy (outcome : BuyOutcome)
  | query
  | status
  | assign
  | fetch
  | mark
  | accept
  | sync
  | fanOut
  | spawn
  | advance
  | drain
  /-- The world around the node changes. -/
  | disturb
  /-- The node is opened again over its log. -/
  | restart

namespace Deed

def placed? : Deed → Option Order
  | .buy outcome => outcome.owed?
  | _ => none

/-- Whether an operation neither places an order nor takes orders of others in nor opens the node. -/
def isQuiet : Deed → Bool
  | .buy outcome => outcome.owed?.isNone
  | .accept | .sync | .restart => false
  | _ => true

end Deed

variable {κ σ : Type} [Catalog κ] [Peers σ]

/-- One operation, from the site at which it begins to the site that it leaves behind. -/
inductive Step : Site κ σ → Deed → Site κ σ → Prop where
  | buy (s : Site κ σ) (strict : Bool) (request : BuyRequest) :
    Step s (.buy (s.work (Service.buy strict request)).1) (s.work (Service.buy strict request)).2
  | query (s : Site κ σ) (request : QueryRequest) :
    Step s .query (s.work (Service.query request)).2
  | status (s : Site κ σ) : Step s .status (s.work Service.status).2
  | assign (s : Site κ σ) (request : LeaderAssignment) :
    Step s .assign (s.work (Service.assign request)).2
  | fetch (s : Site κ σ) (request : FetchRequest) :
    Step s .fetch (s.work (Service.fetch request)).2
  | mark (s : Site κ σ) (id : NodeId) (status : Status) :
    Step s .mark (s.work (Work.mark id status)).2
  | accept (s : Site κ σ) (request : AcceptRequest) :
    Step s .accept (s.work (Service.accept request)).2
  /-- When the peers have answered, log calls may fail that did not fail before, and the other way
  round. -/
  | sync (s : Site κ σ) (outage : LogCall → Option Failure) : Step s .sync (s.syncMeeting outage).2
  | fanOut (s : Site κ σ) (order : Order) : Step s .fanOut (s.fanOut order).2
  | spawn (s : Site κ σ) (order : Order) : Step s .spawn (s.spawn order)
  | advance (s : Site κ σ) (millis : Nat) : Step s .advance (s.advance millis)
  | drain (s : Site κ σ) (grace : Nat) : Step s .drain (s.drain grace).2
  | disturb {s s' : Site κ σ} (outage : LogCall → Option Failure)
    (same : s'.desk.node =
      { s.desk.node with storage := { s.desk.node.storage with outage := outage } }) :
    Step s .disturb s'
  | restart {s s' : Site κ σ} (storage : Storage) (registry : Registry)
    (kept : storage.log = s.desk.node.storage.log)
    (opened : Service.openNode storage registry = .ok s'.desk.node) :
    Step s .restart s'

/-- An operation with the sites before and after it. -/
structure Moment (κ σ : Type) where
  before : Site κ σ
  deed : Deed
  after : Site κ σ

namespace Moment

/-- Whether the log can tell its greatest number when an operation ends. -/
def reads (m : Moment κ σ) : Bool := (m.after.desk.node.storage.outage .maxNumber).isNone

/-- Whether a batch can be written when an operation ends. -/
def writes (m : Moment κ σ) : Bool := (m.after.desk.node.storage.outage .insertAll).isNone

/-- Whether anything was written. -/
def grows (m : Moment κ σ) : Bool :=
  m.before.desk.node.storage.log.all.length < m.after.desk.node.storage.log.all.length

/-- Whether a sync had somebody to ask, could write what it was sent and could read the log again. -/
def merges (m : Moment κ σ) : Bool :=
  m.reads && m.writes && !m.before.desk.node.registry.activePeers.isEmpty

/-- Whether a sync stored orders and could not read the log again. -/
def strands (m : Moment κ σ) : Bool :=
  match m.deed with
  | .sync => m.grows && !m.reads
  | _ => false

/-- Whether an operation moves the counter above the whole log, wherever it stood. -/
def clears (m : Moment κ σ) : Bool :=
  match m.deed with
  | .buy (.refused (.internal _)) => m.reads
  | .assign => m.reads && m.after.desk.node.registry.isSelfLeader
  | .sync => m.merges
  | .restart => true
  | _ => false

/-- Whether the log itself refused to take in an order that had its number already. -/
def loses (m : Moment κ σ) : Bool :=
  match m.deed with
  | .buy (.refused (.internal cause)) => m.before.desk.node.storage.outage .insert = some cause
  | _ => false

/-- Whether the counter is stranded after an operation, if that is known of the time before. -/
def leavesStranded (stranded : Bool) (m : Moment κ σ) : Bool :=
  !m.clears && (stranded || m.strands)

end Moment

/-- Whether a sync stored orders without moving the counter, and nothing has moved the counter above
the log since. -/
def stranded (moments : List (Moment κ σ)) : Bool := moments.foldl Moment.leavesStranded false

/-- A run of operations, from the site at which it begins to the site that it leaves behind. -/
inductive Run : Site κ σ → List (Moment κ σ) → Site κ σ → Prop where
  | nil (s : Site κ σ) : Run s [] s
  | cons {s s' s'' : Site κ σ} {deed : Deed} {moments : List (Moment κ σ)}
    (step : Step s deed s') (rest : Run s' moments s'') : Run s (⟨s, deed, s'⟩ :: moments) s''

namespace Moment

section Strands

omit [Catalog κ] [Peers σ]

variable {m : Moment κ σ}

/-- Only a sync that cannot read the log when it ends strands the counter. -/
theorem strands_of_reads (readable : m.deed = .sync → m.reads = true) : m.strands = false := by
  rw [strands]
  cases deed : m.deed with
  | sync => simp [readable deed]
  | _ => rfl

theorem strands_of_quiet (quiet : m.deed.isQuiet = true) : m.strands = false := by
  refine strands_of_reads fun deed => ?_
  rw [deed] at quiet
  cases quiet

theorem strands_of_placed {order : Order} (placed : m.deed.placed? = some order) :
    m.strands = false := by
  refine strands_of_reads fun deed => ?_
  rw [deed] at placed
  cases placed

end Strands

end Moment

omit [Catalog κ] [Peers σ] in
theorem stranded_of_reads {moments : List (Moment κ σ)}
    (readable : ∀ m ∈ moments, m.deed = .sync → m.reads = true) : stranded moments = false := by
  rw [stranded]
  induction moments with
  | nil => rfl
  | cons m rest ih =>
    obtain ⟨now, later⟩ := List.forall_mem_cons.mp readable
    have free : m.leavesStranded false = false := by
      rw [Moment.leavesStranded, Moment.strands_of_reads now, Bool.or_false, Bool.and_false]
    rw [List.foldl_cons, free]
    exact ih later

/-! ## One operation -/

section Steps

variable {s s' : Site κ σ} {deed : Deed}

/-- Every operation leaves a node ahead of its log, except for a sync that strands it. -/
theorem Step.ahead (step : Step s deed s') (ahead : s.desk.node.Ahead)
    (kept : (⟨s, deed, s'⟩ : Moment κ σ).strands = false) : s'.desk.node.Ahead := by
  cases step with
  | buy strict request => exact (Service.buyEnd_buy strict request s.desk).ahead ahead
  | query request =>
    rw [Site.desk_work, Service.perform_query]
    exact ahead
  | status =>
    rw [Site.desk_work, Service.perform_status]
    exact ahead
  | assign request =>
    obtain ⟨storage, _⟩ := Service.assign_cases request s.desk
    rw [Site.desk_work]
    exact ahead.keep (congrArg Storage.log storage) ((Service.assign request).next_le_perform _)
  | fetch request =>
    rw [Site.desk_work, Service.perform_fetch]
    exact ahead
  | mark id status => exact ahead
  | accept request => exact (Service.acceptEnd_accept request s.desk).ahead ahead
  | sync outage =>
    refine Site.ahead_syncMeeting outage ahead fun grew => ?_
    have grows : (⟨s, .sync, (s.syncMeeting outage).2⟩ : Moment κ σ).grows = true :=
      decide_eq_true grew
    simpa [Moment.strands, grows, Moment.reads] using kept
  | fanOut order => exact (Site.sameBooks_fanOut s order).ahead ahead
  | spawn order => exact ahead
  | advance millis => exact (Site.sameBooks_advance s millis).ahead ahead
  | drain grace => exact (Site.sameBooks_drain s grace).ahead ahead
  | disturb outage same =>
    rw [same]
    exact ahead
  | restart storage registry kept opened => exact (Service.ahead_openNode opened).2

/-- What moves the counter above the whole log does so wherever it stood. -/
theorem Step.ahead_of_clears (step : Step s deed s')
    (clears : (⟨s, deed, s'⟩ : Moment κ σ).clears = true) : s'.desk.node.Ahead := by
  cases step with
  | buy strict request =>
    have how := Service.buyEnd_buy strict request s.desk
    have outage : (s.work (Service.buy strict request)).2.desk.node.storage.outage =
        s.desk.node.storage.outage := (Service.buy strict request).outage_perform s.desk
    simp only [Moment.clears, Moment.reads, outage] at clears
    split at clears
    · rename_i cause internal
      have answer : ((Service.buy strict request).perform s.desk).1 = .refused (.internal cause) :=
        Deed.buy.inj internal
      rw [answer] at how
      exact how.ahead_of_internal (Option.isNone_iff_eq_none.mp clears)
    all_goals contradiction
  | assign request =>
    obtain ⟨reads, leads⟩ := Bool.and_eq_true_iff.mp clears
    obtain ⟨storage, _⟩ := Service.assign_cases request s.desk
    have own : request.id = s.desk.node.registry.selfId := by
      rw [Site.desk_work, Service.registry_assign] at leads
      exact Option.some.inj (of_decide_eq_true leads)
    rw [Moment.reads, Site.desk_work, storage] at reads
    exact Service.ahead_assign_self own (Option.isNone_iff_eq_none.mp reads)
  | sync outage =>
    obtain ⟨works, called⟩ := Bool.and_eq_true_iff.mp clears
    obtain ⟨reads, writes⟩ := Bool.and_eq_true_iff.mp works
    exact Site.ahead_of_merged outage (by simpa using called)
      (Option.isNone_iff_eq_none.mp writes) (Option.isNone_iff_eq_none.mp reads)
  | restart storage registry kept opened => exact (Service.ahead_openNode opened).2
  | _ => cases clears

theorem Step.held (step : Step s deed s') {k : OrderNumber} {order : Order}
    (found : s.desk.node.storage.log.get? k = some order) :
    s'.desk.node.storage.log.get? k = some order := by
  cases step with
  | buy | query | status | assign | fetch | mark | accept => exact Site.get?_work found _
  | sync outage => exact Site.held_syncMeeting outage found
  | fanOut order => rwa [(Site.sameBooks_fanOut s order).storage]
  | spawn => exact found
  | advance millis => rwa [(Site.sameBooks_advance s millis).storage]
  | drain grace => rwa [(Site.sameBooks_drain s grace).storage]
  | disturb outage same => rwa [same]
  | restart storage registry kept opened =>
    rwa [(Service.ahead_openNode opened).1, kept]

/-- An operation leaves a node ahead of its log unless it leaves it stranded. -/
theorem Step.ahead_of_free (step : Step s deed s') {stranded : Bool}
    (start : stranded = false → s.desk.node.Ahead)
    (free : (⟨s, deed, s'⟩ : Moment κ σ).leavesStranded stranded = false) :
    s'.desk.node.Ahead := by
  cases clears : (⟨s, deed, s'⟩ : Moment κ σ).clears with
  | true => exact step.ahead_of_clears clears
  | false =>
    simp only [Moment.leavesStranded, clears, Bool.not_false, Bool.true_and,
      Bool.or_eq_false_iff] at free
    exact step.ahead (start free.1) free.2

/-- A number that is held and that the counter clears stays cleared. -/
theorem Step.cleared (step : Step s deed s') {k : OrderNumber} {order : Order}
    (found : s.desk.node.storage.log.get? k = some order)
    (cleared : s.desk.node.counter.Clears k) : s'.desk.node.counter.Clears k := by
  cases step with
  | buy | query | status | assign | fetch | mark | accept =>
    exact cleared.mono (Site.next_le_work s _)
  | sync outage => exact cleared.mono (Site.next_le_syncMeeting outage)
  | fanOut order => rwa [(Site.sameBooks_fanOut s order).counter]
  | spawn => exact cleared
  | advance millis => rwa [(Site.sameBooks_advance s millis).counter]
  | drain grace => rwa [(Site.sameBooks_drain s grace).counter]
  | disturb outage same => rwa [same]
  | restart storage registry kept opened =>
    obtain ⟨same, ahead⟩ := Service.ahead_openNode opened
    refine ahead k order ?_
    rwa [same, kept]

/-- A placed order has the number at which the counter stood; the counter moves on by one. -/
theorem Step.of_placed (step : Step s deed s') {order : Order}
    (placed : deed.placed? = some order) :
    s.desk.node.counter.next = order.number ∧ s.desk.node.counter.next ≠ OrderNumber.last ∧
      s'.desk.node.counter.next = order.number + 1 ∧
      s'.desk.node.storage.log.get? order.number = some order := by
  cases step with
  | buy strict request =>
    have how := Service.buyEnd_buy strict request s.desk
    have answer : ((Service.buy strict request).perform s.desk).1 = .placed order :=
      Service.BuyEnd.eq_placed_of_owed placed
    rw [answer] at how
    obtain ⟨next, left, moved, _, _, stored⟩ := how.of_placed
    exact ⟨next, left, moved, stored⟩
  | _ => cases placed

/-- A placed order lies above all that the counter cleared. -/
theorem Step.above_cleared (step : Step s deed s') {order : Order}
    (placed : deed.placed? = some order) {k : OrderNumber}
    (cleared : s.desk.node.counter.Clears k) : k < order.number := by
  obtain ⟨next, left, _⟩ := step.of_placed placed
  rcases cleared with below | last
  · rwa [← next]
  · exact absurd last left

/-- A buy that places nothing uses up no number, unless the log itself refuses the write. -/
theorem Step.counter_of_unplaced {outcome : BuyOutcome} (step : Step s (.buy outcome) s')
    (ahead : s.desk.node.Ahead) (unplaced : outcome.owed? = none)
    (kept : (⟨s, .buy outcome, s'⟩ : Moment κ σ).loses = false) :
    s'.desk.node.counter = s.desk.node.counter := by
  cases step with
  | buy strict request =>
    refine (Service.buyEnd_buy strict request s.desk).counter_of_unplaced ahead unplaced ?_
    intro cause refused
    change (s.work (Service.buy strict request)).1 = _ at refused
    rw [refused] at kept
    exact of_decide_eq_false kept

/-- No buy finds its number held; only the failing log itself could say so. -/
theorem Step.clash_of_outage {n : OrderNumber}
    (step : Step s (.buy (.refused (.internal (Service.clash n)))) s')
    (ahead : s.desk.node.Ahead) :
    s.desk.node.storage.outage .insert = some (Service.clash n) := by
  generalize eq : Deed.buy (.refused (.internal (Service.clash n))) = deed at step
  cases step with
  | buy strict request =>
    injection eq with answer
    have how := Service.buyEnd_buy strict request s.desk
    change _ = ((Service.buy strict request).perform s.desk).1 at answer
    rw [← answer] at how
    exact how.outage_of_clash ahead
  | _ => cases eq

/-- A quiet operation of a node that is ahead of its log and holds something leaves the counter
alone, unless it is a buy whose write the log itself refuses. -/
theorem Step.counter_of_quiet (step : Step s deed s') (quiet : deed.isQuiet = true)
    (kept : (⟨s, deed, s'⟩ : Moment κ σ).loses = false) (ahead : s.desk.node.Ahead)
    {k : OrderNumber} {held : Order} (found : s.desk.node.storage.log.get? k = some held) :
    s'.desk.node.counter = s.desk.node.counter := by
  cases step with
  | buy strict request =>
    exact (Step.buy s strict request).counter_of_unplaced ahead
      (Option.isNone_iff_eq_none.mp quiet) kept
  | query request => rw [Site.desk_work, Service.perform_query]
  | status => rw [Site.desk_work, Service.perform_status]
  | assign request =>
    rw [Site.desk_work]
    rcases (Service.assign_cases request s.desk).2 with same | reset
    · exact same
    · rcases s.desk.node.storage.log.maxNumber_cases with ⟨nothing, _⟩ | ⟨greatest, top⟩
      · rw [nothing k] at found
        cases found
      · rw [reset, Counter.resetAbove_of_clears (ahead _ greatest top)]
  | fetch request => rw [Site.desk_work, Service.perform_fetch]
  | mark id status => rfl
  | fanOut order => exact (Site.sameBooks_fanOut s order).counter
  | spawn order => rfl
  | advance millis => exact (Site.sameBooks_advance s millis).counter
  | drain grace => exact (Site.sameBooks_drain s grace).counter
  | disturb outage same => rw [same]
  | accept | sync | restart => cases quiet

end Steps

/-! ## Whole runs -/

def placed (moments : List (Moment κ σ)) : List Order := moments.filterMap (·.deed.placed?)

namespace Run

variable {s s' s'' : Site κ σ} {moments : List (Moment κ σ)}

theorem step_of_mem (run : Run s moments s') {m : Moment κ σ} (member : m ∈ moments) :
    Step m.before m.deed m.after := by
  induction run with
  | nil s => cases member
  | cons step rest ih =>
    cases member with
    | head => exact step
    | tail _ later => exact ih later

theorem of_append {front back : List (Moment κ σ)} (run : Run s (front ++ back) s'') :
    ∃ s', Run s front s' ∧ Run s' back s'' := by
  induction front generalizing s with
  | nil => exact ⟨s, .nil s, run⟩
  | cons m front ih =>
    cases run with
    | cons step rest =>
      obtain ⟨s', before, after⟩ := ih rest
      exact ⟨s', .cons step before, after⟩

theorem ends {front : List (Moment κ σ)} {m : Moment κ σ} (run : Run s (front ++ [m]) s') :
    s' = m.after := by
  obtain ⟨reached, _, last⟩ := run.of_append
  cases last with
  | cons step rest =>
    cases rest
    rfl

theorem split {front back : List (Moment κ σ)} {m : Moment κ σ}
    (run : Run s (front ++ m :: back) s'') :
    Run s front m.before ∧ Step m.before m.deed m.after ∧ Run m.after back s'' := by
  obtain ⟨reached, lead, rest⟩ := run.of_append
  cases rest with
  | cons step rest => exact ⟨lead, step, rest⟩

/-- A node that is not stranded when a run ends is ahead of its log. -/
theorem ahead (run : Run s moments s') {stranded : Bool}
    (start : stranded = false → s.desk.node.Ahead)
    (free : moments.foldl Moment.leavesStranded stranded = false) : s'.desk.node.Ahead := by
  induction run generalizing stranded with
  | nil s => exact start free
  | cons step rest ih => exact ih (step.ahead_of_free start) free

/-- All that is placed later lies above what is held and cleared now. -/
theorem above_cleared (run : Run s moments s') {k : OrderNumber} {held : Order}
    (found : s.desk.node.storage.log.get? k = some held)
    (cleared : s.desk.node.counter.Clears k) {order : Order} (member : order ∈ placed moments) :
    k < order.number := by
  induction run with
  | nil s => cases member
  | cons step rest ih =>
    obtain ⟨m, among, now⟩ := List.mem_filterMap.mp member
    cases among with
    | head => exact step.above_cleared now cleared
    | tail _ later =>
      exact ih (step.held found) (step.cleared found cleared)
        (List.mem_filterMap.mpr ⟨m, later, now⟩)

/-- The numbers of the placed orders ascend, also where the counter is stranded. -/
theorem ascending (run : Run s moments s') :
    (placed moments).Pairwise (fun a b => a.number < b.number) := by
  induction run with
  | nil s => exact .nil
  | @cons s s' s'' deed moments step rest ih =>
    rw [placed, List.filterMap_cons]
    cases now : deed.placed? with
    | none => exact ih
    | some order =>
      obtain ⟨next, left, moved, stored⟩ := step.of_placed now
      have cleared : s'.desk.node.counter.Clears order.number := by
        refine Or.inl ?_
        rw [next] at left
        rw [moved]
        exact OrderNumber.lt_add_one left
      exact .cons (fun later member => rest.above_cleared stored cleared member) ih

theorem counter_of_quiet (run : Run s moments s')
    (quiet : ∀ m ∈ moments, m.deed.isQuiet = true ∧ m.loses = false)
    (start : s.desk.node.Ahead) {k : OrderNumber} {held : Order}
    (found : s.desk.node.storage.log.get? k = some held) :
    s'.desk.node.counter = s.desk.node.counter := by
  induction run with
  | nil s => rfl
  | cons step rest ih =>
    obtain ⟨⟨quiet_now, kept⟩, quiet_later⟩ := List.forall_mem_cons.mp quiet
    have now := step.counter_of_quiet quiet_now kept start found
    have ahead := step.ahead start (Moment.strands_of_quiet quiet_now)
    exact (ih quiet_later ahead (step.held found)).trans now

/-- Two orders with only quiet operations between them have consecutive numbers. -/
theorem consecutive {first second : Moment κ σ} {between : List (Moment κ σ)}
    (run : Run s (first :: between ++ [second]) s') (start : s.desk.node.Ahead)
    (quiet : ∀ m ∈ between, m.deed.isQuiet = true ∧ m.loses = false) {a b : Order}
    (placed_first : first.deed.placed? = some a) (placed_second : second.deed.placed? = some b) :
    b.number = a.number + 1 := by
  cases run with
  | cons step rest =>
    obtain ⟨_, _, moved, stored⟩ := step.of_placed placed_first
    obtain ⟨still, next, _⟩ := rest.split
    have ahead := step.ahead start (Moment.strands_of_placed placed_first)
    have same := still.counter_of_quiet quiet ahead stored
    obtain ⟨minted, _⟩ := next.of_placed placed_second
    rw [← minted, same, moved]

end Run

/-- What is true of the life of a node, whatever its log held when it was opened. -/
structure Sound (first : Site κ σ) (moments : List (Moment κ σ)) : Prop where
  /-- The counter clears the whole log when the node is opened. -/
  ahead_first : first.desk.node.Ahead
  /-- The counter clears the whole log after every operation, unless it is stranded then. -/
  ahead_after : ∀ front m back, moments = front ++ m :: back → stranded (front ++ [m]) = false →
    m.after.desk.node.Ahead
  /-- Where every sync can read the log when it ends, the counter clears the whole log after every
  operation. -/
  readable : (∀ m ∈ moments, m.deed = .sync → m.reads = true) →
    ∀ m ∈ moments, m.after.desk.node.Ahead
  /-- Unless the counter is stranded, no buy fails because its number is taken; only the failing log
  itself could say so. -/
  no_clash : ∀ front m back, moments = front ++ m :: back → stranded front = false → ∀ n,
    m.deed = .buy (.refused (.internal (Service.clash n))) →
      m.before.desk.node.storage.outage .insert = some (Service.clash n)
  /-- The numbers of the placed orders ascend over the whole life, without exception. -/
  ascending : (placed moments).Pairwise (fun a b => a.number < b.number)
  /-- Unless the counter is stranded, a placed order lies above all that was held just before it. -/
  above_held : ∀ front m back, moments = front ++ m :: back → stranded front = false →
    ∀ order, m.deed.placed? = some order →
      ∀ k held, m.before.desk.node.storage.log.get? k = some held → k < order.number
  /-- Unless the counter is stranded, a buy that places nothing uses up no number, except for one
  whose write the log itself refuses. -/
  no_waste : ∀ front m back, moments = front ++ m :: back → stranded front = false →
    ∀ outcome, m.deed = .buy outcome → outcome.owed? = none → m.loses = false →
      m.after.desk.node.counter = m.before.desk.node.counter
  /-- Unless the counter is stranded, two orders have consecutive numbers if there are only quiet
  operations between them, and among these no buy whose write the log itself refuses. -/
  consecutive : ∀ front between back first second a b,
    moments = front ++ (first :: between ++ [second]) ++ back → stranded front = false →
      (∀ m ∈ between, m.deed.isQuiet = true ∧ m.loses = false) → first.deed.placed? = some a →
        second.deed.placed? = some b → b.number = a.number + 1

/-- A node that was opened over any log stays ahead of it, and places its orders under ascending
numbers that were free. -/
theorem sound_of_opened {storage : Storage} {registry : Registry} {first last : Site κ σ}
    {moments : List (Moment κ σ)}
    (opened : Service.openNode storage registry = .ok first.desk.node)
    (run : Run first moments last) : Sound first moments := by
  have start : first.desk.node.Ahead := (Service.ahead_openNode opened).2
  -- what comes before an operation leaves the node ahead, unless it leaves it stranded
  have ahead_before : ∀ front m back, moments = front ++ m :: back → stranded front = false →
      m.before.desk.node.Ahead := by
    intro front m back whole free
    rw [whole] at run
    exact run.split.1.ahead (fun _ => start) free
  have step_at : ∀ front m back, moments = front ++ m :: back → Step m.before m.deed m.after := by
    intro front m back whole
    rw [whole] at run
    exact run.split.2.1
  have ahead_after : ∀ front m back, moments = front ++ m :: back →
      stranded (front ++ [m]) = false → m.after.desk.node.Ahead := by
    intro front m back whole free
    rw [whole, List.append_cons] at run
    obtain ⟨reached, lead, rest⟩ := run.of_append
    rw [← lead.ends]
    exact lead.ahead (fun _ => start) free
  constructor
  case ahead_first => exact start
  case ahead_after => exact ahead_after
  case readable =>
    intro readable m member
    obtain ⟨front, back, whole⟩ := List.append_of_mem member
    refine ahead_after front m back whole (stranded_of_reads fun other among => readable other ?_)
    rw [whole, List.append_cons]
    exact List.mem_append_left _ among
  case no_clash =>
    intro front m back whole free n clashed
    have step := step_at front m back whole
    rw [clashed] at step
    exact step.clash_of_outage (ahead_before front m back whole free)
  case ascending => exact run.ascending
  case above_held =>
    intro front m back whole free order now k held found
    exact (step_at front m back whole).above_cleared now
      (ahead_before front m back whole free k held found)
  case no_waste =>
    intro front m back whole free outcome bought unplaced kept
    have step := step_at front m back whole
    obtain ⟨before, deed, after⟩ := m
    dsimp only at bought
    subst bought
    exact step.counter_of_unplaced (ahead_before front _ back whole free) unplaced kept
  case consecutive =>
    intro front between back before after a b whole free quiet placed_first placed_second
    rw [whole] at run
    obtain ⟨_, run, _⟩ := run.of_append
    obtain ⟨_, lead, run⟩ := run.of_append
    exact run.consecutive (lead.ahead (fun _ => start) free) quiet placed_first placed_second

/-! ## A short life -/

/-- A log that held one order before the node was opened over it. -/
def oldStorage : Storage := { log := .table { medium := .onFile 2, rows := [⟨7, "pear", 1⟩] } }

def alone : Registry := .ofMembers 1 []

def justOpened : Site OverriddenCatalog ScriptedPeers where
  desk :=
    { node :=
        { storage := oldStorage
          counter := .startingAbove 7
          registry := alone
          metrics := { maxNumber := 7 } }
      catalog := { stock := {}, onTake := some (.ok .applied) } }
  lanes := .ofWidth 1 5 {}

def reopened (s : Site OverriddenCatalog ScriptedPeers) : Site OverriddenCatalog ScriptedPeers :=
  let top := s.desk.node.storage.log.maxNumber
  { s with
    desk :=
      { s.desk with
        node :=
          { storage := s.desk.node.storage
            counter := .startingAbove top
            registry := alone
            metrics := { maxNumber := top } } } }

theorem sound_over_old_log : ∃ moments last,
    Service.openNode oldStorage alone = .ok justOpened.desk.node ∧
      Run justOpened moments last ∧ (placed moments).map (·.number) = [8, 9, 21] ∧
      Sound justOpened moments := by
  have opened : Service.openNode oldStorage alone = .ok justOpened.desk.node := rfl
  have run := Run.cons (.buy justOpened false ⟨"apple", 2⟩)
    (.cons (.buy _ false ⟨"apple", 0⟩)
      (.cons (.assign _ ⟨1, "host", 1700⟩)
        (.cons (.buy _ false ⟨"plum", 1⟩)
          (.cons (.accept _ ⟨⟨20, "fig", 3⟩, 2⟩)
            (.cons (.sync _ fun _ => none)
              (.cons (Step.restart _ alone rfl rfl : Step _ _ (reopened _))
                (.cons (.buy _ false ⟨"plum", 1⟩) (.nil _))))))))
  exact ⟨_, _, opened, run, by decide +kernel, sound_of_opened opened run⟩

/-! ## A log that fails for a while -/

/-- The log takes no order in. -/
def refusing : LogCall → Option Failure
  | .insert => some (.because "disk full")
  | _ => none

/-- The log cannot tell its greatest number. -/
def unreadable : LogCall → Option Failure
  | .maxNumber => some (.because "disk full")
  | _ => none

/-- A peer that holds one order more than the old log. -/
def ahead : ScriptedPeers where
  peers := [{ id := 2, orders := [⟨8, "fig", 1⟩] }]

/-- A node just opened over the old log, with that peer. -/
def overtaken : Site OverriddenCatalog ScriptedPeers where
  desk :=
    { node :=
        { storage := oldStorage
          counter := .startingAbove 7
          registry := .ofMembers 1 ahead.members
          metrics := { maxNumber := 7 } }
      catalog := { stock := {}, onTake := some (.ok .applied) } }
  lanes := .ofWidth 1 5 ahead

/-- A buy whose write the log refuses uses up a number. A sync that stores orders and cannot read the
log again leaves the counter behind them, and the next buy finds its number held although by then all
calls work. -/
theorem exceptions_over_old_log :
    (Service.openNode oldStorage alone = .ok justOpened.desk.node ∧
      ∃ s₁ s₂ s₃ s₄ s₅, Run justOpened
        [⟨justOpened, .buy (.placed ⟨8, "apple", 1⟩), s₁⟩, ⟨s₁, .disturb, s₂⟩,
          ⟨s₂, .buy (.refused (.internal (.because "disk full"))), s₃⟩, ⟨s₃, .disturb, s₄⟩,
          ⟨s₄, .buy (.placed ⟨10, "apple", 1⟩), s₅⟩] s₅) ∧
    (Service.openNode oldStorage (.ofMembers 1 ahead.members) = .ok overtaken.desk.node ∧
      ∃ s₁ s₂ s₃, Run overtaken
          [⟨overtaken, .sync, s₁⟩, ⟨s₁, .disturb, s₂⟩,
            ⟨s₂, .buy (.refused (.internal (Service.clash 8))), s₃⟩] s₃ ∧
        ¬ s₁.desk.node.Ahead ∧ s₂.desk.node.storage.outage = fun _ => none) := by
  refine ⟨⟨rfl, ?_⟩, rfl, ?_⟩
  · let first := justOpened.work (Service.buy false ⟨"apple", 1⟩)
    let second := (first.2.failing refusing).work (Service.buy false ⟨"apple", 1⟩)
    let third := (second.2.failing fun _ => none).work (Service.buy false ⟨"apple", 1⟩)
    have placed : first.1 = .placed ⟨8, "apple", 1⟩ := by decide +kernel
    have lost : second.1 = .refused (.internal (.because "disk full")) := by decide +kernel
    have skipped : third.1 = .placed ⟨10, "apple", 1⟩ := by decide +kernel
    refine ⟨first.2, first.2.failing refusing, second.2, second.2.failing fun _ => none, third.2, ?_⟩
    rw [← placed, ← lost, ← skipped]
    exact .cons (.buy justOpened false _) (.cons (.disturb refusing rfl)
      (.cons (.buy _ false _) (.cons (.disturb _ rfl) (.cons (.buy _ false _) (.nil _)))))
  · let synced := overtaken.syncMeeting unreadable
    let bought := (synced.2.failing fun _ => none).work (Service.buy false ⟨"apple", 1⟩)
    have clashed : bought.1 = .refused (.internal (Service.clash 8)) := by decide +kernel
    have held : synced.2.desk.node.storage.log.get? 8 = some ⟨8, "fig", 1⟩ := by decide +kernel
    have stands : synced.2.desk.node.counter.next = 8 := by decide +kernel
    refine ⟨synced.2, synced.2.failing fun _ => none, bought.2, ?_, fun cleared => ?_, rfl⟩
    · rw [← clashed]
      exact .cons (.sync overtaken unreadable) (.cons (.disturb _ rfl)
        (.cons (.buy _ false _) (.nil _)))
    · rcases cleared 8 _ held with below | last
      · exact absurd (stands ▸ below) (by decide)
      · exact absurd (stands.symm.trans last) (by decide)

end OrderCluster.Lifetime
