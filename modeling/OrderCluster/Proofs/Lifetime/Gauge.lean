import OrderCluster.Proofs.Lifetime

/-!
# What a node publishes about its log

A node publishes the greatest number of its log when it is opened, when it places an order, when it
stores an order of another node and when it catches up. Between these the log does not change, so
what was published last is right, with two exceptions. Orders of other nodes, taken from a leader or
fetched by a sync, are stored before the greatest number is read again, and where it cannot be read
nothing is published; what is published then lags behind the log until it is published the next time.
And a placed order publishes its own number without asking the log, which is too low while a sync has
left the counter stranded below what it stored.

The numbers are those that are handed to the gauge. The page that shows it rounds them to doubles.
-/

namespace OrderCluster

/-- An order that lies above all others is the greatest of the log it is written to. -/
theorem OrderLog.maxNumber_insert_top {log : OrderLog} {order : Order}
    (above : ∀ k held, log.get? k = some held → k < order.number) :
    (log.insert order).2.maxNumber = order.number := by
  have free : log.get? order.number = none := by
    cases found : log.get? order.number with
    | none => rfl
    | some held => exact absurd (above _ _ found) Int64.lt_irrefl
  have le := OrderLog.le_maxNumber (OrderLog.get?_insert_self free)
  rcases (log.insert order).2.maxNumber_cases with ⟨empty, _⟩ | ⟨top, found⟩
  · have stored := OrderLog.get?_insert_self free
    rw [empty] at stored
    cases stored
  · rcases OrderLog.get?_insert_cases found with old | ⟨_, _, same⟩
    · exact absurd (Int64.lt_of_lt_of_le (above _ _ old) le) Int64.lt_irrefl
    · exact same.symm

/-- The number that was published last, before it is rounded to a double for the page that shows it,
is the greatest of the log. -/
def Node.Truthful (n : Node) : Prop := n.metrics.maxNumber = n.storage.log.maxNumber

instance (n : Node) : Decidable n.Truthful :=
  inferInstanceAs (Decidable (n.metrics.maxNumber = n.storage.log.maxNumber))

/-- A node that is opened publishes the greatest number of its log. -/
theorem Service.truthful_openNode {storage : Storage} {registry : Registry} {n : Node}
    (opened : openNode storage registry = .ok n) : n.Truthful := by
  unfold openNode at opened
  cases top : storage.read .maxNumber fun log => log.maxNumber with
  | error cause =>
    rw [top] at opened
    cases opened
  | ok greatest =>
    rw [top] at opened
    cases opened
    obtain ⟨_, rfl⟩ := Storage.read_eq_ok top
    rfl

/-- Two nodes that publish the same greatest number and hold the same. -/
structure Node.SameShown (n n' : Node) : Prop where
  maxNumber : n'.metrics.maxNumber = n.metrics.maxNumber
  log : n'.storage.log = n.storage.log

theorem Node.SameShown.trans {a b c : Node} (hab : a.SameShown b) (hbc : b.SameShown c) :
    a.SameShown c :=
  ⟨hbc.maxNumber.trans hab.maxNumber, hbc.log.trans hab.log⟩

theorem Node.SameShown.truthful {n n' : Node} (same : n.SameShown n') (truthful : n.Truthful) :
    n'.Truthful := by
  rw [Node.Truthful, same.maxNumber, same.log]
  exact truthful

/-! ## What each operation publishes -/

namespace Service

variable {κ : Type}

theorem BuyEnd.truthful [Catalog κ] {strict : Bool} {request : BuyRequest} {d d' : Desk κ}
    {order : Order} (how : BuyEnd strict request d (.placed order) d') (ahead : d.node.Ahead) :
    d'.node.Truthful := by
  have above : ∀ k held, d.node.storage.log.get? k = some held → k < order.number :=
    fun k held found => how.above_held ahead found
  cases how with
  | placed => exact (OrderLog.maxNumber_insert_top above).symm

theorem BuyEnd.sameShown [Catalog κ] {strict : Bool} {request : BuyRequest} {d d' : Desk κ}
    {outcome : BuyOutcome} (how : BuyEnd strict request d outcome d')
    (unplaced : outcome.owed? = none) : d.node.SameShown d'.node := by
  cases how with
  | placed => cases unplaced
  | _ => exact ⟨rfl, rfl⟩

theorem AcceptEnd.truthful {request : AcceptRequest} {answer : Except ServiceError AcceptResponse}
    {d d' : Desk κ} (how : AcceptEnd request d answer d')
    (grew : d.node.storage.log.all.length < d'.node.storage.log.all.length)
    (readable : d.node.storage.outage .maxNumber = none) : d'.node.Truthful := by
  cases how with
  | failed _ => exact absurd grew (Nat.lt_irrefl _)
  | held _ _ => exact absurd grew (Nat.lt_irrefl _)
  | unread _ _ outage => cases readable.symm.trans outage
  | stored _ _ _ => rfl

theorem AcceptEnd.sameShown {request : AcceptRequest} {answer : Except ServiceError AcceptResponse}
    {d d' : Desk κ} (how : AcceptEnd request d answer d')
    (unwritten : ¬ d.node.storage.log.all.length < d'.node.storage.log.all.length) :
    d.node.SameShown d'.node := by
  have grows : d.node.storage.log.get? request.order.number = none →
      d.node.storage.log.all.length <
        (d.node.storage.log.insert request.order).2.all.length := by
    intro free
    rw [OrderLog.length_insert, OrderLog.insert_fst, free]
    exact Nat.lt_succ_self _
  cases how with
  | failed _ => exact ⟨rfl, rfl⟩
  | held _ _ => exact ⟨rfl, rfl⟩
  | unread _ free _ => exact absurd (grows free) unwritten
  | stored _ free _ => exact absurd (grows free) unwritten

theorem sameShown_assign [Catalog κ] (request : LeaderAssignment) (d : Desk κ) :
    d.node.SameShown ((assign request).perform d).2.node := by
  rw [perform_assign]
  split
  · split <;> exact ⟨rfl, rfl⟩
  · exact ⟨rfl, rfl⟩

end Service

namespace Replication

variable {κ : Type} {d d' : Desk κ}

theorem Sync.ConcludeEnd.truthful {s : Sync} {ended : List Ended}
    {answer : Except Failure SyncReport} (how : ConcludeEnd s ended d answer d')
    (asked : s.peers ≠ []) (works : d.node.storage.outage .insertAll = none)
    (readable : d.node.storage.outage .maxNumber = none) : d'.node.Truthful := by
  cases how with
  | alone nobody => exact absurd nobody asked
  | failed _ outage => cases works.symm.trans outage
  | unread _ _ outage => cases readable.symm.trans outage
  | merged _ _ _ => rfl

theorem Sync.ConcludeEnd.sameShown [Catalog κ] {s : Sync} {ended : List Ended}
    {answer : Except Failure SyncReport} (how : ConcludeEnd s ended d answer d')
    (silent : s.peers ≠ [] → d.node.storage.outage .insertAll = none →
      d.node.storage.outage .maxNumber ≠ none)
    (prompt : d.node.storage.log.all.length < d'.node.storage.log.all.length →
      d.node.storage.outage .maxNumber = none) :
    d.node.SameShown d'.node := by
  cases how with
  | alone _ => exact ⟨rfl, rfl⟩
  | failed _ _ => exact ⟨rfl, rfl⟩
  | unread _ _ outage =>
    rw [written_of_unwritten fun grew => ?_]
    · exact ⟨rfl, rfl⟩
    · cases outage.symm.trans (prompt grew)
  | merged asked works readable => exact absurd readable (silent asked works)

theorem sameShown_settled (n : Node) (kind : CallKind) (peer : NodeId) (verdict : Verdict)
    (d : Desk κ) (same : n.SameShown d.node) :
    n.SameShown (settled kind peer verdict d).node :=
  ⟨same.maxNumber, same.log⟩

end Replication

namespace Lifetime

open Replication (Site)

variable {κ σ : Type} [Catalog κ] [Peers σ]

namespace Moment

/-- Whether an operation publishes a number. -/
def publishes (m : Moment κ σ) : Bool :=
  match m.deed with
  | .buy outcome => outcome.owed?.isSome
  | .accept => m.grows && m.reads
  | .sync => m.merges
  | .restart => true
  | _ => false

/-- Whether an operation stored orders of other nodes, and the log could not be read then. -/
def lags (m : Moment κ σ) : Bool :=
  match m.deed with
  | .accept | .sync => m.grows && !m.reads
  | _ => false

/-- Whether the counter is stranded and what is published may be wrong after an operation, if both
are known of the time before. A placed order publishes its own number, which says nothing about the
log where the counter was stranded. -/
def leavesBehind : Bool × Bool → Moment κ σ → Bool × Bool
  | (stranded, behind), m =>
    (m.leavesStranded stranded,
      if m.publishes then stranded && m.deed.placed?.isSome else behind || m.lags)

end Moment

/-- Whether an order was stored, or placed below one that is held, since the greatest number was
published last. -/
def lagging (moments : List (Moment κ σ)) : Bool :=
  (moments.foldl Moment.leavesBehind (false, false)).2

section Steps

variable {s s' : Site κ σ} {deed : Deed}

/-- After an operation that publishes a number, what is published is right; of a placed order this
holds if the node was ahead of its log. -/
theorem Step.truthful_of_publishes (step : Step s deed s')
    (publishes : (⟨s, deed, s'⟩ : Moment κ σ).publishes = true)
    (ahead : deed.placed?.isSome = true → s.desk.node.Ahead) : s'.desk.node.Truthful := by
  cases step with
  | buy strict request =>
    obtain ⟨order, owed⟩ := Option.isSome_iff_exists.mp publishes
    have how := Service.buyEnd_buy strict request s.desk
    have answer : ((Service.buy strict request).perform s.desk).1 = .placed order :=
      Service.BuyEnd.eq_placed_of_owed owed
    rw [answer] at how
    exact how.truthful (ahead publishes)
  | accept request =>
    obtain ⟨grows, reads⟩ := Bool.and_eq_true_iff.mp publishes
    rw [Moment.reads, Site.desk_work, Work.outage_perform] at reads
    exact (Service.acceptEnd_accept request s.desk).truthful (of_decide_eq_true grows)
      (Option.isNone_iff_eq_none.mp reads)
  | sync outage =>
    obtain ⟨works, called⟩ := Bool.and_eq_true_iff.mp publishes
    obtain ⟨reads, writes⟩ := Bool.and_eq_true_iff.mp works
    have readable := Option.isNone_iff_eq_none.mp reads
    have writable := Option.isNone_iff_eq_none.mp writes
    dsimp only at readable writable
    rcases s.syncMeeting_cases outage with
      ⟨cause, unread, eq⟩ | ⟨_, ended, called_site, _, rfl, _, _, eq⟩
    · rw [eq] at readable
      cases readable.symm.trans unread
    · rw [eq, Site.outage_concluded] at readable writable
      rw [eq]
      exact (Replication.Sync.concludeEnd_conclude _ ended _).truthful (by simpa using called)
        writable readable
  | restart storage registry kept opened => exact Service.truthful_openNode opened
  | _ => cases publishes

/-- An operation that does not publish the greatest number leaves it alone, and what is published,
too, unless it lags. -/
theorem Step.sameShown (step : Step s deed s')
    (silent : (⟨s, deed, s'⟩ : Moment κ σ).publishes = false)
    (prompt : (⟨s, deed, s'⟩ : Moment κ σ).lags = false) :
    s.desk.node.SameShown s'.desk.node := by
  cases step with
  | buy strict request =>
    have unplaced : (s.work (Service.buy strict request)).1.owed? = none := by
      simpa [Moment.publishes] using silent
    exact (Service.buyEnd_buy strict request s.desk).sameShown unplaced
  | query request =>
    rw [Site.desk_work, Service.perform_query]
    exact ⟨rfl, rfl⟩
  | status =>
    rw [Site.desk_work, Service.perform_status]
    exact ⟨rfl, rfl⟩
  | assign request => exact Service.sameShown_assign request s.desk
  | fetch request =>
    rw [Site.desk_work, Service.perform_fetch]
    exact ⟨rfl, rfl⟩
  | mark id status => exact ⟨rfl, rfl⟩
  | accept request =>
    -- what is written is published or lags, as the log can be read or not
    refine (Service.acceptEnd_accept request s.desk).sameShown fun grew => ?_
    have grows : (⟨s, .accept, (s.work (Service.accept request)).2⟩ : Moment κ σ).grows = true :=
      decide_eq_true grew
    simp [Moment.publishes, Moment.lags, grows] at silent prompt
    rw [silent] at prompt
    cases prompt
  | sync outage =>
    rcases s.syncMeeting_cases outage with
      ⟨_, _, eq⟩ | ⟨sync, ended, called, _, asks, round, books, eq⟩
    · rw [eq]
      exact ⟨rfl, rfl⟩
    · have calls : s.desk.node.SameShown (s.call .fetch sync.peers sync.errand).2.desk.node :=
        Site.desk_call (Replication.sameShown_settled s.desk.node) .fetch _ _ ⟨rfl, rfl⟩
      rw [round] at calls
      have log : (called.failing outage).desk.node.storage.log = s.desk.node.storage.log := calls.log
      have shown : s.desk.node.SameShown (called.failing outage).desk.node :=
        ⟨calls.maxNumber, calls.log⟩
      rw [eq] at silent prompt ⊢
      refine shown.trans ((sync.concludeEnd_conclude ended (called.failing outage).desk).sameShown
        (fun asked works readable => ?_) fun grew => ?_)
      · subst asks
        have some_called : s.desk.node.registry.activePeers ≠ [] := asked
        change outage .insertAll = none at works
        change outage .maxNumber = none at readable
        simp [Moment.publishes, Moment.merges, Moment.reads, Moment.writes, Site.outage_concluded,
          works, readable, some_called] at silent
      · rw [log] at grew
        have grows : (⟨s, .sync, ((called.failing outage).work (sync.conclude ended)).2⟩ :
            Moment κ σ).grows = true := decide_eq_true grew
        change outage .maxNumber = none
        simpa [Moment.lags, grows, Moment.reads, Site.outage_concluded] using prompt
  | fanOut order =>
    exact Site.desk_fanOut (Replication.sameShown_settled s.desk.node) order ⟨rfl, rfl⟩
  | spawn order => exact ⟨rfl, rfl⟩
  | advance millis =>
    exact Site.desk_advance (Replication.sameShown_settled s.desk.node) millis ⟨rfl, rfl⟩
  | drain grace =>
    exact Site.desk_drain (Replication.sameShown_settled s.desk.node) grace ⟨rfl, rfl⟩
  | disturb outage same =>
    rw [same]
    exact ⟨rfl, rfl⟩
  | restart storage registry kept opened => cases silent

end Steps

/-! ## Whole runs -/

/-- If nothing lagged when a run began and nothing lags when it ends, what is published is right. -/
theorem Run.truthful {s s' : Site κ σ} {moments : List (Moment κ σ)} (run : Run s moments s')
    {stranded behind : Bool} (ahead : stranded = false → s.desk.node.Ahead)
    (start : behind = false → s.desk.node.Truthful)
    (prompt : (moments.foldl Moment.leavesBehind (stranded, behind)).2 = false) :
    s'.desk.node.Truthful := by
  induction run generalizing stranded behind with
  | nil s => exact start prompt
  | @cons s s' s'' deed moments step rest ih =>
    refine ih (step.ahead_of_free ahead) (fun caught_up => ?_) prompt
    cases publishes : (⟨s, deed, s'⟩ : Moment κ σ).publishes with
    | true =>
      refine step.truthful_of_publishes publishes fun placed => ahead ?_
      rwa [publishes, if_pos rfl, placed, Bool.and_true] at caught_up
    | false =>
      rw [publishes, if_neg Bool.false_ne_true, Bool.or_eq_false_iff] at caught_up
      exact (step.sameShown publishes caught_up.2).truthful (start caught_up.1)

/-- What a node publishes about its log over its life. -/
structure Published (first : Site κ σ) (moments : List (Moment κ σ)) : Prop where
  /-- What is published is right when the node is opened. -/
  opened : first.desk.node.Truthful
  /-- After every operation it is right, unless since it was published last an order was stored by an
  operation that could not read the log, or one was placed while the counter was stranded. -/
  right : ∀ front m back, moments = front ++ m :: back → lagging (front ++ [m]) = false →
    m.after.desk.node.Truthful
  /-- Where the log can be read by all that takes orders of other nodes in, it is right after every
  operation. -/
  readable : (∀ m ∈ moments, m.deed = .accept ∨ m.deed = .sync → m.reads = true) →
    ∀ m ∈ moments, m.after.desk.node.Truthful
  /-- It is right again as soon as it is published, by a placed order only if the counter was not
  stranded. -/
  healed : ∀ front m back, moments = front ++ m :: back → m.publishes = true →
    (m.deed.placed?.isSome = true → stranded front = false) → m.after.desk.node.Truthful
  /-- Nothing else changes what is published, and no other operation than one that lags writes
  without publishing. -/
  otherwise : ∀ m ∈ moments, m.publishes = false → m.lags = false →
    m.before.desk.node.SameShown m.after.desk.node

section Readable

omit [Catalog κ] [Peers σ]

theorem Moment.prompt_of_readable {m : Moment κ σ}
    (readable : m.deed = .accept ∨ m.deed = .sync → m.reads = true) :
    m.strands = false ∧ m.lags = false := by
  refine ⟨strands_of_reads fun deed => readable (Or.inr deed), ?_⟩
  rw [lags]
  cases deed : m.deed with
  | accept => simp [readable (Or.inl deed)]
  | sync => simp [readable (Or.inr deed)]
  | _ => rfl

theorem lagging_of_readable {moments : List (Moment κ σ)}
    (readable : ∀ m ∈ moments, m.deed = .accept ∨ m.deed = .sync → m.reads = true) :
    lagging moments = false := by
  rw [lagging]
  induction moments with
  | nil => rfl
  | cons m rest ih =>
    obtain ⟨now, later⟩ := List.forall_mem_cons.mp readable
    obtain ⟨free, prompt⟩ := Moment.prompt_of_readable now
    have unmoved : m.leavesBehind (false, false) = (false, false) := by
      simp [Moment.leavesBehind, Moment.leavesStranded, free, prompt]
    rw [List.foldl_cons, unmoved]
    exact ih later

end Readable

/-- A node that was opened over any log publishes the greatest number of its log after every
operation, except while it lags. -/
theorem published_of_opened {storage : Storage} {registry : Registry} {first last : Site κ σ}
    {moments : List (Moment κ σ)}
    (opened : Service.openNode storage registry = .ok first.desk.node)
    (run : Run first moments last) : Published first moments := by
  have ahead : first.desk.node.Ahead := (Service.ahead_openNode opened).2
  have start : first.desk.node.Truthful := Service.truthful_openNode opened
  have right : ∀ front m back, moments = front ++ m :: back → lagging (front ++ [m]) = false →
      m.after.desk.node.Truthful := by
    intro front m back whole prompt
    rw [whole, List.append_cons] at run
    obtain ⟨reached, lead, _⟩ := run.of_append
    rw [← lead.ends]
    exact lead.truthful (fun _ => ahead) (fun _ => start) prompt
  constructor
  case opened => exact start
  case right => exact right
  case readable =>
    intro readable m member
    obtain ⟨front, back, whole⟩ := List.append_of_mem member
    refine right front m back whole (lagging_of_readable fun other among => readable other ?_)
    rw [whole, List.append_cons]
    exact List.mem_append_left _ among
  case healed =>
    intro front m back whole publishes free
    rw [whole] at run
    obtain ⟨lead, step, _⟩ := run.split
    exact step.truthful_of_publishes publishes fun placed =>
      lead.ahead (fun _ => ahead) (free placed)
  case otherwise =>
    intro m member silent prompt
    exact (run.step_of_mem member).sameShown silent prompt

/-! ## A log that cannot be read for a while -/

/-- A node just opened over an empty log. -/
def blank : Site Stock ScriptedPeers where
  desk :=
    { node :=
        { storage := { log := .table { medium := .inMemory, rows := [] } }
          counter := .startingAbove 0
          registry := alone }
      catalog := {} }
  lanes := .ofWidth 1 5 {}

/-- An order that is stored while the log cannot be read is not published, but the next one is. -/
theorem published_blank : ∃ moments last,
    Service.openNode blank.desk.node.storage alone = .ok blank.desk.node ∧
      Run blank moments last ∧
      moments.map (fun m => (m.after.desk.node.metrics.maxNumber,
        m.after.desk.node.storage.log.maxNumber)) = [(0, 0), (0, 5), (0, 5), (5, 5)] ∧
      Published blank moments := by
  have opened : Service.openNode blank.desk.node.storage alone = .ok blank.desk.node := rfl
  have run := Run.cons (.disturb unreadable rfl : Step blank _ (blank.failing unreadable))
    (.cons (.accept _ ⟨⟨5, "ant", 1⟩, 2⟩)
      (.cons (.disturb (fun _ => none) rfl : Step _ _ (Site.failing _ fun _ => none))
        (.cons (.accept _ ⟨⟨3, "bee", 1⟩, 2⟩) (.nil _))))
  exact ⟨_, _, opened, run, by decide +kernel, published_of_opened opened run⟩

/-- While the log can be read again, but before anything is written, what is published lags behind
the log. -/
theorem lags_blank : ∃ moments last,
    Service.openNode blank.desk.node.storage alone = .ok blank.desk.node ∧
      Run blank moments last ∧ last.desk.node.storage.outage .maxNumber = none ∧
      last.desk.node.storage.log.all = [⟨5, "ant", 1⟩] ∧ last.desk.node.metrics.maxNumber = 0 ∧
      ¬ last.desk.node.Truthful := by
  have opened : Service.openNode blank.desk.node.storage alone = .ok blank.desk.node := rfl
  have run := Run.cons (.disturb unreadable rfl : Step blank _ (blank.failing unreadable))
    (.cons (.accept _ ⟨⟨5, "ant", 1⟩, 2⟩)
      (.cons (.disturb (fun _ => none) rfl : Step _ _ (Site.failing _ fun _ => none)) (.nil _)))
  exact ⟨_, _, opened, run, rfl, by decide +kernel, by decide +kernel, by decide +kernel⟩

end Lifetime

end OrderCluster
