import OrderCluster.Proofs.Interleaving.Marking
import OrderCluster.Proofs.Interleaving.Station
import OrderCluster.Proofs.Replication.Tickets

/-!
# A site and its mirror

A site knows of its calls only how many of each round have not ended. A node that mirrors it has an
operation that waits for each round, with exactly the calls of the round before it. The mirror
follows when a round begins, when a call lands, and when a round that is waited for ends.
-/

namespace OrderCluster.Interleaving

open Replication

/-- An operation that has heard of a call made its calls before. -/
theorem Thread.launches_snoc (ticket : Nat) (operation : Operation) (trace : List Event)
    (purpose : Purpose) (waiting : List Member) (ended : List Ended) (e : Ended) :
    Thread.launches ticket
      ⟨operation, trace, .done (.calling purpose waiting (ended ++ [e]))⟩ = [] := by
  cases ended <;> rfl

/-- An operation does something before it makes calls. -/
theorem Thread.launches_start (ticket : Nat) (operation : Operation) :
    (Thread.start operation).launches ticket = [] := by
  cases operation with
  | buy strict request =>
    simp only [Thread.launches, Thread.start, Operation.work, Service.buy]
    cases request.problems with
    | nil => rfl
    | cons problem rest => rfl
  | _ => rfl

section Decisions

variable {κ : Type} [Catalog κ]

/-- What an operation comes to that calls nobody. -/
theorem Thread.launches_silent {operation : Operation} (silent : operation.callsPeers = false)
    (d : Desk κ) (ticket : Nat) (trace : List Event) :
    Thread.launches ticket ⟨operation, trace, .done (operation.work.perform d).1⟩ = [] := by
  cases operation with
  | sync | push => cases silent
  | _ =>
    rw [Operation.work, Work.perform_bind]
    rfl

theorem perform_push (order : Order) (d : Desk κ) :
    (Operation.push order).work.perform d =
      (.calling (.push ⟨d.node.registry.selfId, d.node.registry.activePeers, order⟩)
        d.node.registry.activePeers [], d) := rfl

theorem perform_sync_ok {d d' : Desk κ} {s : Sync} (begun : Sync.begin.perform d = (.ok s, d')) :
    Operation.sync.work.perform d = (.calling (.sync s) s.peers [], d') := by
  rw [Operation.work, Work.perform_bind, begun]
  rfl

theorem perform_sync_error {d d' : Desk κ} {cause : Failure}
    (begun : Sync.begin.perform d = (.error cause, d')) :
    Operation.sync.work.perform d = (.synced (.error cause), d') := by
  rw [Operation.work, Work.perform_bind, begun]
  rfl

theorem perform_conclude_sync (s : Sync) (ended : List Ended) (d : Desk κ) :
    ((Purpose.sync s).conclude ended).perform d =
      (.synced ((s.conclude ended).perform d).1, ((s.conclude ended).perform d).2) := by
  rw [Purpose.conclude, Work.perform_bind]
  rfl

end Decisions

namespace Station

variable {κ σ : Type} [Catalog κ] [Peers σ]

/-! ## What one thread does -/

/-- An operation that nothing interrupts runs to its end, or to its calls. -/
theorem run_perform {lanes : Lanes σ} (busy : lanes.waiting ≠ [] → lanes.free = 0) (ticket : Nat)
    (operation : Operation) (front back : List (Nat × Thread)) (landed : List (Call × Verdict))
    (rest : Work Outcome) (trace : List Event) (d : Desk κ) :
    ∃ trace', Run
      (⟨d, lanes.enqueue (Thread.launches ticket ⟨operation, trace, rest⟩),
        front ++ (ticket, ⟨operation, trace, rest⟩) :: back, landed⟩ : Station κ σ)
      ⟨(rest.perform d).2,
        lanes.enqueue (Thread.launches ticket ⟨operation, trace', .done (rest.perform d).1⟩),
        front ++ (ticket, ⟨operation, trace', .done (rest.perform d).1⟩) :: back, landed⟩ := by
  induction rest generalizing trace d with
  | done outcome => exact ⟨trace, .refl⟩
  | act action next ih =>
    obtain ⟨trace', later⟩ := ih (action.perform d).1
      (trace ++ [.did action (action.perform d).1]) (action.perform d).2
    refine ⟨trace', .head ?_ later⟩
    have moved := @Step.move κ σ _ _ ⟨d, lanes, _, landed⟩ ticket _ _ _ front back rfl
      (.act d operation trace action next)
    change Step ⟨d, lanes.enqueue [], _, landed⟩ _
    rw [Lanes.enqueue_nil busy]
    exact moved

/-- An operation begins, and nothing interrupts it until it has ended or makes calls. -/
theorem run_begin {s : Station κ σ} (busy : s.lanes.waiting ≠ [] → s.lanes.free = 0) {ticket : Nat}
    (fresh : s.Fresh ticket) (operation : Operation) :
    ∃ trace, Run s
      ⟨(operation.work.perform s.desk).2,
        s.lanes.enqueue
          (Thread.launches ticket ⟨operation, trace, .done (operation.work.perform s.desk).1⟩),
        s.threads ++ [(ticket, ⟨operation, trace, .done (operation.work.perform s.desk).1⟩)],
        s.landed⟩ := by
  obtain ⟨trace, run⟩ := run_perform busy ticket operation s.threads [] s.landed operation.work []
    s.desk
  refine ⟨trace, .head (.begin operation fresh) ?_⟩
  have nobody : Thread.launches ticket ⟨operation, [], operation.work⟩ = [] :=
    Thread.launches_start ticket operation
  rw [nobody, Lanes.enqueue_nil busy] at run
  exact run

/-- A call lands, and at once its operation hears of it and settles it. -/
theorem run_settle {s : Station κ σ} {f : Flight} {others : List Flight}
    (perm : s.lanes.flights.Perm (f :: others))
    (first : ∀ g ∈ s.lanes.flights, f.landsAt s.lanes.deadline ≤ g.landsAt s.lanes.deadline)
    {operation : Operation} {trace : List Event} {purpose : Purpose} {waiting : List Member}
    {ended : List Ended} {front back : List (Nat × Thread)}
    (among : s.threads =
      front ++ (f.call.ticket, ⟨operation, trace, .done (.calling purpose waiting ended)⟩) :: back)
    (called : f.call.member ∈ waiting) (errand : f.call.errand = purpose.errand) :
    ∃ trace', Run s
      ⟨settled f.call.errand.kind f.call.member.id (s.lanes.land f others).verdict s.desk,
        (s.lanes.land f others).lanes,
        front ++ (f.call.ticket, ⟨operation, trace', .done (.calling purpose
          (waiting.erase f.call.member)
          (ended ++ [(f.call.member.id, (s.lanes.land f others).verdict)]))⟩) :: back,
        s.landed ++ [(f.call, (s.lanes.land f others).verdict)]⟩ := by
  have busy := (@Lanes.flowing_land σ _ s.lanes f others).no_idle
  have told : (⟨f.call.ticket, f.call.member, purpose.errand⟩, (s.lanes.land f others).verdict) ∈
      s.landed ++ [(f.call, (s.lanes.land f others).verdict)] := by
    rw [← errand]
    exact List.mem_append_right _ List.mem_cons_self
  obtain ⟨trace', run⟩ := run_perform busy f.call.ticket operation front back
    (s.landed ++ [(f.call, (s.lanes.land f others).verdict)])
    (do
      settle purpose.errand.kind f.call.member.id (s.lanes.land f others).verdict
      return .calling purpose (waiting.erase f.call.member)
        (ended ++ [(f.call.member.id, (s.lanes.land f others).verdict)]))
    (trace ++ [.landed f.call.member (s.lanes.land f others).verdict]) s.desk
  simp only [Work.perform_bind, perform_settle, Work.perform_pure, Thread.launches_snoc] at run
  rw [Lanes.enqueue_nil busy] at run
  rw [errand]
  refine ⟨trace', .head (.land perm first) (.head ?_ run)⟩
  exact .move among (.land s.desk operation trace purpose waiting ended called told)

/-! ## A site and its mirror -/

/-- An operation waits for the calls of a round. -/
def Waits (s : Station κ σ) (purpose : Purpose) (r : Round) : Prop :=
  ∃ operation trace waiting,
    (r.ticket, ⟨operation, trace, .done (.calling purpose waiting r.ended)⟩) ∈ s.threads ∧
      waiting.length = r.left ∧
      (s.lanes.callsOf r.ticket).Perm (waiting.map fun m => ⟨r.ticket, m, purpose.errand⟩)

/-- A node that came, from its beginning, to where a site is. For each round of the site one of its
operations waits; it is known what for. -/
structure Mirrors (first : Station κ σ) (purposes : Nat → Purpose) (s : Station κ σ)
    (site : Site κ σ) : Prop where
  run : Run first s
  desk : s.desk = site.desk
  lanes : s.lanes = site.lanes
  threads : ∀ e ∈ s.threads, e.1 < site.nextTicket
  landed : ∀ e ∈ s.landed, e.1.ticket < site.nextTicket
  distinct : (site.rounds.map Round.ticket).Nodup
  known : ∀ call ∈ s.lanes.calls, ∃ r ∈ site.rounds, r.ticket = call.ticket
  rounds : ∀ r ∈ site.rounds, r.left ≠ 0 ∧ s.Waits (purposes r.ticket) r

section Landing

variable {first s : Station κ σ} {purposes : Nat → Purpose} {site : Site κ σ}

omit [Catalog κ] [Peers σ] in
/-- A round with a call under way is not over. -/
theorem Waits.left_ne_zero {purpose : Purpose} {r : Round} (waits : s.Waits purpose r) {call : Call}
    (called : call ∈ s.lanes.calls) (mine : r.ticket = call.ticket) : r.left ≠ 0 := by
  obtain ⟨operation, trace, waiting, _, count, calls⟩ := waits
  have waited := calls.mem_iff.mp (Lanes.mem_callsOf.mpr ⟨called, mine.symm⟩)
  obtain ⟨m, waits, _⟩ := List.mem_map.mp waited
  rw [← count]
  exact Nat.ne_of_gt (List.length_pos_of_mem waits)

omit [Catalog κ] [Peers σ] in
/-- A round that is not over has a call under way. -/
theorem Waits.busy {purpose : Purpose} {r : Round} (waits : s.Waits purpose r)
    (some_left : r.left ≠ 0) : s.lanes.calls ≠ [] := by
  obtain ⟨operation, trace, waiting, _, count, calls⟩ := waits
  intro nobody
  rw [Lanes.callsOf, nobody, List.filter_nil] at calls
  have none_waits := calls.length_eq
  rw [List.length_nil, List.length_map, count] at none_waits
  exact some_left none_waits.symm

omit [Catalog κ] in
/-- An operation goes on waiting when another one begins, even if that one makes calls. -/
theorem Waits.beside {purpose : Purpose} {r : Round} (waits : s.Waits purpose r) {calls : List Call}
    (others : ∀ call ∈ calls, call.ticket ≠ r.ticket) (d : Desk κ) (new : Nat × Thread) :
    Waits ⟨d, s.lanes.enqueue calls, s.threads ++ [new], s.landed⟩ purpose r := by
  obtain ⟨operation, trace, waiting, thread, count, waited⟩ := waits
  refine ⟨operation, trace, waiting, List.mem_append_left _ thread, count, ?_⟩
  dsimp only
  rwa [Lanes.callsOf_enqueue_of_ne _ others]

/-- A call that lands is a call of one round, and after it was settled every operation waits for
what is left. -/
theorem Mirrors.settle (mirrors : Mirrors first purposes s site) {f : Flight} {others : List Flight}
    (perm : s.lanes.flights.Perm (f :: others))
    (nearest : ∀ g ∈ s.lanes.flights, f.landsAt s.lanes.deadline ≤ g.landsAt s.lanes.deadline) :
    ∃ threads, Run s
        ⟨settled f.call.errand.kind f.call.member.id (s.lanes.land f others).verdict s.desk,
          (s.lanes.land f others).lanes, threads,
          s.landed ++ [(f.call, (s.lanes.land f others).verdict)]⟩ ∧
      (∀ e ∈ threads, e.1 < site.nextTicket) ∧ f.call.ticket < site.nextTicket ∧
      ∀ r ∈ site.rounds,
        Waits
          ⟨settled f.call.errand.kind f.call.member.id (s.lanes.land f others).verdict s.desk,
            (s.lanes.land f others).lanes, threads,
            s.landed ++ [(f.call, (s.lanes.land f others).verdict)]⟩
          (purposes r.ticket) (r.note f.call (s.lanes.land f others).verdict) := by
  have under_way : f.call ∈ s.lanes.calls := (Lanes.perm_land perm).mem_iff.mpr List.mem_cons_self
  obtain ⟨r, among, mine⟩ := mirrors.known f.call under_way
  obtain ⟨_, operation, trace, waiting, thread, count, waited⟩ := mirrors.rounds r among
  rw [mine] at thread waited
  obtain ⟨waits, errand, rest⟩ := Lanes.waiting_land perm waited
  obtain ⟨front, back, split⟩ := List.append_of_mem thread
  obtain ⟨trace', later⟩ := run_settle perm nearest split waits errand
  have ticket := mirrors.threads _ thread
  refine ⟨_, later, ?_, ticket, ?_⟩
  · intro e inside
    rcases mem_of_replaced inside _ with rfl | other
    · exact ticket
    · exact mirrors.threads e (split ▸ other)
  · intro r' among'
    by_cases same : r'.ticket = f.call.ticket
    · have eq : r' = r :=
        List.inj_on_of_nodup_map mirrors.distinct among' among (same.trans mine.symm)
      subst eq
      rw [Round.note_of_eq same, same]
      refine ⟨operation, trace', waiting.erase f.call.member, ?_, ?_, rest⟩
      · exact List.mem_append_right _ List.mem_cons_self
      · rw [List.length_erase_of_mem waits, count]
    · obtain ⟨_, operation', trace'', waiting', thread', count', waited'⟩ :=
        mirrors.rounds r' among'
      rw [Round.note_of_ne same]
      refine ⟨operation', trace'', waiting', ?_, count', ?_⟩
      · rcases mem_of_replaced (split ▸ thread') _ with eq | other
        · exact absurd (congrArg Prod.fst eq) same
        · exact other
      · exact (Lanes.callsOf_land_of_ne perm fun eq => same eq.symm).symm.trans waited'

theorem Mirrors.land (mirrors : Mirrors first purposes s site) {landing : Landing σ}
    {horizon : Option Nat} (lands : site.lanes.landNext? horizon = some landing) :
    ∃ s', Mirrors first purposes s' (site.landed landing) ∧
      ∀ r ∈ site.rounds,
        s'.Waits (purposes r.ticket) (r.note landing.call landing.verdict) := by
  rw [← mirrors.lanes] at lands
  obtain ⟨f, others, perm, nearest, _, rfl⟩ := Lanes.land_of_landNext? lands
  obtain ⟨threads, later, bounded, ticket, waits⟩ := mirrors.settle perm nearest
  refine ⟨_, ⟨mirrors.run.trans later, ?_, rfl, bounded, ?_, ?_, ?_, ?_⟩, waits⟩
  · exact congrArg (settled _ _ _) mirrors.desk
  · intro e inside
    rcases List.mem_append.mp inside with before | new
    · exact mirrors.landed e before
    · rw [List.mem_singleton.mp new]
      exact ticket
  · exact mirrors.distinct.sublist Site.tickets_landed
  · intro call after
    obtain ⟨r, among, mine⟩ :=
      mirrors.known call ((Lanes.perm_land perm).mem_iff.mpr (List.mem_cons_of_mem _ after))
    have noted := Round.ticket_note f.call (s.lanes.land f others).verdict r
    have left := (waits r among).left_ne_zero after (noted.trans mine)
    exact ⟨_, Site.mem_landed.mpr ⟨r, among, rfl, left⟩, noted.trans mine⟩
  · intro noted inside
    obtain ⟨r, among, rfl, left⟩ := Site.mem_landed.mp inside
    rw [Round.ticket_note]
    exact ⟨left, waits r among⟩

end Landing

section Following

variable {first s : Station κ σ} {purposes : Nat → Purpose} {site : Site κ σ} {width deadline : Nat}

omit [Catalog κ] [Peers σ] in
theorem ticket_lt (bounded : ∀ e ∈ s.threads, e.1 < site.nextTicket) {purpose : Purpose} {r : Round}
    (waits : s.Waits purpose r) : r.ticket < site.nextTicket := by
  obtain ⟨_, _, _, thread, _⟩ := waits
  exact bounded _ thread

/-- The next ticket of a site is one that nothing bears. -/
theorem Mirrors.fresh (mirrors : Mirrors first purposes s site) : s.Fresh site.nextTicket := by
  constructor
  · exact fun e inside => Nat.ne_of_lt (mirrors.threads e inside)
  · intro call called
    obtain ⟨r, among, mine⟩ := mirrors.known call called
    rw [← mine]
    exact Nat.ne_of_lt (ticket_lt mirrors.threads (mirrors.rounds r among).2)
  · exact fun e inside => Nat.ne_of_lt (mirrors.landed e inside)

theorem Mirrors.landAllWith (mirrors : Mirrors first purposes s site) (horizon fuel : Nat) :
    ∃ s', Mirrors first purposes s' (site.landAllWith horizon fuel) := by
  induction fuel generalizing s site with
  | zero => exact ⟨s, mirrors⟩
  | succ fuel ih =>
    rw [Site.landAllWith, Site.landNext?_eq]
    cases lands : site.lanes.landNext? (some horizon) with
    | none => exact ⟨s, mirrors⟩
    | some landing =>
      obtain ⟨s', after, _⟩ := mirrors.land lands
      exact ih after

theorem Mirrors.elapse (mirrors : Mirrors first purposes s site) {now : Nat}
    (later : site.lanes.now ≤ now)
    (due : ∀ f ∈ site.lanes.flights, now ≤ f.landsAt site.lanes.deadline) :
    Mirrors first purposes { s with lanes := { s.lanes with now } }
      { site with lanes := { site.lanes with now } } := by
  obtain ⟨run, desk, lanes, threads, landed, distinct, known, rounds⟩ := mirrors
  rw [← lanes] at later due ⊢
  exact
    ⟨run.tail (.drift (.elapse _ later due)), desk, rfl, threads, landed, distinct, known, rounds⟩

theorem Mirrors.disturb (mirrors : Mirrors first purposes s site)
    (outage : LogCall → Option Failure) (catalog : κ) :
    Mirrors first purposes
      { s with
        desk :=
          { node := { s.desk.node with storage := { s.desk.node.storage with outage := outage } }
            catalog } }
      { site with
        desk :=
          { node :=
              { site.desk.node with
                storage := { site.desk.node.storage with outage := outage } }
            catalog } } := by
  obtain ⟨run, desk, lanes, threads, landed, distinct, known, rounds⟩ := mirrors
  rw [← desk]
  exact ⟨run.tail (.disturb _ outage catalog), rfl, lanes, threads, landed, distinct, known, rounds⟩

theorem Mirrors.clear (mirrors : Mirrors first purposes s site) :
    Mirrors first purposes { s with lanes := s.lanes.clear }
      { site with lanes := site.lanes.clear, rounds := [] } := by
  obtain ⟨run, desk, lanes, threads, landed, distinct, known, rounds⟩ := mirrors
  have nobody : s.lanes.clear.calls = [] := by
    simp [Lanes.clear, Lanes.drop, Lanes.calls_fill]
  refine ⟨run.tail (.drift (.drop _ _)), desk, congrArg Lanes.clear lanes, threads, landed,
    List.nodup_nil, ?_, ?_⟩
  · intro call called
    change call ∈ s.lanes.clear.calls at called
    rw [nobody] at called
    cases called
  · intro r none_left
    cases none_left

variable (starts : first.lanes.Limited width deadline)
include starts

theorem Mirrors.limited (mirrors : Mirrors first purposes s site) :
    site.lanes.Limited width deadline := by
  rw [← mirrors.lanes]
  exact mirrors.run.limited starts

/-- An operation that calls nobody is done at once. -/
theorem Mirrors.work (mirrors : Mirrors first purposes s site) {operation : Operation}
    (silent : ∀ ticket trace, Thread.launches ticket
      ⟨operation, trace, .done (operation.work.perform site.desk).1⟩ = []) :
    ∃ s', Mirrors first purposes s' (site.work operation.work).2 := by
  have busy := (mirrors.run.limited starts).busy
  obtain ⟨trace, later⟩ := run_begin busy mirrors.fresh operation
  rw [mirrors.desk, silent, Lanes.enqueue_nil busy] at later
  obtain ⟨run, desk, lanes, threads, landed, distinct, known, rounds⟩ := mirrors
  refine ⟨_, (run.trans later).tail (.quit rfl), rfl, lanes, ?_, landed, distinct, known, ?_⟩
  · rw [List.append_nil]
    exact threads
  · intro r among
    obtain ⟨left, operation', trace', waiting, thread, calls⟩ := rounds r among
    exact ⟨left, operation', trace', waiting, List.mem_append_left _ thread, calls⟩

/-- An operation decides whom to call, and its round begins. -/
theorem Mirrors.launch (mirrors : Mirrors first purposes s site) {operation : Operation}
    {purpose : Purpose} {members : List Member} {d : Desk κ}
    (decides : operation.work.perform site.desk = (.calling purpose members [], d))
    (kind : CallKind) :
    ∃ s' trace,
      Mirrors first (Function.update purposes site.nextTicket purpose) s'
          (({ site with desk := d } : Site κ σ).launch kind members purpose.errand).2 ∧
        (site.nextTicket, ⟨operation, trace, .done (.calling purpose members [])⟩) ∈
          s'.threads := by
  obtain ⟨trace, later⟩ := run_begin (mirrors.run.limited starts).busy mirrors.fresh operation
  rw [mirrors.desk, decides] at later
  let calls : List Call := members.map fun m => ⟨site.nextTicket, m, purpose.errand⟩
  have ours : ∀ call ∈ calls, call.ticket = site.nextTicket := Site.ticket_of_launched rfl
  have older : ∀ r ∈ site.rounds, r.ticket < site.nextTicket :=
    fun r among => ticket_lt mirrors.threads (mirrors.rounds r among).2
  refine ⟨_, trace, ⟨mirrors.run.trans later, rfl, ?_, ?_, ?_, ?_, ?_, ?_⟩,
    List.mem_append_right _ List.mem_cons_self⟩
  · exact congrArg (fun l : Lanes σ => l.enqueue calls) mirrors.lanes
  · intro e inside
    rcases List.mem_append.mp inside with before | new
    · exact Nat.lt_succ_of_lt (mirrors.threads e before)
    · rw [List.mem_singleton.mp new]
      exact Nat.lt_succ_self _
  · exact fun e inside => Nat.lt_succ_of_lt (mirrors.landed e inside)
  · exact Site.nodup_launch mirrors.distinct older kind members purpose.errand
  · intro call called
    change call ∈ (s.lanes.enqueue calls).calls at called
    rw [mirrors.lanes] at called
    change call ∈ (site.launch kind members purpose.errand).2.lanes.calls at called
    rcases Site.mem_calls_launch.mp called with before | ⟨m, asked, rfl⟩
    · rw [← mirrors.lanes] at before
      obtain ⟨r, among, mine⟩ := mirrors.known call before
      exact ⟨r, Site.mem_launch.mpr (Or.inl among), mine⟩
    · exact ⟨_, Site.mem_launch.mpr (Or.inr ⟨List.ne_nil_of_mem asked, rfl⟩), rfl⟩
  · intro r inside
    rcases Site.mem_launch.mp inside with among | ⟨asked, rfl⟩
    · obtain ⟨left, waits⟩ := mirrors.rounds r among
      rw [Function.update_of_ne (Nat.ne_of_lt (older r among))]
      refine ⟨left, waits.beside (fun call launched => ?_) _ _⟩
      rw [ours call launched]
      exact Nat.ne_of_gt (older r among)
    · rw [Function.update_self]
      have some_left : members.length ≠ 0 := fun none_left =>
        asked (List.length_eq_zero_iff.mp none_left)
      refine ⟨some_left, operation, trace, members, List.mem_append_right _ List.mem_cons_self, rfl,
        ?_⟩
      change ((s.lanes.enqueue calls).callsOf site.nextTicket).Perm calls
      rw [Lanes.callsOf_enqueue_new mirrors.fresh.calls ours]

/-- A round that is waited for ends, and so does the waiting of its operation. -/
theorem Mirrors.awaitWith (mirrors : Mirrors first purposes s site) (roomy : 0 < width) {r : Round}
    (among : r ∈ site.rounds) {fuel : Nat} (enough : site.lanes.calls.length ≤ fuel) :
    ∃ s' operation trace, Mirrors first purposes s' (site.awaitWith r.ticket fuel).2 ∧
      (r.ticket, ⟨operation, trace,
        .done (.calling (purposes r.ticket) [] (site.awaitWith r.ticket fuel).1)⟩) ∈ s'.threads := by
  induction fuel generalizing s site r with
  | zero =>
    obtain ⟨some_left, waits⟩ := mirrors.rounds r among
    have busy := waits.busy some_left
    rw [mirrors.lanes] at busy
    exact absurd (List.length_eq_zero_iff.mp (Nat.le_zero.mp enough)) busy
  | succ fuel ih =>
    obtain ⟨some_left, waits⟩ := mirrors.rounds r among
    have busy := waits.busy some_left
    rw [mirrors.lanes] at busy
    obtain ⟨landing, lands, count⟩ :=
      Lanes.landNext?_of_busy ((mirrors.limited starts).flowing roomy) busy
    obtain ⟨s', after, noted⟩ := mirrors.land lands
    have fewer : landing.lanes.calls.length ≤ fuel := by omega
    -- the round goes on unless it is the one that has ended
    have goes_on : (r.note landing.call landing.verdict).left ≠ 0 →
        ∃ s' operation trace,
          Mirrors first purposes s' ((site.landed landing).awaitWith r.ticket fuel).2 ∧
            (r.ticket, ⟨operation, trace, .done (.calling (purposes r.ticket) []
              ((site.landed landing).awaitWith r.ticket fuel).1)⟩) ∈ s'.threads := by
      intro left
      have later := ih after (Site.mem_landed.mpr ⟨r, among, rfl, left⟩) fewer
      rwa [Round.ticket_note] at later
    rw [Site.awaitWith, Site.landNext?_eq, lands, Option.map_some]
    cases finished : site.completed? landing with
    | none => exact goes_on (Site.left_of_completed?_none finished among)
    | some last =>
      obtain ⟨none_left, r', among', own, rfl⟩ :=
        Site.of_completed? (fun r among => (mirrors.rounds r among).1) finished
      dsimp only
      rw [Round.ticket_note]
      split
      · rename_i same
        have eq := List.inj_on_of_nodup_map mirrors.distinct among' among same
        subst eq
        obtain ⟨operation, trace, waiting, thread, count, _⟩ := noted r' among'
        rw [none_left, List.length_eq_zero_iff] at count
        rw [count, Round.ticket_note] at thread
        exact ⟨s', operation, trace, after, thread⟩
      · rename_i differ
        refine goes_on ?_
        rw [Round.note_of_ne fun eq => differ (own.trans eq.symm)]
        exact some_left

/-- An operation that makes calls hears of all of them. -/
theorem Mirrors.call (mirrors : Mirrors first purposes s site) (roomy : 0 < width)
    {operation : Operation} {purpose : Purpose} {members : List Member} {d : Desk κ}
    (decides : operation.work.perform site.desk = (.calling purpose members [], d))
    (kind : CallKind) :
    ∃ s' purposes' operation trace,
      Mirrors first purposes' s'
          (({ site with desk := d } : Site κ σ).call kind members purpose.errand).2 ∧
        (site.nextTicket, ⟨operation, trace, .done (.calling purpose []
          (({ site with desk := d } : Site κ σ).call kind members purpose.errand).1)⟩) ∈
            s'.threads := by
  obtain ⟨s', trace, launched, thread⟩ := mirrors.launch starts decides kind
  simp only [Site.call]
  split
  · rename_i nobody
    rw [List.isEmpty_iff] at nobody
    subst nobody
    exact ⟨s', _, operation, trace, launched, thread⟩
  · rename_i somebody
    rw [List.isEmpty_iff] at somebody
    have among : ⟨site.nextTicket, kind, members.length, []⟩ ∈
        (({ site with desk := d } : Site κ σ).launch kind members purpose.errand).2.rounds :=
      Site.mem_launch.mpr (Or.inr ⟨somebody, rfl⟩)
    obtain ⟨s'', operation', trace', after, heard⟩ := launched.awaitWith starts roomy among
      (Nat.le_of_eq (Lanes.length_calls _))
    rw [Function.update_self] at heard
    exact ⟨s'', _, operation', trace', after, heard⟩

/-- An operation that has heard of all its calls concludes. -/
theorem Mirrors.conclude (mirrors : Mirrors first purposes s site) {ticket : Nat}
    {operation : Operation} {trace : List Event} {purpose : Purpose} {ended : List Ended}
    (thread : (ticket, ⟨operation, trace, .done (.calling purpose [] ended)⟩) ∈ s.threads)
    (silent : ∀ trace, Thread.launches ticket
      ⟨operation, trace, .done ((purpose.conclude ended).perform site.desk).1⟩ = []) :
    ∃ s', Mirrors first purposes s' (site.work (purpose.conclude ended)).2 := by
  have busy := (mirrors.run.limited starts).busy
  obtain ⟨run, desk, lanes, threads, landed, distinct, known, rounds⟩ := mirrors
  obtain ⟨front, back, split⟩ := List.append_of_mem thread
  obtain ⟨trace', later⟩ := run_perform busy ticket operation front back s.landed
    (purpose.conclude ended) trace s.desk
  rw [desk, silent, Lanes.enqueue_nil busy, ← desk] at later
  have bound := threads _ thread
  have concluded := Relation.ReflTransGen.head
    (Step.move split (.conclude s.desk operation trace purpose ended)) later
  rw [desk] at concluded
  refine ⟨_, run.trans concluded, rfl, lanes, ?_, landed, distinct, known, ?_⟩
  · intro e inside
    rcases mem_of_replaced inside _ with rfl | other
    · exact bound
    · exact threads e (split ▸ other)
  · intro r among
    obtain ⟨left, operation', trace'', waiting, thread', count, calls⟩ := rounds r among
    refine ⟨left, operation', trace'', waiting, ?_, count, calls⟩
    rcases mem_of_replaced (split ▸ thread') _ with eq | other
    · -- nothing is waited for any more in the thread that concludes
      cases eq
      exact absurd count.symm left
    · exact other

end Following

end Station

end OrderCluster.Interleaving
