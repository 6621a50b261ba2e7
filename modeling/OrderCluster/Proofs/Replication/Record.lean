import OrderCluster.Proofs.Replication.Noted
import OrderCluster.Proofs.Replication.Sync

/-!
# The record of a round

Peers are not disturbed by being recorded: a site whose calls are recorded does what it would do
without the record. How the calls of a round ended can be told from its record. A call that arrives
ends as it is answered; a call that outlasts its deadline is given up, and nothing else ends.
-/

namespace OrderCluster.Replication

variable {κ σ : Type} [Catalog κ] [Peers σ]

/-! ## Without the record -/

/-- Lanes without the record of their calls. -/
def Lanes.bare (l : Lanes (Noted σ)) : Lanes σ := { l with peers := l.peers.peers }

/-- A landing without the record of the calls. -/
def Landing.bare (landing : Landing (Noted σ)) : Landing σ :=
  ⟨landing.call, landing.verdict, landing.lanes.bare⟩

namespace Lanes

theorem bare_depart (l : Lanes (Noted σ)) (call : Call) :
    (l.depart call).bare = l.bare.depart call := by
  obtain ⟨ticket, member, errand⟩ := call
  cases errand <;> rfl

theorem bare_fill (l : Lanes (Noted σ)) (calls : List Call) :
    (l.fill calls).bare = l.bare.fill calls := by
  induction calls generalizing l with
  | nil => rfl
  | cons call rest ih =>
    rw [fill, fill]
    by_cases full : l.free = 0
    · rw [if_pos full, if_pos (show l.bare.free = 0 from full)]
      rfl
    · rw [if_neg full, if_neg (show ¬ l.bare.free = 0 from full), ih, bare_depart]

theorem bare_land (l : Lanes (Noted σ)) (f : Flight) (others : List Flight) :
    (l.land f others).bare = l.bare.land f others := by
  have verdict : ((l.verdict f).1, (l.verdict f).2.peers) = l.bare.verdict f := by
    obtain ⟨⟨ticket, member, errand⟩, departed, departure⟩ := f
    unfold Lanes.verdict
    change (_ : Verdict × σ) = if Flight.isLate _ l.deadline then _ else _
    split
    · rfl
    · cases errand <;> rfl
  rw [land_eq, land_eq, ← verdict]
  simp only [Landing.bare, bare_fill]
  rfl

theorem bare_landNext? (l : Lanes (Noted σ)) (horizon : Option Nat) :
    l.bare.landNext? horizon = (l.landNext? horizon).map Landing.bare := by
  have deadline : l.bare.deadline = l.deadline := rfl
  have flights : l.bare.flights = l.flights := rfl
  simp only [landNext?, deadline, flights]
  cases Flight.earliest? l.deadline l.flights with
  | none => rfl
  | some next =>
    obtain ⟨f, others⟩ := next
    dsimp only
    split
    · rw [Option.map_some, bare_land]
    · rfl

end Lanes

namespace Site

/-- A site without the record of its calls. -/
def bare (s : Site κ (Noted σ)) : Site κ σ := { s with lanes := s.lanes.bare }

theorem bare_landNext? (s : Site κ (Noted σ)) (horizon : Option Nat) :
    s.bare.landNext? horizon = (s.landNext? horizon).map fun (r, s) => (r, s.bare) := by
  rw [landNext?_eq, landNext?_eq, Option.map_map]
  change (s.lanes.bare.landNext? horizon).map _ = _
  rw [Lanes.bare_landNext?, Option.map_map]
  rfl

theorem bare_awaitWith (ticket fuel : Nat) (s : Site κ (Noted σ)) :
    s.bare.awaitWith ticket fuel =
      ((s.awaitWith ticket fuel).1, (s.awaitWith ticket fuel).2.bare) := by
  induction fuel generalizing s with
  | zero => rfl
  | succ fuel ih =>
    rw [awaitWith, awaitWith, bare_landNext?]
    cases s.landNext? none with
    | none => rfl
    | some next =>
      obtain ⟨finished, s'⟩ := next
      cases finished with
      | none => exact ih s'
      | some r =>
        by_cases mine : r.ticket = ticket
        · simp [mine]
        · simp [mine, ih]

theorem bare_call (s : Site κ (Noted σ)) (kind : CallKind) (members : List Member)
    (errand : Errand) :
    s.bare.call kind members errand =
      ((s.call kind members errand).1, (s.call kind members errand).2.bare) := by
  have lanes := Lanes.bare_fill s.lanes (s.lanes.waiting ++ s.planned members errand)
  have launched : (s.bare.launch kind members errand).2 =
      (s.launch kind members errand).2.bare :=
    congrArg (fun lanes => { (s.bare.launch kind members errand).2 with lanes }) lanes.symm
  have load : (s.launch kind members errand).2.bare.lanes.load =
      (s.launch kind members errand).2.lanes.load := rfl
  by_cases nobody : members.isEmpty = true
  · simp [call, nobody, launched]
  · simp only [call, nobody, Bool.false_eq_true, if_false, launched, bare_awaitWith, load]
    rfl

/-- Recording its calls changes nothing about what a push does. -/
theorem fanOut_noted (s : Site κ σ) (order : Order) :
    s.fanOut order = ((s.noted.fanOut order).1, (s.noted.fanOut order).2.bare) := by
  have round := s.noted.bare_call .accept s.desk.node.registry.activePeers
    (.accept ⟨order, s.desk.node.registry.selfId⟩)
  exact congrArg (fun called : List Ended × Site κ σ => (FanOut.report called.1, called.2)) round

/-- Recording its calls changes nothing about what a sync does. -/
theorem sync_noted (s : Site κ σ) : s.sync = (s.noted.sync.1, s.noted.sync.2.bare) := by
  cases outage : s.desk.node.storage.outage .maxNumber with
  | some cause =>
    have begun : Sync.begin.perform s.desk = (.error cause, s.desk) := by
      simp only [Sync.perform_begin, Storage.read, outage]
    simp only [sync, work, noted, begun]
    rfl
  | none =>
    let asks : Sync := ⟨s.desk.node.registry.selfId, s.desk.node.registry.activePeers,
      s.desk.node.storage.log.maxNumber⟩
    have begun : s.work Sync.begin = (.ok asks, s) := by
      simp only [work, Sync.perform_begin, Storage.read, outage, asks]
    have begun_noted : s.noted.work Sync.begin = (.ok asks, s.noted) := by
      simp only [work, Sync.perform_begin, Storage.read, noted, outage, asks]
    have round : s.call .fetch asks.peers asks.errand = _ :=
      s.noted.bare_call .fetch asks.peers asks.errand
    simp only [sync, begun, begun_noted, round]
    rfl

end Site

/-! ## How calls ended -/

/-- How a replication call ended that was answered like this. -/
def Heard.ended? : Heard → Option Ended
  | ⟨member, ⟨.fetch, answer⟩⟩ => some (member.id, .ofFetch answer)
  | ⟨member, ⟨.accept, answer⟩⟩ => some (member.id, .ofAccept answer)
  | _ => none

/-- How a call to a member ended that was given up. -/
def givenUp (deadline : Nat) (member : Member) : Ended :=
  (member.id, .failed (Peers.gaveUp member deadline))

theorem Errand.ended_arrive (n : Noted σ) (member : Member) (departure : Departure)
    (errand : Errand) :
    (errand.arrive n member departure).2.heard.filterMap Heard.ended? =
      n.heard.filterMap Heard.ended? ++ [(member.id, (errand.arrive n member departure).1)] := by
  cases errand <;> exact List.filterMap_append

/-- While a round is under way, the calls that ended and those on their way that will be given up
are the calls that were heard and those that set out on too long a way. -/
structure Told (limit : Nat) (l : Lanes (Noted σ)) (ended : List Ended) : Prop where
  deadline : l.deadline = limit
  told : (ended ++ (l.flights.filter (·.isLate limit)).map fun f => givenUp limit f.call.member).Perm
    (l.peers.heard.filterMap Heard.ended? ++
      (l.peers.sent.filter fun c => !c.inTime limit).map fun c => givenUp limit c.member)

namespace Told

variable {limit : Nat} {l : Lanes (Noted σ)} {ended : List Ended}

theorem depart (told : Told limit l ended) (call : Call) : Told limit (l.depart call) ended := by
  obtain ⟨sent, heard⟩ := call.errand.depart_noted l.peers call.member
  refine ⟨told.deadline, ?_⟩
  simp only [Lanes.depart, sent, heard, List.filter_append, List.map_append, ← List.append_assoc]
  apply told.told.append
  by_cases late : limit < (call.errand.depart l.peers call.member).1.delay
  · simp [Flight.isLate, Sent.inTime, late]
  · simp [Flight.isLate, Sent.inTime, late]

theorem fill (told : Told limit l ended) (waiting : List Call) :
    Told limit (l.fill waiting) ended := by
  induction waiting generalizing l with
  | nil => exact ⟨told.deadline, told.told⟩
  | cons call rest ih =>
    rw [Lanes.fill]
    split
    · exact ⟨told.deadline, told.told⟩
    · exact ih (told.depart call)

theorem land (told : Told limit l ended) {f : Flight} {others : List Flight}
    (perm : l.flights.Perm (f :: others)) :
    Told limit (l.land f others).lanes
      (ended ++ [(f.call.member.id, (l.land f others).verdict)]) := by
  have before := (((perm.filter (·.isLate limit)).map
    fun f => givenUp limit f.call.member).append_left ended).symm.trans told.told
  rw [Lanes.land_eq]
  apply fill
  refine ⟨told.deadline, ?_⟩
  by_cases late : f.isLate limit = true
  · have verdict : l.verdict f = (.failed (Peers.gaveUp f.call.member l.deadline), l.peers) := by
      rw [Lanes.verdict, told.deadline, if_pos late]
    rw [verdict, told.deadline]
    simpa [late, givenUp] using before
  · have verdict : l.verdict f = f.call.errand.arrive l.peers f.call.member f.departure := by
      rw [Lanes.verdict, told.deadline, if_neg late]
    obtain ⟨_, _, same, _⟩ := f.call.errand.arrive_noted l.peers f.call.member f.departure
    rw [verdict, Errand.ended_arrive, same]
    simp only [List.append_assoc, List.singleton_append]
    apply List.perm_middle.trans
    apply List.Perm.trans _ List.perm_middle.symm
    simpa [late] using before

end Told

/-- How the calls of a round ended, told by its record: each call that was heard ended as it was
answered, and each that set out on too long a way was given up. -/
theorem Site.told_noted {s : Site κ σ} (quiet : s.Quiet) (kind : CallKind) (members : List Member)
    (errand : Errand) :
    (s.noted.call kind members errand).1.Perm
      ((s.noted.call kind members errand).2.lanes.peers.heard.filterMap Heard.ended? ++
        ((s.noted.call kind members errand).2.lanes.peers.sent.filter fun c =>
          !c.inTime s.lanes.deadline).map fun c => givenUp s.lanes.deadline c.member) := by
  obtain ⟨no_flights, _⟩ := List.append_eq_nil_iff.mp quiet.no_calls
  have begun : Told s.lanes.deadline s.noted.lanes [] := by
    refine ⟨rfl, ?_⟩
    change ([] ++ (s.lanes.flights.filter _).map _).Perm []
    simp [List.map_eq_nil_iff.mp no_flights]
  obtain ⟨ended, none_left⟩ := call_lands
    (J := fun l ended _ => Told s.lanes.deadline l ended) (fun perm told => told.land perm)
    quiet.noted kind members errand (begun.fill _)
  have landed := List.map_eq_nil_iff.mp (List.append_eq_nil_iff.mp none_left).1
  simpa [landed] using ended.told

end OrderCluster.Replication
