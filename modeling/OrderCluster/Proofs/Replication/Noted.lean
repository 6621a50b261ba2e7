import OrderCluster.Proofs.Replication.Rounds

/-!
# Rounds of calls as their peers see them

Peers that behave as they like, and beside them a record of every call that set out and of every
call that arrived. What a round of calls asks, and what it is told, can be read off the record: each
call of the round sets out once, in the order of the round, and it arrives if and only if it arrives
within the deadline.
-/

namespace OrderCluster.Replication

/-- A call that set out, and how long it takes to arrive. -/
structure Sent where
  member : Member
  asked : (method : Method) × method.Request
  delay : Nat

/-- A call that arrived, and how it was answered. -/
structure Heard where
  member : Member
  answer : (method : Method) × Except PeerError method.Response

/-- Peers, and the record of the calls to them, the oldest first. -/
structure Noted (σ : Type) where
  peers : σ
  sent : List Sent := []
  heard : List Heard := []

/-- A peer is not disturbed by the record. -/
instance {σ : Type} [Peers σ] : Peers (Noted σ) where
  depart n member method request :=
    let (departure, peers) := Peers.depart n.peers member method request
    (departure, { n with peers, sent := n.sent ++ [⟨member, ⟨method, request⟩, departure.delay⟩] })
  arrive n member departure method request :=
    let (answer, peers) := Peers.arrive n.peers member departure method request
    (answer, { n with peers, heard := n.heard ++ [⟨member, ⟨method, answer⟩⟩] })

/-- Whether a call that set out arrives within a deadline. -/
def Sent.inTime (deadline : Nat) (call : Sent) : Bool := call.delay ≤ deadline

/-- The peer and the orders of an answer to a request for orders. -/
def Heard.orders? : Heard → Option (NodeId × List Order)
  | ⟨member, ⟨.fetch, .ok (response : FetchResponse)⟩⟩ => some (member.id, response.orders)
  | _ => none

/-- The orders that the peers sent, in the order in which they arrived. -/
def Noted.answers {σ : Type} (n : Noted σ) : List (NodeId × List Order) :=
  n.heard.filterMap Heard.orders?

def Errand.asked : Errand → (method : Method) × method.Request
  | .fetch request => ⟨.fetch, request⟩
  | .accept request => ⟨.accept, request⟩

def Sent.wanted (call : Sent) : Member × (method : Method) × method.Request :=
  (call.member, call.asked)

/-- Who is asked what by a call of a round. -/
def Call.wanted (call : Call) : Member × (method : Method) × method.Request :=
  (call.member, call.errand.asked)

variable {σ : Type} [Peers σ]

theorem Errand.depart_noted (n : Noted σ) (member : Member) (errand : Errand) :
    (errand.depart n member).2.sent =
        n.sent ++ [⟨member, errand.asked, (errand.depart n member).1.delay⟩] ∧
      (errand.depart n member).2.heard = n.heard := by
  cases errand <;> exact ⟨rfl, rfl⟩

theorem Errand.arrive_noted (n : Noted σ) (member : Member) (departure : Departure)
    (errand : Errand) :
    ∃ heard : Heard, heard.member = member ∧
      (errand.arrive n member departure).2.sent = n.sent ∧
      (errand.arrive n member departure).2.heard = n.heard ++ [heard] ∧
      Sync.answers [(member.id, (errand.arrive n member departure).1)] =
        [heard].filterMap Heard.orders? := by
  cases errand with
  | fetch request =>
    refine ⟨_, rfl, rfl, rfl, ?_⟩
    change Sync.answers [(_, .ofFetch (Peers.arrive n.peers member departure .fetch request).1)] =
      [(⟨member, ⟨.fetch, (Peers.arrive n.peers member departure .fetch request).1⟩⟩ : Heard)
        ].filterMap Heard.orders?
    cases (Peers.arrive n.peers member departure .fetch request).1 <;> rfl
  | accept request =>
    refine ⟨_, rfl, rfl, rfl, ?_⟩
    change Sync.answers [(_, .ofAccept (Peers.arrive n.peers member departure .accept request).1)] = _
    cases (Peers.arrive n.peers member departure .accept request).1 with
    | error e => rfl
    | ok response =>
      simp only [Verdict.ofAccept]
      split <;> rfl

/-- What the record of a round says while the round is under way: the calls that set out are those
that do not wait, and the calls in time that set out are those that arrived and those on their
way. -/
structure Traced (calls : List Call) (limit : Nat) (l : Lanes (Noted σ)) (waiting : List Call)
    (ended : List Ended) : Prop where
  deadline : l.deadline = limit
  sent : l.peers.sent.map Sent.wanted ++ waiting.map Call.wanted = calls.map Call.wanted
  arrived : ((l.peers.sent.filter (Sent.inTime limit)).map Sent.member).Perm
    (l.peers.heard.map Heard.member ++
      (l.flights.filter fun f => !f.isLate limit).map (·.call.member))
  answers : Sync.answers ended = l.peers.answers

namespace Traced

variable {calls : List Call} {limit : Nat} {l : Lanes (Noted σ)} {ended : List Ended}

theorem depart {call : Call} {rest : List Call}
    (traced : Traced calls limit l (call :: rest) ended) :
    Traced calls limit (l.depart call) rest ended := by
  obtain ⟨sent, heard⟩ := call.errand.depart_noted l.peers call.member
  have same : (call.errand.depart l.peers call.member).2.answers = l.peers.answers := by
    rw [Noted.answers, heard, Noted.answers]
  constructor
  · exact traced.deadline
  · change (call.errand.depart l.peers call.member).2.sent.map Sent.wanted ++ _ = _
    rw [sent, ← traced.sent, List.map_append, List.append_assoc]
    rfl
  · change (((call.errand.depart l.peers call.member).2.sent.filter _).map _).Perm
      ((call.errand.depart l.peers call.member).2.heard.map _ ++
        ((l.flights ++ [(⟨call, l.now, (call.errand.depart l.peers call.member).1⟩ : Flight)]).filter
          _).map _)
    rw [sent, heard, List.filter_append, List.filter_append, List.map_append, List.map_append,
      ← List.append_assoc]
    refine traced.arrived.append ?_
    by_cases late : limit < (call.errand.depart l.peers call.member).1.delay
    · rw [List.filter_cons_of_neg (by simpa [Sent.inTime] using late),
        List.filter_cons_of_neg (by simpa [Flight.isLate] using late)]
      exact .refl _
    · rw [List.filter_cons_of_pos (by simpa [Sent.inTime] using late),
        List.filter_cons_of_pos (by simpa [Flight.isLate] using late)]
      exact .refl _
  · change _ = (call.errand.depart l.peers call.member).2.answers
    rw [same]
    exact traced.answers

theorem fill {waiting : List Call} (traced : Traced calls limit l waiting ended) :
    Traced calls limit (l.fill waiting) (l.fill waiting).waiting ended := by
  induction waiting generalizing l with
  | nil => exact ⟨traced.deadline, traced.sent, traced.arrived, traced.answers⟩
  | cons call rest ih =>
    rw [Lanes.fill]
    split
    · exact ⟨traced.deadline, traced.sent, traced.arrived, traced.answers⟩
    · exact ih traced.depart

omit [Peers σ] in
/-- Taking a flight out of the lanes parts it from the others. -/
theorem arrived_cons (traced : Traced calls limit l l.waiting ended) {f : Flight}
    {others : List Flight} (perm : l.flights.Perm (f :: others)) :
    ((l.peers.sent.filter (Sent.inTime limit)).map Sent.member).Perm
      (l.peers.heard.map Heard.member ++
        ((f :: others).filter fun f => !f.isLate limit).map (·.call.member)) :=
  traced.arrived.trans (((perm.filter _).map _).append_left _)

theorem land (traced : Traced calls limit l l.waiting ended) {f : Flight}
    {others : List Flight} (perm : l.flights.Perm (f :: others)) :
    Traced calls limit (l.land f others).lanes (l.land f others).lanes.waiting
      (ended ++ [(f.call.member.id, (l.land f others).verdict)]) := by
  have split := traced.arrived_cons perm
  rw [Lanes.land_eq]
  refine fill ?_
  by_cases late : f.isLate limit = true
  · have verdict : l.verdict f =
        (.failed (Peers.gaveUp f.call.member l.deadline), l.peers) := by
      rw [Lanes.verdict, traced.deadline, if_pos late]
    rw [verdict]
    rw [List.filter_cons_of_neg (by simp [late])] at split
    refine ⟨traced.deadline, traced.sent, split, ?_⟩
    rw [Sync.answers, List.filterMap_append, ← Sync.answers, traced.answers]
    exact List.append_nil _
  · have verdict : l.verdict f = f.call.errand.arrive l.peers f.call.member f.departure := by
      rw [Lanes.verdict, traced.deadline, if_neg late]
    obtain ⟨heard, member, sent_same, heard_more, answered⟩ :=
      f.call.errand.arrive_noted l.peers f.call.member f.departure
    rw [verdict]
    rw [List.filter_cons_of_pos (by simp [late])] at split
    constructor
    · exact traced.deadline
    · change (f.call.errand.arrive l.peers f.call.member f.departure).2.sent.map _ ++ _ = _
      rw [sent_same]
      exact traced.sent
    · change (((f.call.errand.arrive l.peers f.call.member f.departure).2.sent.filter _).map _).Perm
        ((f.call.errand.arrive l.peers f.call.member f.departure).2.heard.map _ ++ _)
      rw [sent_same, heard_more, List.map_append, List.append_assoc, List.map_singleton, member]
      exact split
    · change _ = (f.call.errand.arrive l.peers f.call.member f.departure).2.answers
      rw [Noted.answers, heard_more, List.filterMap_append, ← answered, Sync.answers,
        List.filterMap_append, ← Sync.answers, traced.answers]
      rfl

end Traced

namespace Site

variable {κ : Type} [Catalog κ]

/-- A site whose calls are recorded from now on. -/
def noted (s : Site κ σ) : Site κ (Noted σ) :=
  { s with lanes := { s.lanes with peers := { peers := s.lanes.peers } } }

omit [Peers σ] [Catalog κ] in
theorem Quiet.noted {s : Site κ σ} (quiet : s.Quiet) : s.noted.Quiet :=
  ⟨⟨quiet.flowing.some_lane, quiet.flowing.no_idle⟩, quiet.no_calls, quiet.no_rounds⟩

/-- The record of a round: every call of it set out once, in their order, and those that arrive
within the deadline arrived, each once. What the round was told is what the peers sent. -/
theorem noted_call {s : Site κ σ} (quiet : s.Quiet) (kind : CallKind) (members : List Member)
    (errand : Errand) :
    ((s.noted.call kind members errand).2.lanes.peers.sent.map Sent.wanted =
        members.map fun member => (member, errand.asked)) ∧
      (((s.noted.call kind members errand).2.lanes.peers.sent.filter
          (Sent.inTime s.lanes.deadline)).map Sent.member).Perm
        ((s.noted.call kind members errand).2.lanes.peers.heard.map Heard.member) ∧
      Sync.answers (s.noted.call kind members errand).1 =
        (s.noted.call kind members errand).2.lanes.peers.answers := by
  obtain ⟨no_flights, _⟩ := List.append_eq_nil_iff.mp quiet.no_calls
  have begun : Traced (s.noted.planned members errand) s.lanes.deadline s.noted.lanes
      (s.noted.planned members errand) [] := by
    refine ⟨rfl, rfl, ?_, rfl⟩
    change List.Perm [] ([] ++ (s.lanes.flights.filter _).map _)
    rw [List.map_eq_nil_iff.mp no_flights]
    exact .refl _
  obtain ⟨traced, none_left⟩ := call_lands
    (J := fun l ended _ => Traced (s.noted.planned members errand) s.lanes.deadline l l.waiting
      ended)
    (fun perm traced => traced.land perm) quiet.noted kind members errand begun.fill
  obtain ⟨no_flights, no_waiting⟩ := List.append_eq_nil_iff.mp none_left
  refine ⟨?_, ?_, traced.answers⟩
  · have sent := traced.sent
    rw [no_waiting, List.map_nil, List.append_nil] at sent
    rw [sent, planned, List.map_map]
    rfl
  · have arrived := traced.arrived
    rw [List.map_eq_nil_iff.mp no_flights] at arrived
    simpa using arrived

end Site

end OrderCluster.Replication
