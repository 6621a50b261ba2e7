import Mathlib.Data.List.Nodup
import OrderCluster.Proofs.Replication.Limiter

/-!
# Whose call a call is

Every call bears the ticket of its round, and no two rounds of a site have the same ticket. A
landing takes one call from its own round and none from the others; a launch brings a round with a
ticket that no call bore before.
-/

namespace OrderCluster

namespace Replication

namespace Lanes

variable {σ : Type} [Peers σ]

/-- The calls of one round that have not ended. -/
def callsOf (l : Lanes σ) (ticket : Nat) : List Call :=
  l.calls.filter fun call => call.ticket = ticket

omit [Peers σ] in
theorem mem_callsOf {l : Lanes σ} {ticket : Nat} {call : Call} :
    call ∈ l.callsOf ticket ↔ call ∈ l.calls ∧ call.ticket = ticket := by
  rw [callsOf, List.mem_filter, decide_eq_true_eq]

theorem callsOf_enqueue (l : Lanes σ) (calls : List Call) (ticket : Nat) :
    (l.enqueue calls).callsOf ticket =
      l.callsOf ticket ++ calls.filter fun call => call.ticket = ticket := by
  rw [callsOf, enqueue, calls_fill, ← List.append_assoc, List.filter_append]
  rfl

/-- Calls that are taken in for one round are no calls of another. -/
theorem callsOf_enqueue_of_ne (l : Lanes σ) {calls : List Call} {ticket : Nat}
    (others : ∀ call ∈ calls, call.ticket ≠ ticket) :
    (l.enqueue calls).callsOf ticket = l.callsOf ticket := by
  have none_more : calls.filter (fun call => call.ticket = ticket) = [] := by
    refine List.filter_eq_nil_iff.mpr fun call launched => ?_
    rw [decide_eq_true_eq]
    exact others call launched
  rw [callsOf_enqueue, none_more, List.append_nil]

/-- The first calls with a ticket are all that bear it. -/
theorem callsOf_enqueue_new {l : Lanes σ} {calls : List Call} {ticket : Nat}
    (unused : ∀ call ∈ l.calls, call.ticket ≠ ticket)
    (ours : ∀ call ∈ calls, call.ticket = ticket) : (l.enqueue calls).callsOf ticket = calls := by
  have none_before : l.callsOf ticket = [] := by
    refine List.filter_eq_nil_iff.mpr fun call called => ?_
    rw [decide_eq_true_eq]
    exact unused call called
  have all : calls.filter (fun call => call.ticket = ticket) = calls :=
    List.filter_eq_self.mpr fun call launched => decide_eq_true (ours call launched)
  rw [callsOf_enqueue, none_before, all, List.nil_append]

/-- A landing ends one call of its round. -/
theorem callsOf_land {l : Lanes σ} {f : Flight} {others : List Flight}
    (perm : l.flights.Perm (f :: others)) :
    (l.callsOf f.call.ticket).Perm (f.call :: (l.land f others).lanes.callsOf f.call.ticket) := by
  have calls := (perm_land perm).filter fun call => call.ticket = f.call.ticket
  rwa [List.filter_cons, if_pos (decide_eq_true rfl)] at calls

/-- A landing leaves the calls of other rounds alone. -/
theorem callsOf_land_of_ne {l : Lanes σ} {f : Flight} {others : List Flight}
    (perm : l.flights.Perm (f :: others)) {ticket : Nat} (other : f.call.ticket ≠ ticket) :
    (l.callsOf ticket).Perm ((l.land f others).lanes.callsOf ticket) := by
  have calls := (perm_land perm).filter fun call => call.ticket = ticket
  rwa [List.filter_cons, if_neg (by rwa [decide_eq_true_eq])] at calls

/-- Where each call of a round goes to one of several members, a landing leaves calls to the
others. -/
theorem waiting_land {l : Lanes σ} {f : Flight} {others : List Flight}
    (perm : l.flights.Perm (f :: others)) {members : List Member} {errand : Errand}
    (calls : (l.callsOf f.call.ticket).Perm (members.map fun m => ⟨f.call.ticket, m, errand⟩)) :
    f.call.member ∈ members ∧ f.call.errand = errand ∧
      ((l.land f others).lanes.callsOf f.call.ticket).Perm
        ((members.erase f.call.member).map fun m => ⟨f.call.ticket, m, errand⟩) := by
  have left := (callsOf_land perm).symm.trans calls
  obtain ⟨m, waits, called⟩ := List.mem_map.mp (left.mem_iff.mp List.mem_cons_self)
  have member : f.call.member = m := by rw [← called]
  subst member
  refine ⟨waits, by rw [← called], ?_⟩
  have erased := (List.perm_cons_erase waits).map fun m => (⟨f.call.ticket, m, errand⟩ : Call)
  rw [List.map_cons, called] at erased
  exact (left.trans erased).cons_inv

end Lanes

theorem Round.ticket_note (call : Call) (verdict : Verdict) (r : Round) :
    (r.note call verdict).ticket = r.ticket := by
  unfold note
  split <;> rfl

theorem Round.note_of_ne {call : Call} {r : Round} (other : r.ticket ≠ call.ticket)
    (verdict : Verdict) : r.note call verdict = r := if_neg other

theorem Round.note_of_eq {call : Call} {r : Round} (mine : r.ticket = call.ticket)
    (verdict : Verdict) :
    r.note call verdict =
      { r with left := r.left - 1, ended := r.ended ++ [(call.member.id, verdict)] } := if_pos mine

namespace Site

variable {κ σ : Type} {site : Site κ σ} {landing : Landing σ}

/-- The rounds after a landing are those of before that are not over. -/
theorem mem_landed {noted : Round} :
    noted ∈ (site.landed landing).rounds ↔
      ∃ r ∈ site.rounds, r.note landing.call landing.verdict = noted ∧ noted.left ≠ 0 := by
  simp only [landed, List.mem_filter, List.mem_map, decide_eq_true_eq]
  constructor
  · rintro ⟨⟨r, among, rfl⟩, left⟩
    exact ⟨r, among, rfl, left⟩
  · rintro ⟨r, among, rfl, left⟩
    exact ⟨⟨r, among, rfl⟩, left⟩

/-- After a landing that completes no round, every round goes on. -/
theorem left_of_completed?_none (finished : site.completed? landing = none) {r : Round}
    (among : r ∈ site.rounds) : (r.note landing.call landing.verdict).left ≠ 0 := by
  have not_over := List.find?_eq_none.mp finished _ (List.mem_map_of_mem among)
  simpa using not_over

/-- A landing completes no round but its own. -/
theorem of_completed? (left : ∀ r ∈ site.rounds, r.left ≠ 0) {last : Round}
    (finished : site.completed? landing = some last) :
    last.left = 0 ∧ ∃ r ∈ site.rounds,
      r.ticket = landing.call.ticket ∧ last = r.note landing.call landing.verdict := by
  have none_left : last.left = 0 := by simpa using List.find?_some finished
  obtain ⟨r, among, rfl⟩ := List.mem_map.mp (List.mem_of_find?_eq_some finished)
  refine ⟨none_left, r, among, Decidable.byContradiction fun other => ?_, rfl⟩
  rw [Round.note_of_ne other] at none_left
  exact left r among none_left

theorem ticket_of_launched {members : List Member} {errand : Errand} {calls : List Call}
    (launched : calls = members.map fun m => ⟨site.nextTicket, m, errand⟩) :
    ∀ call ∈ calls, call.ticket = site.nextTicket := by
  simp [launched]

section Launch

variable [Peers σ] {kind : CallKind} {members : List Member} {errand : Errand}

/-- A launch adds a round if there is anybody to call. -/
theorem rounds_launch :
    (site.launch kind members errand).2.rounds =
      if members = [] then site.rounds
      else site.rounds ++ [⟨site.nextTicket, kind, members.length, []⟩] := by
  cases members with
  | nil => rfl
  | cons m rest => simp [launch]

theorem mem_launch {r : Round} :
    r ∈ (site.launch kind members errand).2.rounds ↔
      r ∈ site.rounds ∨ members ≠ [] ∧ r = ⟨site.nextTicket, kind, members.length, []⟩ := by
  rw [rounds_launch]
  by_cases nobody : members = []
  · simp [nobody]
  · simp [nobody]

theorem mem_calls_launch {call : Call} :
    call ∈ (site.launch kind members errand).2.lanes.calls ↔
      call ∈ site.lanes.calls ∨ ∃ m ∈ members, ⟨site.nextTicket, m, errand⟩ = call := by
  change call ∈ (site.lanes.enqueue _).calls ↔ _
  rw [Lanes.enqueue, Lanes.calls_fill, ← List.append_assoc, List.mem_append, List.mem_map]
  rfl

/-- The calls of a launch are those of its own round. -/
theorem callsOf_launch (unused : ∀ call ∈ site.lanes.calls, call.ticket ≠ site.nextTicket) :
    (site.launch kind members errand).2.lanes.callsOf site.nextTicket =
      members.map fun m => ⟨site.nextTicket, m, errand⟩ :=
  Lanes.callsOf_enqueue_new unused (ticket_of_launched rfl)

theorem callsOf_launch_of_ne {ticket : Nat} (other : ticket ≠ site.nextTicket) :
    (site.launch kind members errand).2.lanes.callsOf ticket = site.lanes.callsOf ticket := by
  apply Lanes.callsOf_enqueue_of_ne
  intro call launched
  rw [ticket_of_launched rfl call launched]
  exact other.symm

end Launch

theorem nodup_launch [Peers σ] (distinct : (site.rounds.map Round.ticket).Nodup)
    (older : ∀ r ∈ site.rounds, r.ticket < site.nextTicket) (kind : CallKind)
    (members : List Member) (errand : Errand) :
    ((site.launch kind members errand).2.rounds.map Round.ticket).Nodup := by
  cases members with
  | nil => exact distinct
  | cons m rest =>
    change ((site.rounds ++ [_]).map Round.ticket).Nodup
    rw [List.map_append, List.nodup_append]
    refine ⟨distinct, List.nodup_singleton _, fun ticket before ticket' new => ?_⟩
    obtain ⟨r, among, rfl⟩ := List.mem_map.mp before
    rw [List.mem_singleton.mp new]
    exact Nat.ne_of_lt (older r among)

theorem tickets_landed :
    ((site.landed landing).rounds.map Round.ticket).Sublist (site.rounds.map Round.ticket) := by
  have kept : (site.rounds.map (Round.note landing.call landing.verdict)).map Round.ticket =
      site.rounds.map Round.ticket := by
    rw [List.map_map]
    exact List.map_congr_left fun r _ => Round.ticket_note _ _ r
  rw [← kept]
  exact List.filter_sublist.map Round.ticket

end Site

end Replication

end OrderCluster
