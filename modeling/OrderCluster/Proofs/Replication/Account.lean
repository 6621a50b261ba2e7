import Mathlib.Data.List.Nodup
import OrderCluster.Proofs.Registry
import OrderCluster.Proofs.Replication.Draining

/-!
# The account of a node's pushes

A node pushes orders in the background, lets time pass, and drains what is under way. Beside it an
account is kept of every push: whom it calls, and whether it ended or was abandoned. Each landing
keeps the account in order, and so does every operation that is made of landings.
-/

namespace OrderCluster.Replication

/-- The peers whose calls failed are believed offline. -/
def Marked (r : Registry) (ended : List Ended) : Prop :=
  ∀ e ∈ ended, e.2.isFailed = true → r.status? e.1 = some .offline

theorem status?_settled (kind : CallKind) (peer : NodeId) (verdict : Verdict) (d : Desk κ)
    (id : NodeId) :
    (settled kind peer verdict d).node.registry.status? id =
      if verdict.isFailed = true ∧ id = peer then
        (d.node.registry.status? peer).map fun _ => .offline
      else d.node.registry.status? id := by
  cases failed : verdict.isFailed
  · simp [settled, failed]
  · simp [settled, failed, Registry.status?_mark]

/-- What is believed offline stays so when calls are settled. -/
theorem Marked.settle {d : Desk κ} {ended : List Ended} (marked : Marked d.node.registry ended)
    (kind : CallKind) (peer : NodeId) (verdict : Verdict) :
    Marked (settled kind peer verdict d).node.registry ended := by
  intro e among failed
  have before := marked e among failed
  rw [status?_settled]
  split
  · rename_i same
    rw [← same.2, before]
    rfl
  · exact before

/-- A call that failed is noted when it is settled, if its peer is known. -/
theorem Marked.snoc {d : Desk κ} {ended : List Ended} (marked : Marked d.node.registry ended)
    (kind : CallKind) {peer : NodeId} (known : (d.node.registry.status? peer).isSome)
    (verdict : Verdict) :
    Marked (settled kind peer verdict d).node.registry (ended ++ [(peer, verdict)]) := by
  intro e among failed
  rcases List.mem_append.mp among with before | now
  · exact marked.settle kind peer verdict e before failed
  · obtain rfl := List.mem_singleton.mp now
    obtain ⟨status, eq⟩ := Option.isSome_iff_exists.mp known
    rw [status?_settled, if_pos ⟨failed, rfl⟩, eq]
    rfl

theorem isSome_settled {d : Desk κ} {id : NodeId} (known : (d.node.registry.status? id).isSome)
    (kind : CallKind) (peer : NodeId) (verdict : Verdict) :
    ((settled kind peer verdict d).node.registry.status? id).isSome := by
  rw [status?_settled]
  split
  · rename_i same
    rw [← same.2, Option.isSome_map]
    exact known
  · exact known

/-- The pushes of a node, from the first one on: whom each of them calls, which ended and how, and
which were abandoned, each with the number of the drain that did so. -/
structure Account (κ σ : Type) where
  site : Site κ σ
  spawned : List (Nat × List Member) := []
  finished : List Finish := []
  drains : Nat := 0
  abandoned : List (Nat × Nat) := []

/-- What is known of a push that was spawned: its calls that have ended, and those that have not, go
to its peers, and the peers whose calls failed are believed offline. -/
structure Reckoned (spawned : List (Nat × List Member)) (r : Registry) (ticket : Nat)
    (ended : List Ended) (calls : List Call) : Prop where
  everyone : ∃ members, (ticket, members) ∈ spawned ∧
    (ended.map Prod.fst ++ calls.map (·.member.id)).Perm (members.map Member.id)
  marked : Marked r ended

namespace Account

variable {κ σ : Type} [Catalog κ] [Peers σ]

def spawn (a : Account κ σ) (order : Order) : Account κ σ :=
  let members := a.site.desk.node.registry.activePeers
  { a with
    site := a.site.spawn order
    spawned := a.spawned ++ [(a.site.nextTicket, members)]
    finished := a.finished ++
      if members = [] then [⟨a.site.lanes.now, ⟨a.site.nextTicket, .accept, 0, []⟩⟩] else [] }

def advance (a : Account κ σ) (millis : Nat) : Account κ σ :=
  { a with
    site := a.site.advance millis
    finished := a.finished ++ a.site.finishesBy (a.site.lanes.now + millis) }

def drain (a : Account κ σ) (grace : Nat) : Account κ σ :=
  let horizon := a.site.lanes.now + grace
  { a with
    site := (a.site.drain grace).2
    finished := a.finished ++ a.site.finishesBy horizon
    drains := a.drains + 1
    abandoned := a.abandoned ++ (a.site.landAll horizon).rounds.map fun r => (a.drains, r.ticket) }

/-- What can happen to the account of a node. -/
inductive Step : Account κ σ → Account κ σ → Prop where
  | spawn (a : Account κ σ) (order : Order) : Step a (a.spawn order)
  /-- Somebody asks how many pushes are pending. -/
  | pending (a : Account κ σ) : Step a a
  | advance (a : Account κ σ) (millis : Nat) : Step a (a.advance millis)
  | drain (a : Account κ σ) (grace : Nat) : Step a (a.drain grace)
  /-- The node does something else, which does not touch its registry. -/
  | work (a : Account κ σ) (d : Desk κ) (same : d.node.registry = a.site.desk.node.registry) :
    Step a { a with site := { a.site with desk := d } }
  /-- The peers change by themselves. -/
  | stir (a : Account κ σ) (peers : σ) :
    Step a { a with site := { a.site with lanes := { a.site.lanes with peers } } }

def Finished (a : Account κ σ) (ticket : Nat) : Prop := ∃ f ∈ a.finished, f.ticket = ticket

def Abandoned (a : Account κ σ) (drain ticket : Nat) : Prop := (drain, ticket) ∈ a.abandoned

def Pending (a : Account κ σ) (ticket : Nat) : Prop := ∃ r ∈ a.site.rounds, r.ticket = ticket

/-- An account that is in order. -/
structure Sound (a : Account κ σ) (width : Nat) : Prop where
  tidy : a.site.Tidy width
  parted : (a.finished.map Finish.ticket ++ a.abandoned.map Prod.snd ++
    a.site.rounds.map Round.ticket).Perm (a.spawned.map Prod.fst)
  distinct : (a.spawned.map Prod.fst).Nodup
  older : ∀ p ∈ a.spawned, p.1 < a.site.nextTicket
  known : ∀ p ∈ a.spawned, ∀ m ∈ p.2, (a.site.desk.node.registry.status? m.id).isSome
  underway : ∀ r ∈ a.site.rounds,
    Reckoned a.spawned a.site.desk.node.registry r.ticket r.ended (a.site.lanes.callsOf r.ticket)
  ended : ∀ f ∈ a.finished,
    Reckoned a.spawned a.site.desk.node.registry f.ticket f.round.ended []

/-! ## One landing -/

section Landing

variable {a : Account κ σ} {width : Nat} {f : Flight} {others : List Flight}

omit [Catalog κ] in
/-- After a landing it is known of every round which of its calls have ended. -/
theorem Sound.told_note (sound : a.Sound width) (perm : a.site.lanes.flights.Perm (f :: others))
    {r : Round} (among : r ∈ a.site.rounds) :
    Reckoned a.spawned (a.site.landed (a.site.lanes.land f others)).desk.node.registry r.ticket
      (r.note f.call (a.site.lanes.land f others).verdict).ended
      ((a.site.lanes.land f others).lanes.callsOf r.ticket) := by
  obtain ⟨⟨members, spawned, everyone⟩, marked⟩ := sound.underway r among
  by_cases mine : r.ticket = f.call.ticket
  · have calls := (Lanes.callsOf_land perm).map (·.member.id)
    rw [← mine, List.map_cons] at calls
    have known : (a.site.desk.node.registry.status? f.call.member.id).isSome := by
      have called : f.call.member.id ∈ members.map Member.id := by
        apply everyone.mem_iff.mp
        apply List.mem_append_right
        exact calls.mem_iff.mpr List.mem_cons_self
      obtain ⟨m, member, named⟩ := List.mem_map.mp called
      rw [← named]
      exact sound.known _ spawned m member
    rw [Round.note_of_eq mine]
    refine ⟨⟨members, spawned, ?_⟩, marked.snoc _ known _⟩
    apply List.Perm.trans _ everyone
    apply List.Perm.trans _ (calls.symm.append_left _)
    simp
  · rw [Round.note_of_ne mine]
    refine ⟨⟨members, spawned, ?_⟩, marked.settle _ _ _⟩
    apply List.Perm.trans _ everyone
    exact ((Lanes.callsOf_land_of_ne perm (Ne.symm mine)).symm.map _).append_left _

/-- The account after a landing, and after the round that it ended is noted. -/
def noting (a : Account κ σ) (s : Site κ σ) (finishes : List Finish) : Account κ σ :=
  { a with site := s, finished := a.finished ++ finishes }

theorem Sound.land (sound : a.Sound width) {s : Site κ σ} {limit : Option Nat}
    {finished : Option Round} (next : a.site.landNext? limit = some (finished, s)) :
    (a.noting s (finished.map (Finish.mk s.lanes.now)).toList).Sound width := by
  obtain ⟨tidy, _, _, _, tickets⟩ := sound.tidy.landNext? next
  obtain ⟨f, others, perm, _, _, rfl, rfl⟩ := Site.landed_of_landNext? next
  constructor
  case tidy => exact tidy
  case parted =>
    have before := sound.parted
    have same (landed : Option Round) (now : Nat) :
        (landed.map (Finish.mk now)).toList.map Finish.ticket = landed.toList.map Round.ticket := by
      cases landed <;> rfl
    rw [List.perm_iff_count] at before tickets ⊢
    intro ticket
    have whole := before ticket
    have part := tickets ticket
    simp only [noting, List.map_append, List.count_append, same] at whole part ⊢
    omega
  case distinct => exact sound.distinct
  case older => exact sound.older
  case known =>
    intro p spawned m member
    exact isSome_settled (sound.known p spawned m member) _ _ _
  case underway =>
    intro noted among
    obtain ⟨r, before, rfl, _⟩ := Site.mem_landed.mp among
    rw [Round.ticket_note]
    exact sound.told_note perm before
  case ended =>
    intro g among
    rcases List.mem_append.mp among with before | now
    · obtain ⟨everyone, marked⟩ := sound.ended g before
      exact ⟨everyone, marked.settle _ _ _⟩
    · obtain ⟨last, completed, rfl⟩ : ∃ last,
          a.site.completed? (a.site.lanes.land f others) = some last ∧
            Finish.mk _ last = g := by simpa using now
      obtain ⟨ended, r, landing, _, rfl⟩ := Site.of_completed? sound.tidy.unfinished completed
      have told := sound.told_note perm landing
      have none_left := sound.tidy.left_note perm landing (a.site.lanes.land f others).verdict
      change (r.note f.call (a.site.lanes.land f others).verdict).left = 0 at ended
      rw [ended] at none_left
      rw [List.length_eq_zero_iff.mp none_left.symm] at told
      change Reckoned a.spawned _ (r.note f.call _).ticket _ []
      rw [Round.ticket_note]
      exact told

theorem Sound.landAllWith (sound : a.Sound width) (horizon fuel : Nat) :
    (a.noting (a.site.landAllWith horizon fuel)
      (a.site.finishesWith (some horizon) fuel)).Sound width := by
  induction fuel generalizing a with
  | zero => simpa [noting, Site.landAllWith, Site.finishesWith] using sound
  | succ fuel ih =>
    rw [Site.landAllWith, Site.finishesWith]
    cases next : a.site.landNext? (some horizon) with
    | none => simpa [noting] using sound
    | some landed =>
      obtain ⟨finished, s'⟩ := landed
      have later := ih (sound.land next)
      simpa [noting] using later

end Landing

/-! ## One operation -/

section Steps

variable {a : Account κ σ} {width : Nat}

theorem Sound.advance (sound : a.Sound width) (millis : Nat) : (a.advance millis).Sound width :=
  { sound.landAllWith (a.site.lanes.now + millis) a.site.lanes.load with
    tidy := sound.tidy.advance millis }

/-- A drain abandons the rounds that are left, and they are pending no more. -/
theorem Sound.drain (sound : a.Sound width) (grace : Nat) : (a.drain grace).Sound width := by
  have landed := sound.landAllWith (a.site.lanes.now + grace) a.site.lanes.load
  have drained := Site.drain_eq sound.tidy grace
  dsimp only at drained
  constructor
  case tidy =>
    rw [Account.drain, drained]
    exact Site.tidy_idle _ _ _ _ _ sound.tidy.roomy
  case parted =>
    have before := landed.parted
    rw [Account.drain, drained]
    simpa [noting, Function.comp_def, Site.finishesBy, Site.landAll] using before
  case distinct => exact sound.distinct
  case older =>
    rw [Account.drain, drained]
    exact sound.older
  case known =>
    rw [Account.drain, drained]
    exact landed.known
  case underway =>
    rw [Account.drain, drained]
    exact fun r none_left => absurd none_left List.not_mem_nil
  case ended =>
    rw [Account.drain, drained]
    exact landed.ended

/-- The members that are called are known. -/
theorem isSome_of_active {r : Registry} {m : Member} (active : m ∈ r.activePeers) :
    (r.status? m.id).isSome := by
  obtain ⟨member, _⟩ := List.mem_filter.mp active
  rw [Registry.status?, Option.isSome_map, Registry.find?, List.find?_isSome]
  exact ⟨m, member, by simp⟩

theorem rounds_spawn (s : Site κ σ) (order : Order) :
    (s.spawn order).rounds =
      if s.desk.node.registry.activePeers = [] then s.rounds
      else s.rounds ++ [⟨s.nextTicket, .accept, s.desk.node.registry.activePeers.length, []⟩] :=
  Site.rounds_launch

/-- A spawned push is pending, unless there is nobody to call. -/
theorem Sound.spawn (sound : a.Sound width) (order : Order) : (a.spawn order).Sound width := by
  have tidy := sound.tidy.launch .accept a.site.desk.node.registry.activePeers
    (.accept ⟨order, a.site.desk.node.registry.selfId⟩)
  constructor
  case tidy => exact tidy
  case parted =>
    have before := sound.parted
    rw [List.perm_iff_count] at before ⊢
    intro ticket
    have whole := before ticket
    simp only [Account.spawn, rounds_spawn, List.map_append, List.count_append] at whole ⊢
    by_cases nobody : a.site.desk.node.registry.activePeers = []
    · simp only [nobody, if_true, List.map_singleton, Finish.ticket]
      omega
    · simp only [nobody, if_false, List.map_append, List.map_singleton, List.count_append,
        List.map_nil, List.count_nil]
      omega
  case distinct =>
    simp only [Account.spawn, List.map_append, List.map_singleton]
    apply List.nodup_append.mpr
    refine ⟨sound.distinct, List.nodup_singleton _, ?_⟩
    intro ticket before ticket' now
    obtain ⟨p, spawned, rfl⟩ := List.mem_map.mp before
    rw [List.mem_singleton.mp now]
    exact Nat.ne_of_lt (sound.older p spawned)
  case older =>
    intro p spawned
    rcases List.mem_append.mp spawned with before | now
    · exact Nat.lt_succ_of_lt (sound.older p before)
    · rw [List.mem_singleton.mp now]
      exact Nat.lt_succ_self _
  case known =>
    intro p spawned m member
    rcases List.mem_append.mp spawned with before | now
    · exact sound.known p before m member
    · rw [List.mem_singleton.mp now] at member
      exact isSome_of_active member
  case underway =>
    intro r among
    change Reckoned _ _ r.ticket r.ended
      ((a.site.launch .accept a.site.desk.node.registry.activePeers _).2.lanes.callsOf r.ticket)
    rcases Site.mem_launch.mp among with before | ⟨_, rfl⟩
    · obtain ⟨⟨members, spawned, everyone⟩, marked⟩ := sound.underway r before
      rw [Site.callsOf_launch_of_ne (Nat.ne_of_lt (sound.tidy.older r before))]
      exact ⟨⟨members, List.mem_append_left _ spawned, everyone⟩, marked⟩
    · rw [Site.callsOf_launch sound.tidy.unused]
      refine ⟨⟨_, List.mem_append_right _ List.mem_cons_self, ?_⟩, ?_⟩
      · simp [Function.comp_def]
      · exact fun e none => absurd none List.not_mem_nil
  case ended =>
    intro f among
    rcases List.mem_append.mp among with before | now
    · obtain ⟨⟨members, spawned, everyone⟩, marked⟩ := sound.ended f before
      exact ⟨⟨members, List.mem_append_left _ spawned, everyone⟩, marked⟩
    · by_cases nobody : a.site.desk.node.registry.activePeers = []
      · rw [if_pos nobody] at now
        rw [List.mem_singleton.mp now]
        refine ⟨⟨[], ?_, .refl _⟩, fun e none => absurd none List.not_mem_nil⟩
        rw [← nobody]
        exact List.mem_append_right _ List.mem_cons_self
      · rw [if_neg nobody] at now
        cases now

omit [Catalog κ] [Peers σ] in
/-- What the node does besides its pushes leaves their account alone. -/
theorem Sound.work (sound : a.Sound width) {d : Desk κ}
    (same : d.node.registry = a.site.desk.node.registry) :
    Sound { a with site := { a.site with desk := d } } width := by
  obtain ⟨tidy, parted, distinct, older, known, underway, ended⟩ := sound
  rw [← same] at known underway ended
  exact ⟨{ tidy with }, parted, distinct, older, known, underway, ended⟩

omit [Catalog κ] in
theorem Sound.stir (sound : a.Sound width) (peers : σ) :
    Sound { a with site := { a.site with lanes := { a.site.lanes with peers } } } width := by
  obtain ⟨tidy, parted, distinct, older, known, underway, ended⟩ := sound
  have limited := (Lanes.Move.drift (.stir a.site.lanes peers)).limited tidy.limited
  exact ⟨{ tidy with limited }, parted, distinct, older, known, underway, ended⟩

end Steps

end Account

end OrderCluster.Replication
