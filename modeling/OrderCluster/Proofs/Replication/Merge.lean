import OrderCluster.Proofs.Log
import OrderCluster.Replication.Sync

/-!
# What a merge keeps

Of all the records that the peers sent, the first of each number is kept, in the order in which they
are read: it stands in the answer of the lowest peer that sent the number, in front of all others. A
clash is counted only where two records under one number differ.
-/

namespace OrderCluster.Replication

namespace Merged

theorem kept_add (m : Merged) (order : Order) (n : OrderNumber) :
    (m.add order).kept[n]? = m.kept[n]?.or (if order.number = n then some order else none) := by
  unfold add
  cases found : m.kept[order.number]? with
  | none =>
    change (m.kept.insert order.number order)[n]? = _
    rw [Std.TreeMap.getElem?_insert]
    by_cases eq : order.number = n
    · rw [if_pos (Std.compare_eq_iff_eq.mpr eq), if_pos eq, ← eq, found, Option.none_or]
    · rw [if_neg (fun h => eq (Std.compare_eq_iff_eq.mp h)), if_neg eq, Option.or_none]
  | some held =>
    have same : (if held = order then m else { m with conflicts := m.conflicts + 1 }).kept =
        m.kept := by split <;> rfl
    change (if held = order then m else { m with conflicts := m.conflicts + 1 }).kept[n]? = _
    rw [same]
    by_cases eq : order.number = n
    · rw [← eq, found, Option.some_or]
    · rw [if_neg eq, Option.or_none]

/-- The first record of each number is kept. -/
theorem kept_foldl (orders : List Order) (m : Merged) (n : OrderNumber) :
    (orders.foldl add m).kept[n]? =
      m.kept[n]?.or (orders.find? (fun order => order.number = n)) := by
  induction orders generalizing m with
  | nil => rw [List.foldl_nil, List.find?_nil, Option.or_none]
  | cons order rest ih =>
    rw [List.foldl_cons, ih, kept_add, Option.or_assoc]
    by_cases eq : order.number = n
    · simp only [eq, if_true, List.find?_cons_of_pos, decide_true, Option.some_or]
    · simp only [eq, if_false, Option.none_or, List.find?_cons_of_neg, decide_false,
        Bool.false_eq_true, not_false_eq_true]

/-- Every kept record stands under its own number. -/
theorem keyed_foldl {orders : List Order} {m : Merged}
    (keyed : ∀ (n : OrderNumber) (order : Order), m.kept[n]? = some order → order.number = n)
    {n : OrderNumber} {order : Order} (found : (orders.foldl add m).kept[n]? = some order) :
    order.number = n := by
  rw [kept_foldl, Option.or_eq_some_iff] at found
  rcases found with before | ⟨_, read⟩
  · exact keyed n order before
  · simpa using List.find?_some read

/-- Records that all stand in one and the same log do not clash. -/
theorem conflicts_foldl {held : OrderNumber → Option Order} {orders : List Order} {m : Merged}
    (kept : ∀ n order, m.kept[n]? = some order → held n = some order)
    (agree : ∀ order ∈ orders, held order.number = some order) :
    (orders.foldl add m).conflicts = m.conflicts := by
  induction orders generalizing m with
  | nil => rfl
  | cons order rest ih =>
    have first := agree order List.mem_cons_self
    have same : (m.add order).conflicts = m.conflicts := by
      unfold add
      cases found : m.kept[order.number]? with
      | none => rfl
      | some other =>
        have eq : other = order := by
          have := kept _ _ found
          rw [first] at this
          exact (Option.some.inj this).symm
        simp only [eq, if_true]
    have kept_next : ∀ n other, (m.add order).kept[n]? = some other → held n = some other := by
      intro n other found
      rw [kept_add, Option.or_eq_some_iff] at found
      rcases found with before | ⟨_, now⟩
      · exact kept n other before
      · by_cases eq : order.number = n
        · rw [if_pos eq, Option.some.injEq] at now
          rw [← eq, ← now]
          exact first
        · rw [if_neg eq] at now
          cases now
    have agree_next : ∀ other ∈ rest, held other.number = some other :=
      fun other member => agree other (List.mem_cons_of_mem _ member)
    rw [List.foldl_cons, ih kept_next agree_next]
    exact same

theorem mem_orders_iff {m : Merged} {order : Order} :
    order ∈ m.orders ↔ ∃ n : OrderNumber, m.kept[n]? = some order :=
  @MemoryLog.mem_values_iff ⟨m.kept⟩ order

end Merged

theorem mem_readingOrder_iff {answers : List (NodeId × List Order)} {order : Order} :
    order ∈ readingOrder answers ↔ ∃ answer ∈ answers, order ∈ answer.2 := by
  unfold readingOrder
  rw [List.mem_flatMap]
  constructor
  · rintro ⟨answer, member, among⟩
    exact ⟨answer, List.mem_mergeSort.mp member, among⟩
  · rintro ⟨answer, member, among⟩
    exact ⟨answer, List.mem_mergeSort.mpr member, among⟩

/-- The record that a merge keeps under a number is the first that is read. -/
theorem kept_merge (answers : List (NodeId × List Order)) (n : OrderNumber) :
    (merge answers).kept[n]? = (readingOrder answers).find? (fun order => order.number = n) := by
  rw [merge, Merged.kept_foldl]
  rfl

/-- A kept record was sent. -/
theorem mem_merge {answers : List (NodeId × List Order)} {order : Order}
    (h : order ∈ (merge answers).orders) : ∃ answer ∈ answers, order ∈ answer.2 := by
  obtain ⟨n, kept⟩ := Merged.mem_orders_iff.mp h
  rw [kept_merge] at kept
  exact mem_readingOrder_iff.mp (List.mem_of_find?_eq_some kept)

theorem conflicts_merge {held : OrderNumber → Option Order}
    {answers : List (NodeId × List Order)}
    (agree : ∀ answer ∈ answers, ∀ order ∈ answer.2, held order.number = some order) :
    (merge answers).conflicts = 0 := by
  have sent : ∀ order ∈ readingOrder answers, held order.number = some order := by
    intro order member
    obtain ⟨answer, among, sent⟩ := mem_readingOrder_iff.mp member
    exact agree answer among order sent
  exact Merged.conflicts_foldl (fun n order found => by cases found) sent

/-- The batch of a merge has the kept record of each number, and no other of it. -/
theorem find?_merge (answers : List (NodeId × List Order)) (n : OrderNumber) :
    (merge answers).orders.find? (fun order => order.number = n) =
      (readingOrder answers).find? (fun order => order.number = n) := by
  have keyed : ∀ {k : OrderNumber} {order : Order}, (merge answers).kept[k]? = some order →
      order.number = k := fun found => Merged.keyed_foldl (fun k order found => by cases found) found
  rw [← kept_merge]
  cases kept : (merge answers).kept[n]? with
  | none =>
    refine List.find?_eq_none.mpr fun order member => ?_
    obtain ⟨k, found⟩ := Merged.mem_orders_iff.mp member
    have number := keyed found
    have other : k ≠ n := by
      rintro rfl
      rw [kept] at found
      cases found
    simpa [number] using other
  | some order =>
    have member : order ∈ (merge answers).orders := Merged.mem_orders_iff.mpr ⟨n, kept⟩
    cases first : (merge answers).orders.find? (fun order => order.number = n) with
    | none => simpa [keyed kept] using List.find?_eq_none.mp first order member
    | some other =>
      have number : other.number = n := by simpa using List.find?_some first
      obtain ⟨k, found⟩ := Merged.mem_orders_iff.mp (List.mem_of_find?_eq_some first)
      have same : k = n := (keyed found).symm.trans number
      rw [same, kept] at found
      exact found.symm

/-- A record is the first of its number: in the answer of the lowest peer that sent the number, and
there in front of all others of that number. -/
def First (answers : List (NodeId × List Order)) (n : OrderNumber) (order : Order) : Prop :=
  order.number = n ∧
    ∃ peer front back, (peer, front ++ order :: back) ∈ answers ∧
      (∀ earlier ∈ front, earlier.number ≠ n) ∧
      ∀ lower sent, (lower, sent) ∈ answers → lower < peer → ∀ other ∈ sent, other.number ≠ n

/-- Where no peer has two answers, the first record that is read of a number is the first of it. -/
theorem find?_readingOrder_iff {answers : List (NodeId × List Order)}
    (distinct : (answers.map Prod.fst).Nodup) {n : OrderNumber} {order : Order} :
    (readingOrder answers).find? (fun other => other.number = n) = some order ↔
      First answers n order := by
  have ascending := ascending_mergeSort Prod.fst distinct
  have same : ∀ answer, answer ∈ answers.mergeSort (fun a b => a.1 ≤ b.1) ↔ answer ∈ answers :=
    fun answer => List.mem_mergeSort
  rw [readingOrder, List.find?_flatMap, List.findSome?_eq_some_iff]
  constructor
  · rintro ⟨before, ⟨peer, sent⟩, behind, split, found, silent⟩
    obtain ⟨number, front, back, rfl, others⟩ := List.find?_eq_some_iff_append.mp found
    refine ⟨of_decide_eq_true number, peer, front, back, ?_, ?_, ?_⟩
    · rw [← same, split]
      exact List.mem_append_right _ List.mem_cons_self
    · intro earlier among
      simpa using others earlier among
    · intro lower sent answered below other among
      rw [← same, split] at answered
      rw [split, List.pairwise_append, List.pairwise_cons] at ascending
      rcases List.mem_append.mp answered with first | later
      · simpa using List.find?_eq_none.mp (silent _ first) other among
      · rcases List.mem_cons.mp later with eq | last
        · cases eq
          exact absurd below (UInt32.lt_irrefl _)
        · exact absurd (UInt32.lt_trans below (ascending.2.1.1 _ last)) (UInt32.lt_irrefl _)
  · rintro ⟨number, peer, front, back, answered, others, lowest⟩
    obtain ⟨before, behind, split⟩ := List.append_of_mem ((same _).mpr answered)
    refine ⟨before, _, behind, split, ?_, ?_⟩
    · refine List.find?_eq_some_iff_append.mpr ⟨decide_eq_true number, front, back, rfl, ?_⟩
      intro earlier among
      simpa using others earlier among
    · rintro ⟨lower, sent⟩ first
      rw [split, List.pairwise_append] at ascending
      have below : lower < peer := ascending.2.2 _ first _ List.mem_cons_self
      have sender : (lower, sent) ∈ answers := by
        rw [← same, split]
        exact List.mem_append_left _ first
      refine List.find?_eq_none.mpr fun other among => ?_
      simpa using lowest lower sent sender below other among

namespace Sync

theorem mem_answers {ended : List Ended} {answer : NodeId × List Order}
    (h : answer ∈ answers ended) : (answer.1, .sent answer.2) ∈ ended := by
  obtain ⟨⟨peer, verdict⟩, member, eq⟩ := List.mem_filterMap.mp h
  cases verdict with
  | sent orders =>
    cases eq
    exact member
  | _ => cases eq

/-- What the peers sent, as one batch for the log. -/
def batch (ended : List Ended) : List Order := (merge (answers ended)).orders

/-- An order of the batch was sent by a peer. -/
theorem mem_batch {ended : List Ended} {order : Order} (h : order ∈ batch ended) :
    ∃ peer orders, (peer, .sent orders) ∈ ended ∧ order ∈ orders := by
  obtain ⟨answer, member, among⟩ := mem_merge h
  exact ⟨answer.1, answer.2, mem_answers member, among⟩

theorem batch_nil : batch [] = [] := by
  refine List.eq_nil_iff_forall_not_mem.mpr fun order among => ?_
  obtain ⟨_, _, answered, _⟩ := mem_batch among
  cases answered

/-- Where all that was sent stands in one and the same log, the batch has all that was sent. -/
theorem mem_batch_of_sent {held : OrderNumber → Option Order} {ended : List Ended}
    (agree : ∀ peer orders, (peer, .sent orders) ∈ ended → ∀ order ∈ orders,
      held order.number = some order) {peer : NodeId} {orders : List Order}
    (answered : (peer, .sent orders) ∈ ended) {order : Order} (sent : order ∈ orders) :
    order ∈ batch ended := by
  have among : (peer, orders) ∈ answers ended :=
    List.mem_filterMap.mpr ⟨(peer, .sent orders), answered, rfl⟩
  have read : order ∈ readingOrder (answers ended) :=
    mem_readingOrder_iff.mpr ⟨(peer, orders), among, sent⟩
  refine Merged.mem_orders_iff.mpr ⟨order.number, ?_⟩
  rw [kept_merge]
  cases first : (readingOrder (answers ended)).find? (fun other => other.number = order.number) with
  | none =>
    have missed := List.find?_eq_none.mp first order read
    simp at missed
  | some other =>
    have number : other.number = order.number := by simpa using List.find?_some first
    obtain ⟨answer, from_peer, also_sent⟩ :=
      mem_readingOrder_iff.mp (List.mem_of_find?_eq_some first)
    have other_held := agree answer.1 answer.2 (mem_answers from_peer) other also_sent
    rw [number, agree peer orders answered order sent] at other_held
    exact other_held.symm

end Sync

end OrderCluster.Replication
