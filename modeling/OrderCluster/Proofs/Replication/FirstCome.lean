import OrderCluster.Proofs.Log.FirstWrites
import OrderCluster.Proofs.Replication.Merge

/-!
# First come, first kept

The answers of the peers are read in turn: the lowest peer first, and those of one peer in the order
in which they came. A merge keeps the first record of each number that is read, counts the records
that differ from the kept one, and does not depend on the order in which the answers came unless a
peer has two of them. For a log, the merged list is as good as all that was read.
-/

namespace OrderCluster

/-! ## Logs that answer alike -/

namespace OrderLog

/-- Whatever two logs are asked from now on, they answer the same. -/
def Alike (log other : OrderLog) : Prop := ∀ requests, log.answers requests = other.answers requests

/-- The map that a log represents in which every order stands under its own number. -/
def Keyed.writes {log : OrderLog} (keyed : log.Keyed) : FirstWrites := ⟨log.get?, keyed.number⟩

theorem Keyed.represents {log : OrderLog} (keyed : log.Keyed) : log.Represents keyed.writes :=
  ⟨keyed, fun _ => rfl⟩

/-- Logs that represent one map, and are lasting both or neither, answer alike. -/
theorem Represents.alike {log other : OrderLog} {m : FirstWrites} (first : log.Represents m)
    (second : other.Represents m) (lasting : log.isLasting = other.isLasting) : log.Alike other := by
  intro requests
  obtain ⟨_, mine, _⟩ := first.traces requests
  obtain ⟨_, theirs, _⟩ := second.traces requests
  rw [lasting] at mine
  apply mine.unique theirs
  rw [map_action_answers, map_action_answers]

/-- For a log, two batches with the same first record of each number are the same: as many of their
records are new, and nothing tells the logs apart that they leave behind. -/
theorem Keyed.insertAll_alike {log : OrderLog} (keyed : log.Keyed) {orders others : List Order}
    (same : ∀ n : OrderNumber, orders.find? (·.number = n) = others.find? (·.number = n)) :
    (log.insertAll orders).1 = (log.insertAll others).1 ∧
      (log.insertAll orders).2.Alike (log.insertAll others).2 := by
  have writes : keyed.writes.write orders = keyed.writes.write others := by
    simp [FirstWrites.write, same]
  have numbers : (orders.map Order.number).toFinset = (others.map Order.number).toFinset := by
    have sent : ∀ {batch : List Order} {n : OrderNumber},
        n ∈ batch.map Order.number ↔ (batch.find? (·.number = n)).isSome := by
      intro batch n
      simp [List.find?_isSome]
    ext n
    rw [List.mem_toFinset, List.mem_toFinset, sent, sent, same]
  constructor
  · rw [keyed.represents.count, keyed.represents.count, FirstWrites.free, numbers, FirstWrites.free]
  · have mine := keyed.represents.insertAll orders
    rw [writes] at mine
    apply mine.alike (keyed.represents.insertAll others)
    rw [isLasting_insertAll, isLasting_insertAll]

end OrderLog

namespace Replication

/-! ## Reading in turn -/

/-- The answers in the order in which they are read: by ascending peer, and those of one peer as
they came. -/
structure InTurn (answers turns : List (NodeId × List Order)) : Prop where
  perm : turns.Perm answers
  ascending : turns.Pairwise fun a b => a.1 ≤ b.1
  stable : ∀ id : NodeId, turns.filter (·.1 = id) = answers.filter (·.1 = id)

theorem inTurn_mergeSort (answers : List (NodeId × List Order)) :
    InTurn answers (answers.mergeSort fun a b => a.1 ≤ b.1) := by
  have trans := key_le_trans (Prod.fst : NodeId × List Order → NodeId)
  have total := key_le_total (Prod.fst : NodeId × List Order → NodeId)
  constructor
  · exact List.mergeSort_perm _ _
  · simpa using List.pairwise_mergeSort trans total answers
  · intro id
    refine filter_mergeSort trans total ?_ answers
    intro a b of_a of_b
    simp only [decide_eq_true_eq] at of_a of_b
    simp [of_a, of_b]

/-- Where no peer has two answers, they are read in the same order however they came. -/
theorem readingOrder_perm {answers others : List (NodeId × List Order)}
    (distinct : (answers.map Prod.fst).Nodup) (perm : answers.Perm others) :
    readingOrder answers = readingOrder others := by
  have distinct_too : (others.map Prod.fst).Nodup := (perm.map Prod.fst).nodup_iff.mp distinct
  have sorted : answers.mergeSort (fun a b => a.1 ≤ b.1) =
      others.mergeSort fun a b => a.1 ≤ b.1 := by
    refine List.Perm.eq_of_pairwise ?_ (ascending_mergeSort Prod.fst distinct)
      (ascending_mergeSort Prod.fst distinct_too) ?_
    · intro a b _ _ lower higher
      exact absurd (UInt32.lt_trans lower higher) (UInt32.lt_irrefl _)
    · exact (List.mergeSort_perm _ _).trans (perm.trans (List.mergeSort_perm _ _).symm)
  rw [readingOrder, sorted, readingOrder]

/-! ## What is kept, and what clashes -/

/-- Every record that differs from the kept one of its number is counted, and no other. -/
theorem Merged.conflicts_foldl_add (orders : List Order) (m : Merged) :
    (orders.foldl add m).conflicts = m.conflicts +
      orders.countP fun order => decide ((orders.foldl add m).kept[order.number]? ≠ some order) := by
  induction orders generalizing m with
  | nil => rfl
  | cons order rest ih =>
    have kept : ((order :: rest).foldl add m).kept[order.number]? =
        m.kept[order.number]?.or (some order) := by
      rw [kept_foldl, List.find?_cons_of_pos (by simp)]
    rw [List.countP_cons, kept, List.foldl_cons, ih]
    unfold add
    cases found : m.kept[order.number]? with
    | none => simp
    | some held =>
      by_cases same : held = order
      · simp [same]
      · simp [same]
        omega

theorem number_of_kept {answers : List (NodeId × List Order)} {n : OrderNumber} {order : Order}
    (kept : (merge answers).kept[n]? = some order) : order.number = n := by
  rw [kept_merge] at kept
  simpa using List.find?_some kept

/-- A merged list has the first record of each number that is read. -/
theorem mem_orders_merge {answers : List (NodeId × List Order)} {order : Order} :
    order ∈ (merge answers).orders ↔
      (readingOrder answers).find? (·.number = order.number) = some order := by
  rw [Merged.mem_orders_iff, ← kept_merge]
  constructor
  · rintro ⟨n, kept⟩
    rwa [number_of_kept kept]
  · exact fun kept => ⟨order.number, kept⟩

theorem ascending_merge (answers : List (NodeId × List Order)) :
    (merge answers).orders.Pairwise fun a b => a.number < b.number := by
  have keyed : (OrderLog.memory ⟨(merge answers).kept⟩).Keyed := fun _ _ kept => number_of_kept kept
  exact keyed.ascending_all

/-- A record differs from the kept one of its number if it is not kept itself. -/
theorem differs_iff {answers : List (NodeId × List Order)} {order : Order}
    (sent : order ∈ readingOrder answers) :
    (∃ kept ∈ (merge answers).orders, kept.number = order.number ∧ kept ≠ order) ↔
      (merge answers).kept[order.number]? ≠ some order := by
  have some_read : ((readingOrder answers).find? (·.number = order.number)).isSome :=
    List.find?_isSome.mpr ⟨order, sent, by simp⟩
  obtain ⟨first, read⟩ := Option.isSome_iff_exists.mp some_read
  rw [← kept_merge] at read
  constructor
  · rintro ⟨kept, among, number, other⟩ same
    rw [mem_orders_merge, ← kept_merge, number, same] at among
    exact other (Option.some.inj among).symm
  · intro other
    have number := number_of_kept read
    refine ⟨first, ?_, number, ?_⟩
    · rw [mem_orders_merge, ← kept_merge, number, read]
    · rintro rfl
      exact other read

/-! ## The whole of a merge -/

/-- What a merge makes of answers that are read in turn. -/
structure FirstCome (answers turns : List (NodeId × List Order)) (m : Merged) : Prop where
  /-- The merged list strictly ascends. -/
  ascending : m.orders.Pairwise fun a b => a.number < b.number
  /-- It has the numbers that were sent, and no other. -/
  numbers : ∀ n, (∃ order ∈ m.orders, order.number = n) ↔
    ∃ answer ∈ answers, ∃ order ∈ answer.2, order.number = n
  /-- Of each number it has the first record that is read. -/
  first : ∀ order, order ∈ m.orders ↔
    (turns.flatMap Prod.snd).find? (·.number = order.number) = some order
  /-- A clash is a received record that differs from the kept one of its number. -/
  clashes : m.conflicts = (answers.flatMap Prod.snd).countP fun sent =>
    decide (∃ kept ∈ m.orders, kept.number = sent.number ∧ kept ≠ sent)
  /-- Unless a peer has two answers, it does not matter in which order they came. -/
  anyhow : (answers.map Prod.fst).Nodup → ∀ others, answers.Perm others → merge others = m
  /-- For a log, the merged list is as good as all that is read, record by record. -/
  written : ∀ log : OrderLog, log.Keyed →
    (log.insertAll m.orders).1 =
        (log.answers ((turns.flatMap Prod.snd).map .insert)).countP LogRequest.added ∧
      (log.insertAll m.orders).2.Alike (log.following ((turns.flatMap Prod.snd).map .insert))

/-- A merge keeps the first record of each number, read by ascending peer. -/
theorem firstCome_merge (answers : List (NodeId × List Order)) :
    ∃ turns, InTurn answers turns ∧ FirstCome answers turns (merge answers) := by
  refine ⟨_, inTurn_mergeSort answers, ?_⟩
  have read : (readingOrder answers).Perm (answers.flatMap Prod.snd) :=
    (List.mergeSort_perm _ _).flatMap_right Prod.snd
  constructor
  · exact ascending_merge answers
  · intro n
    constructor
    · rintro ⟨order, among, number⟩
      obtain ⟨answer, answered, sent⟩ := mem_merge among
      exact ⟨answer, answered, order, sent, number⟩
    · rintro ⟨answer, answered, order, sent, rfl⟩
      have among : order ∈ readingOrder answers := mem_readingOrder_iff.mpr ⟨answer, answered, sent⟩
      have found : ((merge answers).orders.find? (·.number = order.number)).isSome := by
        rw [find?_merge, List.find?_isSome]
        exact ⟨order, among, by simp⟩
      simpa [List.find?_isSome] using found
  · exact fun order => mem_orders_merge
  · rw [← read.countP_eq, merge, Merged.conflicts_foldl_add, ← merge]
    simp only [Nat.zero_add]
    refine List.countP_congr fun sent among => ?_
    simpa using (differs_iff among).symm
  · intro distinct others perm
    rw [merge, merge, readingOrder_perm distinct perm]
  · intro log keyed
    obtain ⟨count, alike⟩ := keyed.insertAll_alike (find?_merge answers)
    rw [OrderLog.insertAll_eq log (readingOrder answers)] at count alike
    exact ⟨count, alike⟩

/-- Peer 2 is read before peer 3 although it answered later, and of the two answers of peer 3 the
one that came first. -/
example : (merge [(3, [⟨4, "fly", 1⟩, ⟨5, "bee", 1⟩]), (3, [⟨5, "bee", 2⟩]),
    (2, [⟨4, "ant", 1⟩, ⟨4, "ant", 1⟩])]).orders = [⟨4, "ant", 1⟩, ⟨5, "bee", 1⟩] := by cbv

end Replication

end OrderCluster
