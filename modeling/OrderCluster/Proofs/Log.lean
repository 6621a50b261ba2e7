import OrderCluster.Log.Basic
import OrderCluster.Proofs.Counter
import Std.Data.DTreeMap.Internal.WF.Lemmas
import Std.Data.TreeMap.Lemmas

/-!
# What a log holds

Both engines are seen through `get?`. A write adds the first order of each number that is free and
changes nothing else. No number that is held lies above the greatest number, and the greatest number
is held unless the log is empty.

A log is keyed when every order stands under its own number, as in every log that was filled by
writing to it; then the listings of a log are described by `get?` too.
-/

namespace OrderCluster

instance orderNumberMax : Std.LawfulOrderMax Int64 :=
  Std.LawfulOrderMax.of_max_le_iff
    (by
      intro a b c
      change (if a ≤ b then b else a) ≤ c ↔ a ≤ c ∧ b ≤ c
      split <;> grind)
    (by
      intro a b
      change (if a ≤ b then b else a) = a ∨ (if a ≤ b then b else a) = b
      split
      · exact Or.inr rfl
      · exact Or.inl rfl)

/-- A list that is sorted strictly is determined by its members. -/
theorem eq_of_strict {α : Type} {R : α → α → Prop} (asymm : ∀ x y, R x y → ¬ R y x) {a b : List α}
    (sorted_a : a.Pairwise R) (sorted_b : b.Pairwise R) (same : ∀ x, x ∈ a ↔ x ∈ b) : a = b := by
  have distinct : ∀ {l : List α}, l.Pairwise R → l.Nodup := by
    intro l sorted
    refine sorted.imp ?_
    rintro x _ strict rfl
    exact asymm x x strict strict
  have perm : a.Perm b :=
    (List.perm_ext_iff_of_nodup (distinct sorted_a) (distinct sorted_b)).mpr fun {x} => same x
  exact perm.eq_of_pairwise (fun x y _ _ lower higher => absurd higher (asymm x y lower)) sorted_a
    sorted_b

/-- A strictly ascending list of orders is determined by its members. -/
theorem eq_of_ascending {a b : List Order}
    (ascending_a : a.Pairwise fun x y => x.number < y.number)
    (ascending_b : b.Pairwise fun x y => x.number < y.number)
    (same : ∀ order, order ∈ a ↔ order ∈ b) : a = b :=
  eq_of_strict (fun _ _ lower higher => Int64.lt_irrefl (Int64.lt_trans lower higher)) ascending_a
    ascending_b same

section

variable {α κ : Type} [LE κ] [DecidableLE κ] [Std.IsLinearOrder κ] (key : α → κ)

theorem key_le_trans (a b c : α) (ab : decide (key a ≤ key b) = true)
    (bc : decide (key b ≤ key c) = true) : decide (key a ≤ key c) = true :=
  decide_eq_true (Std.le_trans (of_decide_eq_true ab) (of_decide_eq_true bc))

theorem key_le_total (a b : α) : (decide (key a ≤ key b) || decide (key b ≤ key a)) = true := by
  rw [Bool.or_eq_true, decide_eq_true_iff, decide_eq_true_iff]
  exact Std.le_total

/-- What is sorted by keys that differ strictly ascends. -/
theorem ascending_mergeSort [LT κ] [Std.LawfulOrderLT κ] {items : List α}
    (distinct : (items.map key).Nodup) :
    (items.mergeSort fun a b => key a ≤ key b).Pairwise fun a b => key a < key b := by
  have sorted := List.pairwise_mergeSort (key_le_trans key) (key_le_total key) items
  have apart : (items.mergeSort fun a b => key a ≤ key b).Pairwise fun a b => key a ≠ key b := by
    refine List.pairwise_map.mp ?_
    exact (((List.mergeSort_perm items _).map key).nodup_iff).mpr distinct
  refine (sorted.and apart).imp ?_
  rintro a b ⟨le, ne⟩
  exact Std.lt_of_le_of_ne (of_decide_eq_true le) ne

end

/-- A sort leaves items of one kind, none of which must stand before another, in their order. -/
theorem filter_mergeSort {α : Type} {le : α → α → Bool}
    (trans : ∀ a b c, le a b = true → le b c = true → le a c = true)
    (total : ∀ a b, (le a b || le b a) = true) {p : α → Bool}
    (alike : ∀ a b, p a = true → p b = true → le a b = true) (items : List α) :
    (items.mergeSort le).filter p = items.filter p := by
  -- the items of the kind are sorted as they stand, so the sort does not move them past each other
  have sorted : (items.filter p).Pairwise fun a b => le a b = true := by
    apply List.pairwise_of_forall_mem_list
    intro a among_a b among_b
    exact alike a b (List.mem_filter.mp among_a).2 (List.mem_filter.mp among_b).2
  have kept := (List.sublist_mergeSort trans total sorted List.filter_sublist).filter p
  rw [List.filter_filter] at kept
  simp only [Bool.and_self] at kept
  have count := ((List.mergeSort_perm items le).filter p).length_eq
  exact (kept.eq_of_length count.symm).symm

namespace MemoryLog

theorem isTaken_eq (log : MemoryLog) (n : OrderNumber) :
    log.orders.contains n = (log.get? n).isSome :=
  Std.TreeMap.contains_eq_isSome_getElem?

theorem insert_fst (log : MemoryLog) (order : Order) :
    (log.insert order).1 = (log.get? order.number).isNone := by
  rw [insert, isTaken_eq]
  cases log.get? order.number <;> rfl

theorem insert_of_held {log : MemoryLog} {order held : Order}
    (found : log.get? order.number = some held) : log.insert order = (false, log) := by
  rw [insert, isTaken_eq, found]
  rfl

theorem get?_insert (log : MemoryLog) (order : Order) (n : OrderNumber) :
    (log.insert order).2.get? n =
      (log.get? n).or (if order.number = n then some order else none) := by
  rw [insert, isTaken_eq]
  cases found : log.get? order.number with
  | none =>
    change (log.orders.insert order.number order)[n]? = _
    rw [Std.TreeMap.getElem?_insert]
    by_cases eq : order.number = n
    · rw [if_pos (Std.compare_eq_iff_eq.mpr eq), if_pos eq, ← eq, found, Option.none_or]
    · rw [if_neg (fun h => eq (Std.compare_eq_iff_eq.mp h)), if_neg eq, Option.or_none]
      rfl
  | some held =>
    change log.get? n = _
    by_cases eq : order.number = n
    · rw [← eq, found, Option.some_or]
    · rw [if_neg eq, Option.or_none]

theorem values_eq (log : MemoryLog) :
    log.orders.values = log.orders.toList.map Prod.snd := by
  change log.orders.inner.inner.values =
    (Std.DTreeMap.Internal.Impl.Const.toList log.orders.inner.inner).map Prod.snd
  rw [Std.DTreeMap.Internal.Impl.values_eq_map_snd,
    Std.DTreeMap.Internal.Impl.Const.toList_eq_toListModel_map, List.map_map]
  rfl

theorem length_insert (log : MemoryLog) (order : Order) :
    (log.insert order).2.orders.values.length =
      log.orders.values.length + (log.insert order).1.toNat := by
  rw [values_eq, values_eq, List.length_map, List.length_map, Std.TreeMap.length_toList,
    Std.TreeMap.length_toList, insert]
  split
  · rfl
  · rename_i free
    change (log.orders.insert order.number order).size = _
    rw [Std.TreeMap.size_insert, if_neg free]
    rfl

theorem mem_values_iff {log : MemoryLog} {order : Order} :
    order ∈ log.orders.values ↔ ∃ n, log.get? n = some order := by
  rw [values_eq, List.mem_map]
  constructor
  · rintro ⟨⟨n, held⟩, member, rfl⟩
    exact ⟨n, Std.TreeMap.mem_toList_iff_getElem?_eq_some.mp member⟩
  · rintro ⟨n, found⟩
    exact ⟨(n, order), Std.TreeMap.mem_toList_iff_getElem?_eq_some.mpr found, rfl⟩

theorem le_maxNumber {log : MemoryLog} {n : OrderNumber} {order : Order}
    (found : log.get? n = some order) : n ≤ log.maxNumber := by
  have member : n ∈ log.orders := by
    rw [Std.TreeMap.mem_iff_isSome_getElem?]
    exact Option.isSome_of_eq_some found
  cases greatest : log.orders.maxKey? with
  | none =>
    rw [Std.TreeMap.maxKey?_eq_none_iff] at greatest
    exact absurd member (Std.TreeMap.not_mem_of_isEmpty greatest)
  | some top =>
    have below := (Std.TreeMap.maxKey?_eq_some_iff_mem_and_forall.mp greatest).2 n member
    rw [maxNumber, greatest, Option.getD_some]
    exact Std.isLE_compare.mp below

theorem maxNumber_cases (log : MemoryLog) :
    ((∀ n, log.get? n = none) ∧ log.maxNumber = 0) ∨
      ∃ order, log.get? log.maxNumber = some order := by
  cases greatest : log.orders.maxKey? with
  | none =>
    refine Or.inl ⟨fun n => ?_, by rw [maxNumber, greatest, Option.getD_none]⟩
    exact Std.TreeMap.getElem?_of_isEmpty (Std.TreeMap.maxKey?_eq_none_iff.mp greatest)
  | some top =>
    have member := (Std.TreeMap.maxKey?_eq_some_iff_mem_and_forall.mp greatest).1
    rw [maxNumber, greatest, Option.getD_some]
    exact Or.inr (Option.isSome_iff_exists.mp (Std.TreeMap.mem_iff_isSome_getElem?.mp member))

end MemoryLog

namespace Table

theorem isTaken_eq (t : Table) (n : OrderNumber) :
    t.rows.any (fun held => held.number = n) = (t.get? n).isSome := by
  rw [Bool.eq_iff_iff, List.any_eq_true, get?, List.find?_isSome]

theorem insert_fst (t : Table) (row : Order) :
    (t.insert row).1 = (t.get? row.number).isNone := by
  rw [insert, isTaken_eq]
  cases t.get? row.number <;> rfl

theorem insert_of_held {t : Table} {row held : Order} (found : t.get? row.number = some held) :
    t.insert row = (false, t) := by
  rw [insert, isTaken_eq, found]
  rfl

theorem get?_insert (t : Table) (row : Order) (n : OrderNumber) :
    (t.insert row).2.get? n = (t.get? n).or (if row.number = n then some row else none) := by
  have appended : ({ t with rows := t.rows ++ [row] } : Table).get? n =
      (t.get? n).or (if row.number = n then some row else none) := by
    by_cases eq : row.number = n
    · simp only [get?, List.find?_append, List.find?_singleton, eq, decide_true, if_true]
    · simp only [get?, List.find?_append, List.find?_singleton, eq, decide_false,
        Bool.false_eq_true, if_false]
  rw [insert, isTaken_eq]
  cases found : t.get? row.number with
  | none => exact appended
  | some held =>
    change t.get? n = _
    by_cases eq : row.number = n
    · rw [← eq, found, Option.some_or]
    · rw [if_neg eq, Option.or_none]

theorem length_insert (t : Table) (row : Order) :
    (t.insert row).2.rows.length = t.rows.length + (t.insert row).1.toNat := by
  unfold insert
  split
  · rfl
  · rw [List.length_append]
    rfl

theorem number_of_get? {t : Table} {n : OrderNumber} {row : Order} (found : t.get? n = some row) :
    row.number = n := by
  simpa using List.find?_some found

/-- In a table without double keys every row is found under its key. -/
theorem get?_of_mem {t : Table} (keyed : (t.rows.map Order.number).Nodup) {row : Order}
    (member : row ∈ t.rows) : t.get? row.number = some row := by
  unfold get?
  generalize t.rows = rows at keyed member
  induction rows with
  | nil => cases member
  | cons first rest ih =>
    rw [List.map_cons, List.nodup_cons] at keyed
    cases member with
    | head => exact List.find?_cons_of_pos (decide_eq_true rfl)
    | tail _ later =>
      have other : first.number ≠ row.number := by
        intro eq
        exact keyed.1 (List.mem_map.mpr ⟨row, later, eq.symm⟩)
      rw [List.find?_cons_of_neg (by simpa using other)]
      exact ih keyed.2 later

theorem keyed_insert {t : Table} (keyed : (t.rows.map Order.number).Nodup) (row : Order) :
    ((t.insert row).2.rows.map Order.number).Nodup := by
  unfold insert
  split
  · exact keyed
  · rename_i fresh
    rw [List.map_append, List.nodup_append]
    refine ⟨keyed, by simp, fun n held other new eq => fresh ?_⟩
    obtain ⟨found, member, number⟩ := List.mem_map.mp held
    rw [List.map_singleton, List.mem_singleton] at new
    rw [List.any_eq_true]
    exact ⟨found, member, decide_eq_true (number.trans (eq.trans new))⟩

theorem medium_insert (t : Table) (row : Order) : (t.insert row).2.medium = t.medium := by
  unfold insert
  split <;> rfl

theorem le_maxNumber {t : Table} {n : OrderNumber} {row : Order} (found : t.get? n = some row) :
    n ≤ t.maxNumber := by
  have member : n ∈ t.rows.map Order.number :=
    List.mem_map.mpr ⟨row, List.mem_of_find?_eq_some found, number_of_get? found⟩
  cases greatest : (t.rows.map Order.number).max? with
  | none =>
    rw [List.max?_eq_none_iff] at greatest
    rw [greatest] at member
    cases member
  | some top =>
    rw [maxNumber, greatest, Option.getD_some]
    exact (List.max?_eq_some_iff.mp greatest).2 n member

theorem maxNumber_cases (t : Table) :
    ((∀ n, t.get? n = none) ∧ t.maxNumber = 0) ∨ ∃ row, t.get? t.maxNumber = some row := by
  cases greatest : (t.rows.map Order.number).max? with
  | none =>
    rw [List.max?_eq_none_iff, List.map_eq_nil_iff] at greatest
    refine Or.inl ⟨fun n => ?_, ?_⟩
    · rw [get?, greatest, List.find?_nil]
    · rw [maxNumber, greatest, List.map_nil, List.max?_nil, Option.getD_none]
  | some top =>
    obtain ⟨row, member, rfl⟩ := List.mem_map.mp (List.max?_eq_some_iff.mp greatest).1
    rw [maxNumber, greatest, Option.getD_some]
    refine Or.inr (Option.isSome_iff_exists.mp ?_)
    rw [get?, List.find?_isSome]
    exact ⟨row, member, by simp⟩

end Table

namespace OrderLog

/-- What an order log holds. -/
def Holds (log : OrderLog) (order : Order) : Prop := log.get? order.number = some order

@[simp] theorem insert_fst (log : OrderLog) (order : Order) :
    (log.insert order).1 = (log.get? order.number).isNone := by
  cases log with
  | memory log => exact log.insert_fst order
  | table log => exact log.insert_fst order

/-- An order whose number is held changes nothing. -/
theorem insert_of_held {log : OrderLog} {order held : Order}
    (found : log.get? order.number = some held) : log.insert order = (false, log) := by
  cases log with
  | memory log => simp only [insert, MemoryLog.insert_of_held found]
  | table log => simp only [insert, Table.insert_of_held found]

/-- The first write of a number stands; a later one is ignored. -/
theorem get?_insert (log : OrderLog) (order : Order) (n : OrderNumber) :
    (log.insert order).2.get? n =
      (log.get? n).or (if order.number = n then some order else none) := by
  cases log with
  | memory log => exact log.get?_insert order n
  | table log => exact log.get?_insert order n

theorem insertAll_cons (log : OrderLog) (order : Order) (rest : List Order) :
    (log.insertAll (order :: rest)).2 = ((log.insert order).2.insertAll rest).2 := rfl

/-- Of the orders of a batch, the first of each free number is added. -/
theorem get?_insertAll (log : OrderLog) (orders : List Order) (n : OrderNumber) :
    (log.insertAll orders).2.get? n =
      (log.get? n).or (orders.find? (fun order => order.number = n)) := by
  induction orders generalizing log with
  | nil =>
    rw [List.find?_nil, Option.or_none]
    rfl
  | cons order rest ih =>
    rw [insertAll_cons, ih, get?_insert, Option.or_assoc]
    by_cases eq : order.number = n
    · simp only [eq, if_true, List.find?_cons_of_pos, decide_true, Option.some_or]
    · simp only [eq, if_false, Option.none_or, List.find?_cons_of_neg, decide_false,
        Bool.false_eq_true, not_false_eq_true]

theorem get?_insert_self {log : OrderLog} {order : Order} (free : log.get? order.number = none) :
    (log.insert order).2.get? order.number = some order := by
  rw [get?_insert, free, Option.none_or, if_pos rfl]

/-- What is held stays as it is. -/
theorem get?_insert_of_some {log : OrderLog} {n : OrderNumber} {held : Order}
    (found : log.get? n = some held) (order : Order) :
    (log.insert order).2.get? n = some held := by
  rw [get?_insert, found, Option.some_or]

theorem get?_insertAll_of_some {log : OrderLog} {n : OrderNumber} {held : Order}
    (found : log.get? n = some held) (orders : List Order) :
    (log.insertAll orders).2.get? n = some held := by
  rw [get?_insertAll, found, Option.some_or]

/-- What is held after a write was held before or has just been written. -/
theorem get?_insert_cases {log : OrderLog} {order held : Order} {n : OrderNumber}
    (found : (log.insert order).2.get? n = some held) :
    log.get? n = some held ∨ log.get? n = none ∧ held = order ∧ order.number = n := by
  rw [get?_insert] at found
  cases before : log.get? n with
  | some _ =>
    rw [before, Option.some_or] at found
    exact Or.inl found
  | none =>
    rw [before, Option.none_or] at found
    by_cases eq : order.number = n
    · rw [if_pos eq] at found
      exact Or.inr ⟨rfl, (Option.some.inj found).symm, eq⟩
    · rw [if_neg eq] at found
      cases found

theorem get?_insertAll_cases {log : OrderLog} {orders : List Order} {held : Order}
    {n : OrderNumber} (found : (log.insertAll orders).2.get? n = some held) :
    log.get? n = some held ∨ log.get? n = none ∧ held ∈ orders ∧ held.number = n := by
  rw [get?_insertAll] at found
  cases before : log.get? n with
  | some _ =>
    rw [before, Option.some_or] at found
    exact Or.inl found
  | none =>
    rw [before, Option.none_or] at found
    exact Or.inr ⟨rfl, List.mem_of_find?_eq_some found, by simpa using List.find?_some found⟩

/-- No number that is held lies above the greatest number. -/
theorem le_maxNumber {log : OrderLog} {n : OrderNumber} {order : Order}
    (found : log.get? n = some order) : n ≤ log.maxNumber := by
  cases log with
  | memory log => exact MemoryLog.le_maxNumber found
  | table log => exact Table.le_maxNumber found

theorem maxNumber_cases (log : OrderLog) :
    ((∀ n, log.get? n = none) ∧ log.maxNumber = 0) ∨
      ∃ order, log.get? log.maxNumber = some order := by
  cases log with
  | memory log => exact log.maxNumber_cases
  | table log => exact log.maxNumber_cases

theorem length_insert (log : OrderLog) (order : Order) :
    (log.insert order).2.all.length = log.all.length + (log.insert order).1.toNat := by
  cases log with
  | memory log => exact log.length_insert order
  | table log =>
    change ((log.insert order).2.rows.mergeSort _).length = (log.rows.mergeSort _).length + _
    rw [List.length_mergeSort, List.length_mergeSort]
    exact log.length_insert order

/-- A batch reports by how many orders the log has grown. -/
theorem length_insertAll (log : OrderLog) (orders : List Order) :
    (log.insertAll orders).2.all.length = log.all.length + (log.insertAll orders).1 := by
  induction orders generalizing log with
  | nil => rfl
  | cons order rest ih =>
    have counted : (log.insertAll (order :: rest)).1 =
        ((log.insert order).2.insertAll rest).1 + (log.insert order).1.toNat := rfl
    rw [insertAll_cons, ih, length_insert, counted]
    omega

/-- A batch of which nothing is added changes nothing. -/
theorem insertAll_of_none {log : OrderLog} {orders : List Order}
    (nothing : (log.insertAll orders).1 = 0) : (log.insertAll orders).2 = log := by
  induction orders generalizing log with
  | nil => rfl
  | cons order rest ih =>
    have counted : (log.insertAll (order :: rest)).1 =
        ((log.insert order).2.insertAll rest).1 + (log.insert order).1.toNat := rfl
    cases found : log.get? order.number with
    | none =>
      rw [counted, insert_fst, found] at nothing
      simp at nothing
    | some held =>
      rw [insertAll_cons]
      rw [counted] at nothing
      rw [insert_of_held found] at nothing ⊢
      exact ih nothing

/-! ## Keyed logs -/

/-- Every order stands under its own number, and once only. -/
def Keyed : OrderLog → Prop
  | .memory log => ∀ n order, log.get? n = some order → order.number = n
  | .table log => (log.rows.map Order.number).Nodup

theorem Keyed.number {log : OrderLog} (keyed : log.Keyed) {n : OrderNumber} {order : Order}
    (found : log.get? n = some order) : order.number = n := by
  cases log with
  | memory log => exact keyed n order found
  | table log => exact Table.number_of_get? found

theorem keyed_insert {log : OrderLog} (keyed : log.Keyed) (order : Order) :
    (log.insert order).2.Keyed := by
  cases log with
  | memory log =>
    intro n held found
    rcases @get?_insert_cases (.memory log) _ _ _ found with old | ⟨_, rfl, number⟩
    · exact keyed n held old
    · exact number
  | table log => exact Table.keyed_insert keyed order

theorem keyed_insertAll {log : OrderLog} (keyed : log.Keyed) (orders : List Order) :
    (log.insertAll orders).2.Keyed := by
  induction orders generalizing log with
  | nil => exact keyed
  | cons order rest ih =>
    rw [insertAll_cons]
    exact ih (keyed_insert keyed order)

/-- The listing above a number gives just what is held above it. -/
theorem Keyed.mem_after {log : OrderLog} (keyed : log.Keyed) {n : OrderNumber} {order : Order} :
    order ∈ log.after n ↔ n < order.number ∧ log.get? order.number = some order := by
  cases log with
  | memory log =>
    change order ∈ log.orders.values.filter _ ↔ _
    rw [List.mem_filter, MemoryLog.mem_values_iff, decide_eq_true_iff]
    constructor
    · rintro ⟨⟨k, found⟩, above⟩
      refine ⟨above, ?_⟩
      change log.get? order.number = some order
      rwa [keyed k order found]
    · rintro ⟨above, found⟩
      exact ⟨⟨order.number, found⟩, above⟩
  | table log =>
    change order ∈ (log.rows.filter _).mergeSort _ ↔ _
    rw [List.mem_mergeSort, List.mem_filter, decide_eq_true_iff]
    constructor
    · rintro ⟨member, above⟩
      exact ⟨above, Table.get?_of_mem keyed member⟩
    · rintro ⟨above, found⟩
      exact ⟨List.mem_of_find?_eq_some found, above⟩

/-- The listing of a log gives just what is held. -/
theorem Keyed.mem_all {log : OrderLog} (keyed : log.Keyed) {order : Order} :
    order ∈ log.all ↔ log.Holds order := by
  cases log with
  | memory log =>
    change order ∈ log.orders.values ↔ log.get? order.number = some order
    rw [MemoryLog.mem_values_iff]
    constructor
    · rintro ⟨k, found⟩
      rwa [keyed k order found]
    · exact fun found => ⟨order.number, found⟩
  | table log =>
    change order ∈ log.rows.mergeSort _ ↔ log.get? order.number = some order
    rw [List.mem_mergeSort]
    exact ⟨fun member => Table.get?_of_mem keyed member, List.mem_of_find?_eq_some⟩

/-- The listing of a log strictly ascends. -/
theorem Keyed.ascending_all {log : OrderLog} (keyed : log.Keyed) :
    log.all.Pairwise fun a b => a.number < b.number := by
  cases log with
  | memory log =>
    change log.orders.values.Pairwise _
    rw [MemoryLog.values_eq, List.pairwise_map]
    refine Std.TreeMap.ordered_keys_toList.imp_of_mem ?_
    intro a b member_a member_b lower
    have number_a := keyed a.1 a.2 (Std.TreeMap.mem_toList_iff_getElem?_eq_some.mp member_a)
    have number_b := keyed b.1 b.2 (Std.TreeMap.mem_toList_iff_getElem?_eq_some.mp member_b)
    rw [number_a, number_b]
    exact Std.compare_eq_lt.mp lower
  | table log => exact ascending_mergeSort Order.number keyed

/-- The listing above a number strictly ascends. -/
theorem Keyed.ascending_after {log : OrderLog} (keyed : log.Keyed) {n : OrderNumber} :
    (log.after n).Pairwise fun a b => a.number < b.number := by
  cases log with
  | memory log =>
    have ascending : log.orders.values.Pairwise fun a b => a.number < b.number :=
      Keyed.ascending_all keyed
    exact ascending.filter _
  | table log =>
    have apart : ((log.rows.filter fun row => n < row.number).map Order.number).Nodup :=
      keyed.sublist (List.filter_sublist.map _)
    exact ascending_mergeSort Order.number apart

/-! ## Logs that survive -/

/-- Whether a log is the same when it is opened again. -/
def isLasting : OrderLog → Bool
  | .memory _ => false
  | .table log =>
    match log.medium with
    | .inMemory => false
    | .onFile _ => true

theorem reopen_of_lasting {log : OrderLog} (lasting : log.isLasting = true) : log.reopen = log := by
  cases log with
  | memory log => cases lasting
  | table log =>
    obtain ⟨medium, rows⟩ := log
    cases medium with
    | inMemory => cases lasting
    | onFile connections => rfl

/-- A log that is not lasting is empty when it is opened again. -/
theorem get?_reopen_of_fleeting {log : OrderLog} (fleeting : log.isLasting = false)
    (n : OrderNumber) : log.reopen.get? n = none := by
  cases log with
  | memory log => exact Std.TreeMap.getElem?_emptyc
  | table log =>
    obtain ⟨medium, rows⟩ := log
    cases medium with
    | inMemory => rfl
    | onFile connections => cases fleeting

theorem isLasting_reopen (log : OrderLog) : log.reopen.isLasting = log.isLasting := by
  cases log with
  | memory log => rfl
  | table log =>
    obtain ⟨medium, rows⟩ := log
    cases medium <;> rfl

theorem keyed_reopen {log : OrderLog} (keyed : log.Keyed) : log.reopen.Keyed := by
  cases lasting : log.isLasting with
  | true => rwa [reopen_of_lasting lasting]
  | false =>
    cases log with
    | memory log =>
      intro n order found
      cases (get?_reopen_of_fleeting lasting n).symm.trans found
    | table log =>
      obtain ⟨medium, rows⟩ := log
      cases medium with
      | inMemory => exact List.nodup_nil
      | onFile connections => cases lasting

theorem isLasting_insert (log : OrderLog) (order : Order) :
    (log.insert order).2.isLasting = log.isLasting := by
  cases log with
  | memory log => rfl
  | table log =>
    change (OrderLog.table (log.insert order).2).isLasting = _
    simp only [isLasting, Table.medium_insert]

theorem isLasting_insertAll (log : OrderLog) (orders : List Order) :
    (log.insertAll orders).2.isLasting = log.isLasting := by
  induction orders generalizing log with
  | nil => rfl
  | cons order rest ih => rw [insertAll_cons, ih, isLasting_insert]

end OrderLog

end OrderCluster
