import OrderCluster.Proofs.Log

/-!
# Prefixes of a log

A log is a prefix of another when it holds nothing else and has no gaps: below all that it holds, it
holds whatever the other holds. A prefix stays one when the other log takes an order above all that
it holds, when the prefix takes an order of the other below which it misses nothing, and when it
takes a batch that itself has no gaps.
-/

namespace OrderCluster.OrderLog

/-- Below a number, one log holds whatever another holds. -/
def Reaches (log lead : OrderLog) (n : OrderNumber) : Prop :=
  ∀ k order, k < n → lead.get? k = some order → log.get? k = some order

/-- One log holds whatever another holds. -/
def Covers (log lead : OrderLog) : Prop :=
  ∀ k order, lead.get? k = some order → log.get? k = some order

/-- A log holds nothing that another does not hold, and has no gaps. -/
structure PrefixOf (log lead : OrderLog) : Prop where
  within : lead.Covers log
  closed : ∀ k order, log.get? k = some order → log.Reaches lead k

theorem Reaches.mono {log lead : OrderLog} {m n : OrderNumber} (h : log.Reaches lead n)
    (le : m ≤ n) : log.Reaches lead m :=
  fun k order below found => h k order (Int64.lt_of_lt_of_le below le) found

theorem Reaches.grow {log log' lead : OrderLog} {n : OrderNumber} (h : log.Reaches lead n)
    (grown : log'.Covers log) : log'.Reaches lead n :=
  fun k order below found => grown k order (h k order below found)

/-- Of a log that holds no more, no more is missed. -/
theorem Reaches.of_lead {log lead lead' : OrderLog} {n : OrderNumber} (h : log.Reaches lead n)
    (same : lead.Covers lead') : log.Reaches lead' n :=
  fun k order below found => h k order below (same k order found)

theorem Covers.refl (log : OrderLog) : log.Covers log := fun _ _ found => found

theorem Covers.reaches {log lead : OrderLog} (h : log.Covers lead) (n : OrderNumber) :
    log.Reaches lead n := fun k order _ found => h k order found

theorem Covers.trans {a b c : OrderLog} (hab : a.Covers b) (hbc : b.Covers c) : a.Covers c :=
  fun k order found => hab k order (hbc k order found)

theorem covers_insert (log : OrderLog) (order : Order) : (log.insert order).2.Covers log :=
  fun _ _ found => get?_insert_of_some found order

theorem covers_insertAll (log : OrderLog) (orders : List Order) :
    (log.insertAll orders).2.Covers log :=
  fun _ _ found => get?_insertAll_of_some found orders

theorem PrefixOf.refl (log : OrderLog) : log.PrefixOf log :=
  ⟨Covers.refl log, fun _ _ _ _ _ _ found => found⟩

theorem PrefixOf.of_lead {log lead lead' : OrderLog} (h : log.PrefixOf lead)
    (grown : lead'.Covers lead) (same : lead.Covers lead') : log.PrefixOf lead' :=
  ⟨grown.trans h.within, fun k order found => (h.closed k order found).of_lead same⟩

theorem prefixOf_of_empty {log : OrderLog} (empty : ∀ k, log.get? k = none) (lead : OrderLog) :
    log.PrefixOf lead := by
  constructor
  · intro k order found
    rw [empty] at found
    cases found
  · intro k order found
    rw [empty] at found
    cases found

/-! ## The other log takes an order above all that it holds -/

section Lead

variable {log lead : OrderLog} {order : Order}

/-- Below an order that was added on top, nothing is new. -/
theorem get?_of_insert_top {n k : OrderNumber} {held : Order} (below : k < n)
    (le : n ≤ order.number) (found : (lead.insert order).2.get? k = some held) :
    lead.get? k = some held := by
  rcases get?_insert_cases found with old | ⟨_, _, number⟩
  · exact old
  · rw [number] at le
    exact absurd (Int64.lt_of_lt_of_le below le) Int64.lt_irrefl

theorem Reaches.insert_lead {n : OrderNumber} (h : log.Reaches lead n) (le : n ≤ order.number) :
    log.Reaches (lead.insert order).2 n :=
  fun k held below found => h k held below (get?_of_insert_top below le found)

theorem PrefixOf.insert_lead (h : log.PrefixOf lead)
    (top : ∀ k held, lead.get? k = some held → k < order.number) :
    log.PrefixOf (lead.insert order).2 := by
  constructor
  · exact (covers_insert lead order).trans h.within
  · intro k held found
    exact (h.closed k held found).insert_lead (Int64.le_of_lt (top k held (h.within k held found)))

end Lead

/-! ## The prefix takes orders -/

section Follow

variable {log lead : OrderLog}

/-- A prefix may take an order of the other log below which it misses nothing. -/
theorem PrefixOf.insert (h : log.PrefixOf lead) {order : Order} (held : lead.Holds order)
    (reaches : log.Reaches lead order.number) : (log.insert order).2.PrefixOf lead := by
  constructor
  · intro k found_order found
    rcases get?_insert_cases found with old | ⟨_, rfl, rfl⟩
    · exact h.within k found_order old
    · exact held
  · intro k found_order found
    rcases get?_insert_cases found with old | ⟨_, _, rfl⟩
    · exact (h.closed k found_order old).grow (covers_insert log order)
    · exact reaches.grow (covers_insert log order)

/-- A batch that agrees with what is to be held puts each of its orders under its number. -/
theorem get?_insertAll_of_mem (h : lead.Covers log) {orders : List Order}
    (agree : ∀ order ∈ orders, lead.Holds order) {order : Order} (member : order ∈ orders) :
    (log.insertAll orders).2.get? order.number = some order := by
  have held := agree order member
  unfold Holds at held
  rw [get?_insertAll]
  cases before : log.get? order.number with
  | some old =>
    have same := h order.number old before
    rw [held] at same
    rw [Option.some_or, same]
  | none =>
    rw [Option.none_or]
    cases sent : orders.find? (fun other => other.number = order.number) with
    | none =>
      have missed := List.find?_eq_none.mp sent order member
      simp at missed
    | some other =>
      have number : other.number = order.number := by simpa using List.find?_some sent
      have same := agree other (List.mem_of_find?_eq_some sent)
      unfold Holds at same
      rw [number, held] at same
      exact same.symm

/-- A prefix may take a batch of orders of the other log, if together they have no gaps. -/
theorem PrefixOf.insertAll (h : log.PrefixOf lead) {orders : List Order}
    (agree : ∀ order ∈ orders, lead.Holds order)
    (no_gaps : ∀ order ∈ orders, ∀ k missed, k < order.number → lead.get? k = some missed →
      log.get? k = some missed ∨ missed ∈ orders ∧ missed.number = k) :
    (log.insertAll orders).2.PrefixOf lead := by
  constructor
  · intro k order found
    rcases get?_insertAll_cases found with old | ⟨_, member, rfl⟩
    · exact h.within k order old
    · exact agree order member
  · intro k order found
    rcases get?_insertAll_cases found with old | ⟨_, member, rfl⟩
    · exact (h.closed k order old).grow (covers_insertAll log orders)
    · intro j missed below held
      rcases no_gaps order member j missed below held with old | ⟨sent, rfl⟩
      · exact covers_insertAll log orders j missed old
      · exact get?_insertAll_of_mem h.within agree sent

end Follow

/-! ## Prefixes up to a number -/

/-- All numbers that are held are positive. -/
def Positive (log : OrderLog) : Prop := ∀ k order, log.get? k = some order → 0 < k

section Listing

variable {log lead : OrderLog}

/-- A prefix holds whatever the other log holds up to the greatest number of the prefix. -/
theorem PrefixOf.get?_of_le (h : log.PrefixOf lead) (positive : lead.Positive) {k : OrderNumber}
    {order : Order} (le : k ≤ log.maxNumber) (found : lead.get? k = some order) :
    log.get? k = some order := by
  rcases log.maxNumber_cases with ⟨_, zero⟩ | ⟨greatest, top⟩
  · rw [zero] at le
    exact absurd (Int64.lt_of_lt_of_le (positive k order found) le) Int64.lt_irrefl
  · by_cases eq : k = log.maxNumber
    · have same := h.within _ _ top
      rw [← eq, found] at same
      rw [eq, top, same]
    · exact h.closed _ _ top k order (Int64.lt_of_le_of_ne le eq) found

/-- A prefix lists just what the other log lists up to the greatest number of the prefix. -/
theorem PrefixOf.all_eq (h : log.PrefixOf lead) (positive : lead.Positive) (keyed : log.Keyed)
    (keyed_lead : lead.Keyed) :
    log.all = lead.all.filter (fun order => order.number ≤ log.maxNumber) := by
  refine eq_of_ascending keyed.ascending_all (keyed_lead.ascending_all.filter _) fun order => ?_
  rw [List.mem_filter, keyed.mem_all, keyed_lead.mem_all, decide_eq_true_iff]
  constructor
  · exact fun found => ⟨h.within _ _ found, le_maxNumber found⟩
  · exact fun ⟨found, le⟩ => h.get?_of_le positive le found

/-- A prefix that holds whatever the other log holds lists the same. -/
theorem PrefixOf.all_eq_of_covers (h : log.PrefixOf lead) (covers : log.Covers lead)
    (keyed : log.Keyed) (keyed_lead : lead.Keyed) : log.all = lead.all := by
  refine eq_of_ascending keyed.ascending_all keyed_lead.ascending_all fun order => ?_
  rw [keyed.mem_all, keyed_lead.mem_all]
  exact ⟨h.within _ _, covers _ _⟩

/-- What a prefix misses lies above all that it lists. -/
theorem PrefixOf.all_append (h : log.PrefixOf lead) (positive : lead.Positive)
    (keyed : log.Keyed) (keyed_lead : lead.Keyed) :
    lead.all = log.all ++ lead.all.filter (fun order => log.maxNumber < order.number) := by
  refine eq_of_ascending keyed_lead.ascending_all ?_ fun order => ?_
  · refine List.pairwise_append.mpr
      ⟨keyed.ascending_all, keyed_lead.ascending_all.filter _, fun a listed b missed => ?_⟩
    have above := of_decide_eq_true (List.mem_filter.mp missed).2
    exact Int64.lt_of_le_of_lt (le_maxNumber (keyed.mem_all.mp listed)) above
  · rw [List.mem_append, List.mem_filter, decide_eq_true_iff, keyed.mem_all, keyed_lead.mem_all]
    constructor
    · intro found
      by_cases le : order.number ≤ log.maxNumber
      · exact Or.inl (h.get?_of_le positive le found)
      · exact Or.inr ⟨found, Int64.not_le.mp le⟩
    · rintro (listed | ⟨found, _⟩)
      · exact h.within _ _ listed
      · exact found

end Listing

end OrderCluster.OrderLog
