import OrderCluster.Counter

/-!
# What a counter clears

A counter clears a number when it stands strictly above it, or when it is exhausted and mints
nothing more. Counters only move upwards, so what is cleared once stays cleared, and resetting a
counter above a number that it clears does not move it.
-/

namespace OrderCluster

namespace OrderNumber

theorem le_last (n : OrderNumber) : n ≤ last := Int64.le_maxValue n

theorem last_le_iff {n : OrderNumber} : last ≤ n ↔ n = last := Int64.maxValue_le_iff

/-- Below the greatest number, addition does not wrap. -/
theorem lt_add_one {n : OrderNumber} (h : n ≠ last) : n < n + 1 := by
  have bound : n ≠ Int64.maxValue := h
  grind

theorem add_one_le {m n : OrderNumber} (h : m < n) : m + 1 ≤ n := by
  have bound : n ≤ Int64.maxValue := Int64.le_maxValue n
  grind

theorem above_last : last.above = last := by simp [above]

theorem above_of_ne {n : OrderNumber} (h : n ≠ last) : n.above = n + 1 := by simp [above, h]

theorem lt_above {n : OrderNumber} (h : n ≠ last) : n < n.above := by
  rw [above_of_ne h]
  exact lt_add_one h

theorem above_le {m n : OrderNumber} (h : m < n) : m.above ≤ n := by
  have hm : m ≠ last := by
    intro eq
    rw [eq] at h
    exact Int64.lt_irrefl (Int64.lt_of_lt_of_le h (le_last n))
  rw [above_of_ne hm]
  exact add_one_le h

/-- The successor as a whole number: it stays at the greatest number. -/
theorem toInt_above (n : OrderNumber) : n.above.toInt = min (n.toInt + 1) last.toInt := by
  have bound : n.toInt ≤ 9223372036854775807 := Int.le_sub_one_of_lt n.toInt_lt
  have low := n.le_toInt
  have top : last.toInt = 9223372036854775807 := rfl
  by_cases h : n = last
  · rw [h, above_last, top]
    rfl
  · have ne : n.toInt ≠ 9223372036854775807 := fun eq => h (Int64.toInt_inj.mp (eq.trans top.symm))
    rw [above_of_ne h, Int64.toInt_add, top, Int64.toInt_one]
    rw [Int.bmod_eq_of_le] <;> omega

end OrderNumber

namespace Counter

/-- The counter stands strictly above a number, or mints nothing more. -/
def Clears (c : Counter) (n : OrderNumber) : Prop := n < c.next ∨ c.next = OrderNumber.last

theorem Clears.mono {c c' : Counter} {n : OrderNumber} (h : c.Clears n) (le : c.next ≤ c'.next) :
    c'.Clears n := by
  rcases h with below | exhausted
  · exact Or.inl (Int64.lt_of_lt_of_le below le)
  · rw [exhausted] at le
    exact Or.inr (OrderNumber.last_le_iff.mp le)

theorem Clears.of_le {c : Counter} {m n : OrderNumber} (h : c.Clears n) (le : m ≤ n) :
    c.Clears m := by
  rcases h with below | exhausted
  · exact Or.inl (Int64.lt_of_le_of_lt le below)
  · exact Or.inr exhausted

theorem clears_startingAbove {m n : OrderNumber} (le : m ≤ n) : (startingAbove n).Clears m := by
  by_cases h : n = OrderNumber.last
  · exact Or.inr (by simp [startingAbove, h, OrderNumber.above_last])
  · exact Or.inl (Int64.lt_of_le_of_lt le (OrderNumber.lt_above h))

theorem resetAbove_next (c : Counter) (n : OrderNumber) :
    (c.resetAbove n).next = if c.next ≤ n.above then n.above else c.next := rfl

theorem le_resetAbove (c : Counter) (n : OrderNumber) : c.next ≤ (c.resetAbove n).next := by
  rw [resetAbove_next]
  split
  · assumption
  · exact Int64.le_refl _

theorem above_le_resetAbove (c : Counter) (n : OrderNumber) : n.above ≤ (c.resetAbove n).next := by
  rw [resetAbove_next]
  split
  · exact Int64.le_refl _
  · rename_i h
    exact Int64.le_of_lt (Int64.not_le.mp h)

theorem clears_resetAbove (c : Counter) {m n : OrderNumber} (le : m ≤ n) :
    (c.resetAbove n).Clears m :=
  (clears_startingAbove le).mono (above_le_resetAbove c n)

/-- A reset leaves the greater of the old counter and the successor of the number. -/
theorem toInt_resetAbove (c : Counter) (n : OrderNumber) :
    (c.resetAbove n).next.toInt =
      max c.next.toInt (min (n.toInt + 1) OrderNumber.last.toInt) := by
  rw [resetAbove_next, ← OrderNumber.toInt_above]
  split
  · rename_i le
    exact (Int.max_eq_right (Int64.le_iff_toInt_le.mp le)).symm
  · rename_i gt
    exact (Int.max_eq_left (Int.le_of_lt (Int64.lt_iff_toInt_lt.mp (Int64.not_le.mp gt)))).symm

/-- Resetting above a number that is cleared already changes nothing. -/
theorem resetAbove_of_clears {c : Counter} {n : OrderNumber} (h : c.Clears n) :
    c.resetAbove n = c := by
  have le : n.above ≤ c.next := by
    rcases h with below | exhausted
    · exact OrderNumber.above_le below
    · rw [exhausted]
      exact OrderNumber.le_last _
  have eq : (c.resetAbove n).next = c.next := by
    rw [resetAbove_next]
    split
    · rename_i ge
      exact Int64.le_antisymm le ge
    · rfl
  cases c
  exact congrArg Counter.mk eq

theorem mint_of_exhausted {c : Counter} (h : c.next = OrderNumber.last) : c.mint = (none, c) := by
  simp [mint, exhausted, h]

theorem mint_of_ne {c : Counter} (h : c.next ≠ OrderNumber.last) :
    c.mint = (some c.next, ⟨c.next + 1⟩) := by
  simp [mint, exhausted, h]

/-- What minting can do: a counter that is not exhausted gives the number it stands at. -/
theorem mint_cases (c : Counter) :
    (c.next = OrderNumber.last ∧ c.mint = (none, c)) ∨
      (c.next ≠ OrderNumber.last ∧ c.mint = (some c.next, ⟨c.next + 1⟩)) := by
  by_cases h : c.next = OrderNumber.last
  · exact Or.inl ⟨h, mint_of_exhausted h⟩
  · exact Or.inr ⟨h, mint_of_ne h⟩

theorem le_mint (c : Counter) : c.next ≤ c.mint.2.next := by
  rcases mint_cases c with ⟨_, eq⟩ | ⟨h, eq⟩
  · rw [eq]
    exact Int64.le_refl _
  · rw [eq]
    exact Int64.le_of_lt (OrderNumber.lt_add_one h)

theorem mint_eq_some {c : Counter} {n : OrderNumber} (h : c.mint.1 = some n) :
    c.next = n ∧ c.mint.2 = ⟨n + 1⟩ ∧ n < n + 1 := by
  rcases mint_cases c with ⟨_, eq⟩ | ⟨ne, eq⟩
  · rw [eq] at h
    cases h
  · rw [eq] at h ⊢
    cases h
    exact ⟨rfl, rfl, OrderNumber.lt_add_one ne⟩

/-- A minted number lies below the counter from then on. -/
theorem lt_mint {c : Counter} {n : OrderNumber} (h : c.mint.1 = some n) : n < c.mint.2.next := by
  obtain ⟨_, eq, lt⟩ := mint_eq_some h
  rw [eq]
  exact lt

end Counter

end OrderCluster
