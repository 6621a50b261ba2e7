import OrderCluster.Json.Number

/-!
# Integers as JSON text

An integer is written with as few digits as it needs, so what is written can be read back: the
digits end where something else begins, none of them is lost as long as the number fits a word, and
the first of several is no zero.
-/

namespace OrderCluster.Json

/-- What may follow an integer: neither a digit nor what would make it a real. -/
def Stops (s : Bytes) : Prop :=
  ∀ b ∈ s.head?, isDigit b = false ∧ b ≠ 0x2e ∧ b ≠ 0x65 ∧ b ≠ 0x45

theorem stops_nil : Stops [] := fun b h => by cases h

theorem stops_cons {b : UInt8} {s : Bytes}
    (stop : isDigit b = false ∧ b ≠ 0x2e ∧ b ≠ 0x65 ∧ b ≠ 0x45) : Stops (b :: s) := by
  intro c head
  cases head
  exact stop

/-! ## Digits -/

/-- The digit for a small number. -/
theorem toNat_digit {n : Nat} (small : n < 10) : (0x30 + n).toUInt8.toNat = 0x30 + n := by
  change (0x30 + n) % 256 = _
  omega

theorem isDigit_digit {n : Nat} (small : n < 10) : isDigit (0x30 + n).toUInt8 = true := by
  have value := toNat_digit small
  simp only [isDigit, Bool.and_eq_true, decide_eq_true_eq, UInt8.le_iff_toNat_le, value]
  constructor
  · exact Nat.le_add_right _ _
  · change 0x30 + n ≤ 57
    omega

theorem digits_ne_nil (n : Nat) : digits n ≠ [] := by
  rw [digits]
  split
  · exact List.cons_ne_nil _ _
  · exact List.append_ne_nil_of_right_ne_nil _ (List.cons_ne_nil _ _)

theorem isDigit_of_mem_digits {n : Nat} : ∀ b ∈ digits n, isDigit b = true := by
  induction n using digits.induct with
  | case1 n small =>
    rw [digits, if_pos small]
    intro b among
    rw [List.mem_singleton.mp among]
    exact isDigit_digit small
  | case2 n large ih =>
    rw [digits, if_neg large]
    intro b among
    rcases List.mem_append.mp among with front | last
    · exact ih b front
    · rw [List.mem_singleton.mp last]
      exact isDigit_digit (Nat.mod_lt _ (by omega))

/-- Only zero itself begins with a zero. -/
theorem head?_digits {n : Nat} (positive : n ≠ 0) : (digits n).head? ≠ some 0x30 := by
  induction n using digits.induct with
  | case1 n small =>
    rw [digits, if_pos small, List.head?_cons]
    intro eq
    have value := toNat_digit small
    rw [Option.some.inj eq] at value
    change 48 = 0x30 + n at value
    omega
  | case2 n large ih =>
    have first := ih (by omega)
    rw [digits, if_neg large, List.head?_append]
    cases eq : digits (n / 10) with
    | nil => exact absurd eq (digits_ne_nil _)
    | cons b more =>
      rw [eq] at first
      exact first

/-- Digits are gathered to the number that they stand for, if it fits a word. -/
theorem gatherWhole_digits {n : Nat} (fits : n ≤ wordMax) : gatherWhole (digits n) = (n, 0) := by
  induction n using digits.induct with
  | case1 n small =>
    rw [digits, if_pos small]
    have value := toNat_digit small
    simp only [gatherWhole, List.foldl_cons, List.foldl_nil, value]
    rw [if_pos]
    · simp
    · simp only [Nat.zero_mul, Nat.zero_add, Nat.add_sub_cancel_left, decide_true, Bool.true_and,
        decide_eq_true_eq]
      exact fits
  | case2 n large ih =>
    have value := toNat_digit (Nat.mod_lt n (by omega : 0 < 10))
    have shifted := ih (by omega)
    have sum : n / 10 * 10 + (0x30 + n % 10 - 0x30) = n := by omega
    rw [gatherWhole] at shifted
    rw [digits, if_neg large, gatherWhole, List.foldl_append, shifted]
    simp only [List.foldl_cons, List.foldl_nil, value, sum]
    rw [if_pos]
    simpa using fits

/-- The digits in front are taken up to what is none. -/
theorem takeDigits_append {front rest : Bytes} (all : ∀ b ∈ front, isDigit b = true)
    (ends : ∀ b ∈ rest.head?, isDigit b = false) : takeDigits (front ++ rest) = (front, rest) := by
  have none_behind : rest.takeWhile isDigit = [] ∧ rest.dropWhile isDigit = rest := by
    cases rest with
    | nil => exact ⟨rfl, rfl⟩
    | cons b rest =>
      have no_digit := ends b rfl
      rw [List.takeWhile_cons_of_neg (by simp [no_digit]),
        List.dropWhile_cons_of_neg (by simp [no_digit])]
      exact ⟨rfl, rfl⟩
  rw [takeDigits, List.takeWhile_append_of_pos all, List.dropWhile_append_of_pos all,
    none_behind.1, none_behind.2, List.append_nil]

/-! ## Integers -/

/-- A number without fraction and exponent, behind its sign. -/
theorem readNumber_whole {whole rest : Bytes} (some : whole ≠ [])
    (all : ∀ b ∈ whole, isDigit b = true) (no_zero : ∀ b more, whole ≠ 0x30 :: b :: more)
    (negative : Bool) (stops : Stops rest) :
    readNumber negative (whole ++ rest) =
      if (gatherWhole whole).2 ≠ 0 then readReal (gatherWhole whole).1 (gatherWhole whole).2 rest
      else if !negative then .ok (.integer (gatherWhole whole).1, rest)
      else if 1 ≤ (gatherWhole whole).1 &&
          Int64.minValue.toInt ≤ -((gatherWhole whole).1 : Int) then
        .ok (.integer (-(gatherWhole whole).1), rest)
      else .ok (.real, rest) := by
  have taken := takeDigits_append all fun b head => (stops b head).1
  have no_exponent : (rest.head?.any fun b => b = 0x65 || b = 0x45) = false := by
    cases rest with
    | nil => rfl
    | cons b rest =>
      obtain ⟨_, _, small, capital⟩ := stops b rfl
      simp [small, capital]
  unfold readNumber
  rw [taken]
  split
  · rename_i eq
    exact absurd (Prod.mk.inj eq).1 some
  · rename_i eq
    exact absurd (Prod.mk.inj eq).1 some
  · rename_i eq
    exact absurd (Prod.mk.inj eq).1 (no_zero _ _)
  · rename_i eq
    obtain ⟨rfl, rfl⟩ := Prod.mk.inj eq
    dsimp only
    split
    · exact absurd rfl (stops 0x2e rfl).2.1
    · simp only [no_exponent, Bool.or_false, decide_eq_true_eq]

/-- A number behind its sign, as it was written. -/
theorem readNumber_digits {n : Nat} (fits : n ≤ wordMax) (negative : Bool) {rest : Bytes}
    (stops : Stops rest) :
    readNumber negative (digits n ++ rest) =
      if !negative then .ok (.integer n, rest)
      else if 1 ≤ n && Int64.minValue.toInt ≤ -(n : Int) then .ok (.integer (-n), rest)
      else .ok (.real, rest) := by
  have no_zero : ∀ b more, digits n ≠ 0x30 :: b :: more := by
    intro b more leading
    have positive : n ≠ 0 := by
      rintro rfl
      rw [digits] at leading
      simp at leading
    exact head?_digits positive (by rw [leading, List.head?_cons])
  rw [readNumber_whole (digits_ne_nil n) isDigit_of_mem_digits no_zero negative stops,
    gatherWhole_digits fits]
  rfl

end OrderCluster.Json
