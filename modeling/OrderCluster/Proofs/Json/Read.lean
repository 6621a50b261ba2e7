import OrderCluster.Json.Decode
import OrderCluster.Proofs.Json.Number
import OrderCluster.Proofs.Json.Text

/-!
# Reading JSON as it is written

What is written compactly is read back up to what follows it: single values, the items of an array
one by one, and the members of an object, each of which takes what was read so far a step further.
Behind a value stands a comma, a closing bracket or nothing at all, and none of these could belong to
a number.
-/

namespace OrderCluster.Json

/-- A reader takes a text as a value, whatever may follow an integer follows it. -/
def Reads {α : Type} (read : Reader α) (text : Bytes) (a : α) : Prop :=
  ∀ rest, Stops rest → read (text ++ rest) = .ok (a, rest)

/-- A text that begins like a value: with no blank, no closing bracket and not like null. -/
def Opens (text : Bytes) : Prop :=
  ∃ b rest, text = b :: rest ∧ isBlank b = false ∧ b ≠ 0x5d ∧ b ≠ 0x6e

theorem skipBlanks_cons {b : UInt8} (solid : isBlank b = false) (rest : Bytes) :
    skipBlanks (b :: rest) = b :: rest :=
  List.dropWhile_cons_of_neg (by simp [solid])

theorem stops_comma (rest : Bytes) : Stops (0x2c :: rest) := stops_cons (by decide)

theorem stops_bracket (rest : Bytes) : Stops (0x5d :: rest) := stops_cons (by decide)

theorem stops_brace (rest : Bytes) : Stops (0x7d :: rest) := stops_cons (by decide)

theorem isBlank_of_isDigit {b : UInt8} (digit : isDigit b = true) : isBlank b = false := by
  have all : ∀ n < 256, isDigit (UInt8.ofNat n) = false ∨ isBlank (UInt8.ofNat n) = false := by
    decide +kernel
  rcases all b.toNat b.toNat_lt with no_digit | solid
  · rw [UInt8.ofNat_toNat, digit] at no_digit
    cases no_digit
  · rwa [UInt8.ofNat_toNat] at solid

theorem ne_of_isDigit {b c : UInt8} (digit : isDigit b = true) (other : isDigit c = false) :
    b ≠ c := by
  rintro rfl
  rw [digit] at other
  cases other

/-- A number begins with its first digit. -/
theorem digits_cons (n : Nat) : ∃ b rest, digits n = b :: rest ∧ isDigit b = true := by
  obtain ⟨b, rest, eq⟩ := List.exists_cons_of_ne_nil (digits_ne_nil n)
  exact ⟨b, rest, eq, isDigit_of_mem_digits b (eq ▸ List.mem_cons_self)⟩

/-! ## Single values -/

theorem reads_flag (b : Bool) : Reads readFlag (Json.bool b).compact b := by
  intro rest _
  cases b <;> rfl

theorem reads_string (s : String) : Reads readString (writeText s) s := by
  intro rest _
  rw [writeText_append, readString, skipBlanks_cons (by decide)]
  exact readText_escaped s rest

/-- An integer of at most 64 bits is read back. -/
theorem reads_integer {least greatest : Int} (low : Int64.minValue.toInt ≤ least)
    (high : greatest ≤ wordMax) (i : { i : Int // least ≤ i ∧ i ≤ greatest }) :
    Reads (readInteger least greatest) (writeInteger i.1) i := by
  intro rest stops
  obtain ⟨i, above, below⟩ := i
  have bound : Int64.minValue.toInt = -9223372036854775808 := rfl
  have word : (wordMax : Int) = 18446744073709551615 := rfl
  by_cases negative : i < 0
  · have fits : i.natAbs ≤ wordMax := by omega
    have number : readNumber true (digits i.natAbs ++ rest) = .ok (.integer i, rest) := by
      have back : -(i.natAbs : Int) = i := by omega
      have accepted : (1 ≤ i.natAbs && Int64.minValue.toInt ≤ -(i.natAbs : Int)) = true := by
        simp only [Bool.and_eq_true, decide_eq_true_eq]
        omega
      rw [readNumber_digits fits true stops, accepted, back]
      rfl
    simp only [writeInteger, if_pos negative, readInteger, List.cons_append]
    rw [skipBlanks_cons (by decide)]
    simp only [if_true, number]
    exact dif_pos ⟨above, below⟩
  · have fits : i.natAbs ≤ wordMax := by omega
    have number : readNumber false (digits i.natAbs ++ rest) = .ok (.integer i, rest) := by
      have back : (i.natAbs : Int) = i := by omega
      rw [readNumber_digits fits false stops, back]
      rfl
    obtain ⟨b, more, eq, digit⟩ := digits_cons i.natAbs
    rw [eq, List.cons_append] at number
    simp only [writeInteger, if_neg negative, readInteger, eq, List.cons_append]
    rw [skipBlanks_cons (isBlank_of_isDigit digit)]
    simp only [ne_of_isDigit digit (by decide : isDigit 0x2d = false), if_false, digit, if_true,
      number]
    exact dif_pos ⟨above, below⟩

/-- A name is found at its position. -/
theorem indexOf?_get {names : List String} (differ : names.Nodup) (i : Fin names.length) :
    indexOf? (names.get i) names = some i := by
  induction names with
  | nil => exact i.elim0
  | cons n names ih =>
    obtain ⟨fresh, differ⟩ := List.nodup_cons.mp differ
    cases i using Fin.cases with
    | zero => exact if_pos rfl
    | succ i =>
      have other : n ≠ names.get i := by
        rintro rfl
        exact fresh (List.get_mem names i)
      exact (if_neg other).trans (congrArg (Option.map Fin.succ) (ih differ i))

theorem reads_choice {names : List String} (differ : names.Nodup) (i : Fin names.length) :
    Reads (readChoice names) (writeText (names.get i)) i := by
  intro rest _
  have text := readText_escaped (names.get i) rest
  rw [writeText_append, readChoice, skipBlanks_cons (by decide)]
  simp only [readName]
  rw [skipBlanks_cons (by decide)]
  simp only [text, ok_bind, indexOf?_get differ]
  rfl

/-- A value that does not begin like null is read as a value. -/
theorem reads_optional {α : Type} {read : Reader α} {text : Bytes} {a : α}
    (reads : Reads read text a) (opens : Opens text) : Reads (readOptional read) text (some a) := by
  obtain ⟨b, more, rfl, solid, _, no_null⟩ := opens
  intro rest stops
  have inner := reads rest stops
  rw [List.cons_append] at inner ⊢
  rw [readOptional, skipBlanks_cons solid]
  split
  · rename_i eq
    exact absurd (List.cons.inj eq).1 no_null
  · rw [inner]
    rfl

/-! ## Arrays -/

theorem commas_cons (text : Bytes) (texts : List Bytes) :
    commas (text :: texts) = text ++ texts.flatMap (0x2c :: ·) := by
  induction texts generalizing text with
  | nil => rw [commas, List.flatMap_nil, List.append_nil]
  | cons next texts ih =>
    rw [commas, ih next, List.flatMap_cons, List.cons_append]
    exact List.cons_ne_nil _ _

/-- Each text behind the first takes at least its comma. -/
theorem length_le_commas (text : Bytes) (texts : List Bytes) :
    texts.length ≤ (commas (text :: texts)).length := by
  have behind : texts.length ≤ (texts.flatMap (0x2c :: ·)).length := by
    induction texts with
    | nil => exact Nat.zero_le _
    | cons next texts ih =>
      rw [List.flatMap_cons, List.length_append, List.length_cons, List.length_cons]
      omega
  rw [commas_cons, List.length_append]
  omega

theorem compactItems_eq (items : List Json) : compactItems items = items.map compact := by
  induction items with
  | nil => rfl
  | cons item items ih => rw [compactItems, ih, List.map_cons]

theorem nextItem_first {text : Bytes} (opens : Opens text) (rest : Bytes) :
    nextItem true (text ++ rest) = .ok (some (text ++ rest)) := by
  obtain ⟨b, more, rfl, solid, no_end, _⟩ := opens
  simp only [List.cons_append, nextItem]
  rw [skipBlanks_cons solid]
  simp only [if_neg no_end, if_true]

theorem nextItem_comma {text : Bytes} (opens : Opens text) (rest : Bytes) :
    nextItem false (0x2c :: (text ++ rest)) = .ok (some (text ++ rest)) := by
  obtain ⟨b, more, rfl, solid, no_end, _⟩ := opens
  rw [List.cons_append, nextItem, skipBlanks_cons (by decide)]
  simp only [Bool.false_eq_true, if_false, if_true]
  rw [skipBlanks_cons solid, if_neg (by decide)]
  split
  · rename_i eq
    cases eq
  · rename_i eq
    exact absurd (List.cons.inj eq).1 no_end
  · rfl

section Items

variable {α : Type} {read : Reader α} {write : α → Bytes}

theorem readItemsWith_next {fuel : Nat} {first : Bool} {s behind rest tail : Bytes} {a : α}
    {items : List α} (next : nextItem first s = .ok (some behind))
    (item : read behind = .ok (a, rest))
    (others : readItemsWith read fuel false rest = .ok (items, tail)) :
    readItemsWith read (fuel + 1) first s = .ok (a :: items, tail) := by
  simp only [readItemsWith, next, item, others, ok_bind]
  rfl

/-- What stands behind an item: a comma and the next one, or the closing bracket. -/
theorem stops_items (items : List α) (rest : Bytes) :
    Stops ((items.map write).flatMap (0x2c :: ·) ++ 0x5d :: rest) := by
  cases items with
  | nil => exact stops_bracket rest
  | cons next items => exact stops_comma _

/-- The items behind the first are read up to the closing bracket. -/
theorem readItemsWith_rest (reads : ∀ a, Reads read (write a) a) (opens : ∀ a, Opens (write a))
    (rest : Bytes) (items : List α) {fuel : Nat} (enough : items.length < fuel) :
    readItemsWith read fuel false ((items.map write).flatMap (0x2c :: ·) ++ 0x5d :: rest) =
      .ok (items, rest) := by
  -- Each item takes one unit of fuel, and the closing bracket takes the last one.
  obtain ⟨fuel, rfl⟩ := Nat.exists_eq_succ_of_ne_zero (Nat.ne_zero_of_lt enough)
  induction items generalizing fuel with
  | nil => rfl
  | cons a items ih =>
    obtain ⟨fuel, rfl⟩ :=
      Nat.exists_eq_succ_of_ne_zero (Nat.ne_zero_of_lt (Nat.lt_of_succ_lt_succ enough))
    refine readItemsWith_next ?_ (reads a _ (stops_items items rest))
      (ih fuel (Nat.lt_of_succ_lt_succ enough))
    rw [List.map_cons, List.flatMap_cons, List.append_assoc, List.cons_append]
    exact nextItem_comma (opens a) _

/-- A list is read back item by item. -/
theorem reads_list (reads : ∀ a, Reads read (write a) a) (opens : ∀ a, Opens (write a))
    (items : List α) :
    Reads (readList read) (0x5b :: (commas (items.map write) ++ [0x5d])) items := by
  intro rest _
  rw [List.cons_append, List.append_assoc, List.singleton_append, readList,
    skipBlanks_cons (by decide)]
  cases items with
  | nil => rfl
  | cons a items =>
    have enough : items.length < (commas ((a :: items).map write) ++ 0x5d :: rest).length := by
      have bound := length_le_commas (write a) (items.map write)
      rw [List.length_map] at bound
      rw [List.map_cons, List.length_append, List.length_cons]
      omega
    refine readItemsWith_next ?_ (reads a _ (stops_items items rest))
      (readItemsWith_rest reads opens rest items enough)
    rw [List.map_cons, commas_cons, List.append_assoc]
    exact nextItem_first (opens a) _

end Items

/-! ## Objects -/

theorem readColon_colon (rest : Bytes) : readColon (0x3a :: rest) = .ok rest := by
  rw [readColon, skipBlanks_cons (by decide)]
  rfl

theorem closeObject_brace (rest : Bytes) : closeObject (0x7d :: rest) = .ok rest := by
  rw [closeObject, skipBlanks_cons (by decide)]
  rfl

/-- The slots that members leave, each of them read in turn. -/
inductive Takes {σ : Type} (member : String → σ → Reader σ) :
    σ → List (String × Json) → σ → Prop
  | nil (slots : σ) : Takes member slots [] slots
  | cons {slots next last : σ} {name : String} {value : Json} {members : List (String × Json)}
      (reads : Reads (member name slots) (0x3a :: value.compact) next)
      (rest : Takes member next members last) : Takes member slots ((name, value) :: members) last

/-- Members that pass the other slots by leave their own slots as they would alone. -/
theorem Takes.lift {σ τ : Type} {member : String → σ → Reader σ} {outer : String → τ → Reader τ}
    {name : String} {within : σ → τ}
    (passes : ∀ {key text slots next}, name ≠ key → Reads (member key slots) text next →
      Reads (outer key (within slots)) text (within next))
    {slots last : σ} {members : List (String × Json)} (takes : Takes member slots members last)
    (other : ∀ m ∈ members, name ≠ m.1) : Takes outer (within slots) members (within last) := by
  induction takes with
  | nil slots => exact .nil _
  | @cons slots next last key value members reads _ ih =>
    exact .cons (passes (other (key, value) List.mem_cons_self) reads)
      (ih fun m among => other m (List.mem_cons_of_mem _ among))

theorem compactMembers_cons (name : String) (value : Json) (members : List (String × Json)) :
    compactMembers ((name, value) :: members) =
      (writeText name ++ 0x3a :: value.compact) :: compactMembers members := by
  rw [compactMembers]

theorem length_compactMembers (members : List (String × Json)) :
    (compactMembers members).length = members.length := by
  induction members with
  | nil => rfl
  | cons member members ih => rw [compactMembers_cons, List.length_cons, List.length_cons, ih]

/-- What stands behind a member: a comma and the next one, or the closing brace. -/
theorem stops_members (members : List (String × Json)) (rest : Bytes) :
    Stops ((compactMembers members).flatMap (0x2c :: ·) ++ 0x7d :: rest) := by
  cases members with
  | nil => exact stops_brace rest
  | cons next members => exact stops_comma _

section Members

variable {σ : Type} {member : String → σ → Reader σ}

theorem readMembersWith_next {fuel : Nat} {first : Bool} {slots next last : σ} {name : String}
    {value : Json} {s rest tail : Bytes}
    (key : nextKey first s =
      .ok (some ((utf8 name).flatMap escapeByte ++ 0x22 :: (0x3a :: value.compact ++ rest))))
    (reads : Reads (member name slots) (0x3a :: value.compact) next) (stops : Stops rest)
    (others : readMembersWith member fuel false next rest = .ok (last, tail)) :
    readMembersWith member (fuel + 1) first slots s = .ok (last, tail) := by
  have text := readText_escaped name (0x3a :: value.compact ++ rest)
  simp only [readMembersWith, key, text, reads rest stops, others, ok_bind]

theorem nextKey_first (name : String) (rest : Bytes) :
    nextKey true (writeText name ++ rest) =
      .ok (some ((utf8 name).flatMap escapeByte ++ 0x22 :: rest)) := by
  rw [writeText_append, nextKey, skipBlanks_cons (by decide)]
  rfl

theorem nextKey_comma (name : String) (rest : Bytes) :
    nextKey false (0x2c :: (writeText name ++ rest)) =
      .ok (some ((utf8 name).flatMap escapeByte ++ 0x22 :: rest)) := by
  rw [writeText_append, nextKey, skipBlanks_cons (by decide)]
  simp only [Bool.false_eq_true, if_false, if_true]
  rw [skipBlanks_cons (by decide), if_neg (by decide)]
  rfl

/-- The members behind the first are read up to the closing brace. -/
theorem readMembersWith_rest (rest : Bytes) {slots last : σ} {members : List (String × Json)}
    (takes : Takes member slots members last) {fuel : Nat} (enough : members.length < fuel) :
    readMembersWith member fuel false slots
        ((compactMembers members).flatMap (0x2c :: ·) ++ 0x7d :: rest) =
      .ok (last, 0x7d :: rest) := by
  obtain ⟨fuel, rfl⟩ := Nat.exists_eq_succ_of_ne_zero (Nat.ne_zero_of_lt enough)
  induction takes generalizing fuel with
  | nil slots => rfl
  | @cons slots next last name value members reads takes ih =>
    obtain ⟨fuel, rfl⟩ :=
      Nat.exists_eq_succ_of_ne_zero (Nat.ne_zero_of_lt (Nat.lt_of_succ_lt_succ enough))
    refine readMembersWith_next ?_ reads (stops_members members rest)
      (ih fuel (Nat.lt_of_succ_lt_succ enough))
    rw [compactMembers_cons, List.flatMap_cons, List.append_assoc, List.cons_append,
      List.append_assoc]
    exact nextKey_comma name _

/-- The members of an object are read up to its closing brace. -/
theorem readMembersWith_object (rest : Bytes) {slots last : σ} {members : List (String × Json)}
    (takes : Takes member slots members last) :
    readMembersWith member ((commas (compactMembers members) ++ 0x7d :: rest).length + 1) true slots
        (commas (compactMembers members) ++ 0x7d :: rest) =
      .ok (last, 0x7d :: rest) := by
  cases takes with
  | nil => rfl
  | @cons _ next _ name value members reads takes =>
    have enough : members.length <
        (commas (compactMembers ((name, value) :: members)) ++ 0x7d :: rest).length := by
      have bound := length_le_commas (writeText name ++ 0x3a :: value.compact)
        (compactMembers members)
      rw [length_compactMembers] at bound
      rw [compactMembers_cons, List.length_append, List.length_cons]
      omega
    refine readMembersWith_next ?_ reads (stops_members members rest)
      (readMembersWith_rest rest takes enough)
    rw [compactMembers_cons, commas_cons, List.append_assoc, List.append_assoc]
    exact nextKey_first name _

end Members

end OrderCluster.Json
