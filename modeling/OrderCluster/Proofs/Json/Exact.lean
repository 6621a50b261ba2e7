import OrderCluster.Json.Decode
import OrderCluster.Proofs.Json.Skip

/-!
# Readers that take exactly one value

A reader is exact if whatever it reads is one value, blanks in front of it aside, and what it reads
there does not depend on what stands behind. Then what a text is read as can be asked of the text
alone. All readers of single values are exact, and so is the reader of a list if that of its items
is.
-/

namespace OrderCluster.Json

/-- A text is read as a value, whatever follows that could be no part of it. -/
def Denotes {α : Type} (read : Reader α) (t : Bytes) (a : α) : Prop :=
  ∀ rest, Meets t rest → read (t ++ rest) = .ok (a, rest)

/-- What is read is one value, and what stands around it does not matter. -/
structure Exact {α : Type} (read : Reader α) : Prop where
  blank : ∀ {a : Bytes}, Blank a → ∀ s, read (a ++ s) = read s
  value : ∀ {s rest a}, read s = .ok (a, rest) →
    ∃ t, IsValue t ∧ s = t ++ rest ∧ Meets t rest ∧ Denotes read t a

section

variable {α : Type} {read : Reader α} {t : Bytes}

theorem Denotes.unique {a b : α} (first : Denotes read t a) (second : Denotes read t b) :
    a = b := by
  have same := first [] fun _ => stops_nil
  rw [second [] fun _ => stops_nil] at same
  exact (Prod.mk.inj (Except.ok.inj same)).1.symm

theorem Exact.skipBlanks (exact : Exact read) (s : Bytes) : read (skipBlanks s) = read s := by
  obtain ⟨a, blank, split⟩ := exists_blank s
  conv_rhs => rw [split]
  exact (exact.blank blank _).symm

/-- Reading a value comes to its end, and what is read is what the value alone is read as. -/
theorem Exact.iff (exact : Exact read) (value : IsValue t) {rest behind : Bytes}
    (meets : Meets t behind) {a : α} :
    read (t ++ behind) = .ok (a, rest) ↔ rest = behind ∧ Denotes read t a := by
  constructor
  · intro h
    obtain ⟨t', value', split, meets', denotes⟩ := exact.value h
    have skipped := skipValue_of_isValue value meets
    rw [split, skipValue_of_isValue value' meets', Except.ok.injEq] at skipped
    subst skipped
    rw [List.append_cancel_right split]
    exact ⟨rfl, denotes⟩
  · rintro ⟨rfl, denotes⟩
    exact denotes _ meets

end

/-! ## Single values -/

theorem Blank.unexpected_append {a : Bytes} (blank : Blank a) (s : Bytes) :
    unexpected (a ++ s) = unexpected s := by
  simp only [unexpected, blank.skipBlanks_append]

/-- What does not begin like a number may be followed by anything. -/
theorem meets_of_not_signed {lead : Bytes} (blank : Blank lead) {b : UInt8}
    (solid : isBlank b = false) (no_sign : b ≠ 0x2d) (no_digit : isDigit b = false)
    (more rest : Bytes) : Meets (lead ++ b :: more) rest := by
  intro signed
  rw [isSigned_append blank b solid, no_digit, Bool.or_false, decide_eq_true_eq] at signed
  exact absurd signed no_sign

theorem exact_flag : Exact readFlag where
  blank blank s := by simp only [readFlag, blank.skipBlanks_append, blank.unexpected_append]
  value {s rest a} h := by
    unfold readFlag at h
    split at h
    · rename_i more eq
      obtain ⟨lead, blank, rfl⟩ := exists_of_skipBlanks eq
      obtain ⟨behind, word, made⟩ := bind_eq_ok_iff.mp h
      obtain ⟨rfl, rfl⟩ := Prod.mk.inj (Except.ok.inj made)
      refine ⟨lead ++ ascii "true", .word blank (by simp), ?_, ?_, fun rest' _ => ?_⟩
      · rw [expect_eq_ok_iff.mp word, List.append_assoc]
        rfl
      · exact meets_of_not_signed blank (by decide) (by decide) (by decide) _ _
      · rw [List.append_assoc, readFlag, blank.skipBlanks_append]
        rfl
    · rename_i more eq
      obtain ⟨lead, blank, rfl⟩ := exists_of_skipBlanks eq
      obtain ⟨behind, word, made⟩ := bind_eq_ok_iff.mp h
      obtain ⟨rfl, rfl⟩ := Prod.mk.inj (Except.ok.inj made)
      refine ⟨lead ++ ascii "false", .word blank (by simp), ?_, ?_, fun rest' _ => ?_⟩
      · rw [expect_eq_ok_iff.mp word, List.append_assoc]
        rfl
      · exact meets_of_not_signed blank (by decide) (by decide) (by decide) _ _
      · rw [List.append_assoc, readFlag, blank.skipBlanks_append]
        rfl
    · cases h

theorem exact_string : Exact readString where
  blank blank s := by simp only [readString, blank.skipBlanks_append, blank.unexpected_append]
  value {s rest a} h := by
    unfold readString at h
    split at h
    · rename_i more eq
      obtain ⟨lead, blank, rfl⟩ := exists_of_skipBlanks eq
      obtain ⟨t, spelling, rfl, same⟩ := isSpelling_of_readText h
      refine ⟨lead ++ 0x22 :: (t ++ [0x22]), .string blank spelling, ?_, ?_, fun rest' _ => ?_⟩
      · simp only [List.append_assoc, List.cons_append, List.nil_append]
      · exact meets_of_not_signed blank (by decide) (by decide) (by decide) _ _
      · simp only [List.append_assoc, List.cons_append, List.nil_append, readString]
        rw [blank.skipBlanks_cons (by decide)]
        exact same rest'
    · cases h

theorem readReal_ne_integer {word : Nat} {start : Int} {s rest : Bytes} {i : Int} :
    readReal word start s ≠ .ok (.integer i, rest) := by
  intro h
  unfold readReal at h
  split at h
  · split at h
    · obtain ⟨⟨⟨negative, digits⟩, more⟩, -, made⟩ := bind_eq_ok_iff.mp h
      dsimp only at made
      split at made
      · split at made
        · cases made
        · cases made
      · split at made
        · cases made
        · cases made
    · split at h
      · cases h
      · cases h
  · split at h
    · cases h
    · cases h

/-- An integer is a whole number, and nothing behind it could be a part of it. -/
theorem exists_whole {negative : Bool} {s rest : Bytes} {i : Int}
    (h : readNumber negative s = .ok (.integer i, rest)) :
    ∃ t, IsWhole t ∧ s = t ++ rest ∧ Stops rest := by
  unfold readNumber at h
  split at h
  · cases h
  · cases h
  · cases h
  · rename_i whole behind no_end no_more no_zero taken
    have some : whole ≠ [] := by
      rintro rfl
      cases behind with
      | nil => exact no_end rfl rfl
      | cons b more => exact no_more b more rfl rfl
    obtain ⟨digits, rfl, ends⟩ := digits_of_take taken some
    dsimp only at h
    split at h
    · split at h
      · cases h
      · cases h
      · exact absurd h readReal_ne_integer
    · rename_i no_point
      split at h
      · exact absurd h readReal_ne_integer
      · rename_i no_exponent
        have behind_eq : behind = rest := by
          split at h
          · exact (Prod.mk.inj (Except.ok.inj h)).2
          · split at h
            · exact (Prod.mk.inj (Except.ok.inj h)).2
            · exact (Prod.mk.inj (Except.ok.inj h)).2
        subst behind_eq
        refine ⟨whole, ⟨digits, no_zero⟩, rfl, fun b head => ⟨ends b head, ?_⟩⟩
        obtain ⟨more, rfl⟩ := List.head?_eq_some_iff.mp head
        simp only [List.head?_cons, Option.any_some, Bool.or_eq_true, decide_eq_true_eq, not_or]
          at no_exponent
        refine ⟨?_, no_exponent.2⟩
        rintro rfl
        exact no_point more rfl

/-- Whatever follows an integer, it is the same integer. -/
theorem readNumber_behind {negative : Bool} {t rest behind : Bytes} {i : Int} (whole : IsWhole t)
    (stops : Stops rest) (stops' : Stops behind)
    (h : readNumber negative (t ++ rest) = .ok (.integer i, rest)) :
    readNumber negative (t ++ behind) = .ok (.integer i, behind) := by
  obtain ⟨⟨some, all⟩, no_zero⟩ := whole
  rw [readNumber_whole some all no_zero negative stops] at h
  rw [readNumber_whole some all no_zero negative stops']
  split at h
  · exact absurd h readReal_ne_integer
  · rename_i kept
    rw [if_neg kept]
    split at h
    · rename_i positive
      rw [if_pos positive, (Prod.mk.inj (Except.ok.inj h)).1]
    · rename_i minus
      rw [if_neg minus]
      split at h
      · rename_i fits
        rw [if_pos fits, (Prod.mk.inj (Except.ok.inj h)).1]
      · cases h

/-- An integer that was read, if it lies within its bounds. -/
def bounded (least greatest : Int) (read : Except Fault (Number × Bytes)) :
    Except Fault ({ i : Int // least ≤ i ∧ i ≤ greatest } × Bytes) := do
  match ← read with
  | (.real, _) => .error .mismatched
  | (.integer i, rest) =>
    if h : least ≤ i ∧ i ≤ greatest then return (⟨i, h⟩, rest) else .error .mismatched

theorem bounded_eq_ok_iff {least greatest : Int} {read : Except Fault (Number × Bytes)}
    {a : { i : Int // least ≤ i ∧ i ≤ greatest }} {rest : Bytes} :
    bounded least greatest read = .ok (a, rest) ↔ read = .ok (.integer a.1, rest) := by
  constructor
  · intro h
    obtain ⟨⟨number, behind⟩, rfl, made⟩ := bind_eq_ok_iff.mp h
    cases number with
    | real => cases made
    | integer i =>
      dsimp only at made
      split at made
      · obtain ⟨rfl, rfl⟩ := Prod.mk.inj (Except.ok.inj made)
        rfl
      · cases made
  · rintro rfl
    exact dif_pos a.2

theorem readInteger_cons (least greatest : Int) {lead : Bytes} (blank : Blank lead) {b : UInt8}
    (solid : isBlank b = false) (more : Bytes) :
    readInteger least greatest (lead ++ b :: more) =
      if b = 0x2d then bounded least greatest (readNumber true more)
      else if isDigit b then bounded least greatest (readNumber false (b :: more))
      else .error (unexpected (lead ++ b :: more)) := by
  rw [readInteger, blank.skipBlanks_cons solid]
  rfl

/-- What is read of a whole number behind a sign. -/
theorem isNumber_of_isWhole {t : Bytes} (whole : IsWhole t) : IsNumber t := by
  have number := IsNumber.intro whole .none .none
  rwa [List.append_nil, List.append_nil] at number

theorem exact_integer (least greatest : Int) : Exact (readInteger least greatest) where
  blank blank s := by simp only [readInteger, blank.skipBlanks_append, blank.unexpected_append]
  value {s rest a} h := by
    obtain ⟨lead, blank, split⟩ := exists_blank s
    cases eq : skipBlanks s with
    | nil =>
      simp only [readInteger, eq] at h
      cases h
    | cons b more =>
      have solid := isBlank_of_skipBlanks eq
      rw [eq] at split
      subst split
      rw [readInteger_cons least greatest blank solid] at h
      split at h
      · rename_i minus
        subst minus
        have number := bounded_eq_ok_iff.mp h
        obtain ⟨t, whole, rfl, stops⟩ := exists_whole number
        refine ⟨lead ++ 0x2d :: t, .number blank (.inr rfl) (isNumber_of_isWhole whole), ?_,
          fun _ => stops, fun behind meets => ?_⟩
        · rw [List.append_assoc, List.cons_append]
        · have stops' := meets (isSigned_append blank 0x2d (by decide) t)
          rw [List.append_assoc, List.cons_append,
            readInteger_cons least greatest blank (by decide), if_pos rfl, bounded_eq_ok_iff]
          exact readNumber_behind whole stops stops' number
      · rename_i no_minus
        split at h
        · rename_i digit
          have number := bounded_eq_ok_iff.mp h
          obtain ⟨t, whole, split, stops⟩ := exists_whole number
          obtain ⟨c, front, rfl⟩ := List.exists_cons_of_ne_nil whole.1.1
          obtain ⟨rfl, rfl⟩ := List.cons.inj split
          refine ⟨lead ++ b :: front, .number blank (.inl rfl) (isNumber_of_isWhole whole), ?_,
            fun _ => stops, fun behind meets => ?_⟩
          · rw [List.append_assoc, List.cons_append]
            rfl
          · have stops' := meets ((isSigned_append blank b solid front).trans (by simp [digit]))
            rw [List.append_assoc, List.cons_append, readInteger_cons least greatest blank solid,
              if_neg no_minus, if_pos digit, bounded_eq_ok_iff]
            exact readNumber_behind whole stops stops' number
        · cases h

/-- A name stands between quotes. -/
theorem exists_name {names : List String} {s rest : Bytes} {i : Fin names.length}
    (h : readName names s = .ok (i, rest)) :
    ∃ a t, Blank a ∧ IsSpelling t ∧ s = a ++ 0x22 :: (t ++ 0x22 :: rest) ∧
      ∀ behind, readName names (a ++ 0x22 :: (t ++ 0x22 :: behind)) = .ok (i, behind) := by
  unfold readName at h
  split at h
  · cases h
  · rename_i more eq
    obtain ⟨a, blank, rfl⟩ := exists_of_skipBlanks eq
    obtain ⟨⟨name, after⟩, read, made⟩ := bind_eq_ok_iff.mp h
    obtain ⟨t, spelling, rfl, same⟩ := isSpelling_of_readText read
    dsimp only at made
    split at made
    · rename_i known
      obtain ⟨rfl, rfl⟩ := Prod.mk.inj (Except.ok.inj made)
      refine ⟨a, t, blank, spelling, rfl, fun behind => ?_⟩
      rw [readName, blank.skipBlanks_cons (by decide)]
      simp only [same, ok_bind, known]
      rfl
    · cases made
  · cases h

theorem exact_choice (names : List String) : Exact (readChoice names) where
  blank {a} blank s := by
    have inner : readName names (a ++ s) = readName names s := by
      simp only [readName, blank.skipBlanks_append]
    simp only [readChoice, blank.skipBlanks_append, inner]
  value {s rest a} h := by
    unfold readChoice at h
    split at h
    · rename_i more eq
      obtain ⟨lead, blank, rfl⟩ := exists_of_skipBlanks eq
      obtain ⟨⟨i, after_name⟩, read, made⟩ := bind_eq_ok_iff.mp h
      obtain ⟨before, key, before_blank, spelling, rfl, same⟩ := exists_name read
      dsimp only at made
      split at made
      · cases made
      · rename_i after_colon eq
        obtain ⟨gap, gap_blank, rfl⟩ := exists_of_skipBlanks eq
        split at made
        · rename_i after_letter eq
          obtain ⟨front, front_blank, rfl⟩ := exists_of_skipBlanks eq
          obtain ⟨after_null, word, closed⟩ := bind_eq_ok_iff.mp made
          obtain rfl := expect_eq_ok_iff.mp word
          split at closed
          · cases closed
          · rename_i tail eq
            obtain ⟨after, after_blank, rfl⟩ := exists_of_skipBlanks eq
            obtain ⟨rfl, rfl⟩ := Prod.mk.inj (Except.ok.inj closed)
            refine ⟨objectText lead [⟨before, key, gap, front ++ ascii "null", after⟩] [],
              ?_, ?_, ?_, fun behind _ => ?_⟩
            · refine isValue_objectText blank (List.forall_mem_singleton.mpr ?_) blank_nil
              exact ⟨before_blank, spelling, gap_blank, .word front_blank (by simp), after_blank⟩
            · simp only [objectText, List.map_cons, List.map_nil, commas, Entry.text,
                List.append_assoc, List.cons_append, List.nil_append]
              rfl
            · exact meets_of_not_signed blank (by decide) (by decide) (by decide) _ _
            · have null : ascii "null" = 0x6e :: ascii "ull" := rfl
              simp only [objectText, List.map_cons, List.map_nil, commas, Entry.text,
                List.append_assoc, List.cons_append, List.nil_append, readChoice, null]
              rw [blank.skipBlanks_cons (by decide)]
              simp only [same, ok_bind]
              rw [gap_blank.skipBlanks_cons (by decide)]
              simp only [front_blank.skipBlanks_cons (by decide : isBlank 0x6e = false),
                expect_append, ok_bind]
              rw [after_blank.skipBlanks_cons (by decide)]
              rfl
          · cases closed
        · cases made
      · cases made
    · rename_i no_brace
      obtain ⟨lead, key, blank, spelling, rfl, same⟩ := exists_name h
      refine ⟨lead ++ 0x22 :: (key ++ [0x22]), .string blank spelling, ?_, ?_, fun behind _ => ?_⟩
      · simp only [List.append_assoc, List.cons_append, List.nil_append]
      · exact meets_of_not_signed blank (by decide) (by decide) (by decide) _ _
      · have read := same behind
        simp only [List.append_assoc, List.cons_append, List.nil_append, readChoice]
        rw [blank.skipBlanks_cons (by decide)]
        exact read

section

variable {α : Type} {read : Reader α}

theorem readOptional_null {lead : Bytes} (blank : Blank lead) (rest : Bytes) :
    readOptional read (lead ++ (ascii "null" ++ rest)) = .ok (none, rest) := by
  rw [readOptional, blank.skipBlanks_append]
  rfl

theorem readOptional_cons {lead : Bytes} (blank : Blank lead) {b : UInt8}
    (solid : isBlank b = false) (no_null : b ≠ 0x6e) (more : Bytes) :
    readOptional read (lead ++ b :: more) = (do
      let (a, rest) ← read (lead ++ b :: more)
      return (some a, rest)) := by
  rw [readOptional, blank.skipBlanks_cons solid]
  split
  · rename_i eq
    exact absurd (List.cons.inj eq).1 no_null
  · rfl

theorem exact_optional (exact : Exact read) : Exact (readOptional read) where
  blank blank s := by simp only [readOptional, blank.skipBlanks_append, exact.blank blank]
  value {s rest a} h := by
    unfold readOptional at h
    split at h
    · rename_i more eq
      obtain ⟨lead, blank, rfl⟩ := exists_of_skipBlanks eq
      obtain ⟨behind, word, made⟩ := bind_eq_ok_iff.mp h
      obtain ⟨rfl, rfl⟩ := Prod.mk.inj (Except.ok.inj made)
      refine ⟨lead ++ ascii "null", .word blank (by simp), ?_, ?_, fun rest' _ => ?_⟩
      · rw [expect_eq_ok_iff.mp word, List.append_assoc]
        rfl
      · exact meets_of_not_signed blank (by decide) (by decide) (by decide) _ _
      · rw [List.append_assoc, readOptional_null blank]
    · rename_i no_null
      obtain ⟨⟨v, behind⟩, inner, made⟩ := bind_eq_ok_iff.mp h
      obtain ⟨rfl, rfl⟩ := Prod.mk.inj (Except.ok.inj made)
      obtain ⟨t, value, rfl, meets, denotes⟩ := exact.value inner
      obtain ⟨lead, b, more, rfl, blank, solid, -⟩ := value.opens
      refine ⟨_, value, rfl, meets, fun rest' meets' => ?_⟩
      have read_again := denotes rest' meets'
      rw [List.append_assoc, List.cons_append] at no_null read_again ⊢
      have other : b ≠ 0x6e := by
        rintro rfl
        exact no_null _ (blank.skipBlanks_cons solid _)
      rw [readOptional_cons blank solid other, read_again]
      rfl

theorem denotes_optional_null {lead : Bytes} (blank : Blank lead) {a : Option α} :
    Denotes (readOptional read) (lead ++ ascii "null") a ↔ a = none := by
  have null : Denotes (readOptional read) (lead ++ ascii "null") none := by
    intro rest _
    rw [List.append_assoc, readOptional_null blank]
  constructor
  · exact fun denotes => denotes.unique null
  · rintro rfl
    exact null

theorem denotes_optional_cons {lead : Bytes} (blank : Blank lead) {b : UInt8}
    (solid : isBlank b = false) (no_null : b ≠ 0x6e) (more : Bytes) {a : Option α} :
    Denotes (readOptional read) (lead ++ b :: more) a ↔
      ∃ v, a = some v ∧ Denotes read (lead ++ b :: more) v := by
  have split : ∀ rest, lead ++ b :: more ++ rest = lead ++ b :: (more ++ rest) := by simp
  constructor
  · intro denotes
    obtain ⟨v, rfl⟩ : ∃ v, a = some v := by
      have alone := denotes [] fun _ => stops_nil
      rw [split, readOptional_cons blank solid no_null] at alone
      obtain ⟨⟨v, rest⟩, -, made⟩ := bind_eq_ok_iff.mp alone
      exact ⟨v, (Prod.mk.inj (Except.ok.inj made)).1.symm⟩
    refine ⟨v, rfl, fun rest meets => ?_⟩
    have whole := denotes rest meets
    rw [split, readOptional_cons blank solid no_null] at whole
    obtain ⟨⟨w, behind⟩, inner, made⟩ := bind_eq_ok_iff.mp whole
    cases made
    rw [split, inner]
  · rintro ⟨v, rfl, denotes⟩ rest meets
    have whole := denotes rest meets
    rw [split] at whole
    rw [split, readOptional_cons blank solid no_null, whole]
    rfl

end

/-! ## Lists -/

/-- Texts with a comma before each, except before the one that comes first of all. -/
def separated (first : Bool) : List Bytes → Bytes
  | [] => []
  | text :: texts => (if first then text else 0x2c :: text) ++ separated false texts

theorem separated_false (texts : List Bytes) :
    separated false texts = texts.flatMap (0x2c :: ·) := by
  induction texts with
  | nil => rfl
  | cons text texts ih => rw [separated, ih, List.flatMap_cons, if_neg Bool.false_ne_true]

theorem separated_true (texts : List Bytes) : separated true texts = commas texts := by
  cases texts with
  | nil => rfl
  | cons text texts => rw [separated, separated_false, commas_cons, if_pos rfl]

/-- Reading the texts of a list one by one takes less fuel than the list has bytes. -/
theorem length_lt_commas (texts : List Bytes) (inner rest : Bytes) (b : UInt8) :
    texts.length < (commas texts ++ (inner ++ b :: rest)).length + 1 := by
  cases texts with
  | nil => exact Nat.zero_lt_succ _
  | cons text texts =>
    have bound := length_le_commas text texts
    simp only [List.length_append, List.length_cons]
    omega

/-- What stands behind a value among others could be no part of it. -/
theorem stops_separated {a inner : Bytes} (blank : Blank a) (inner_blank : Blank inner) {b : UInt8}
    (close : isDigit b = false ∧ b ≠ 0x2e ∧ b ≠ 0x65 ∧ b ≠ 0x45) (texts : List Bytes)
    (rest : Bytes) : Stops (a ++ (separated false texts ++ (inner ++ b :: rest))) := by
  cases texts with
  | nil => exact blank.stops_append (inner_blank.stops_close close rest)
  | cons text texts => exact blank.stops_close (by decide) _

theorem nextItem_separated {a : Bytes} (blank : Blank a) {i : Item} (value : IsValue i.value)
    (first : Bool) (texts : List Bytes) (tail : Bytes) :
    nextItem first (a ++ (separated first (i.text :: texts) ++ tail)) =
      .ok (some (skipBlanks (i.value ++ (i.after ++ (separated false texts ++ tail))))) := by
  obtain ⟨lead, b, more, eq, lead_blank, solid, no_end⟩ := value.opens
  cases first with
  | true =>
    simp only [separated, if_true, Item.text, eq, List.append_assoc, List.cons_append, nextItem]
    rw [blank.skipBlanks_append, lead_blank.skipBlanks_cons solid]
    simp only [if_neg no_end]
  | false =>
    simp only [separated, Bool.false_eq_true, if_false, Item.text, eq, List.append_assoc,
      List.cons_append, nextItem]
    rw [blank.skipBlanks_cons (by decide)]
    simp only [if_true]
    rw [if_neg (by decide), lead_blank.skipBlanks_cons solid]
    split
    · rename_i eq
      cases eq
    · rename_i eq
      exact absurd (List.cons.inj eq).1 no_end
    · rfl

theorem nextItem_close {a inner : Bytes} (blank : Blank a) (inner_blank : Blank inner)
    (first : Bool) (rest : Bytes) : nextItem first (a ++ (inner ++ 0x5d :: rest)) = .ok none := by
  rw [nextItem, blank.skipBlanks_append, inner_blank.skipBlanks_cons (by decide)]
  rfl

theorem closeArray_close {a inner : Bytes} (blank : Blank a) (inner_blank : Blank inner)
    (rest : Bytes) : closeArray (a ++ (inner ++ 0x5d :: rest)) = .ok rest := by
  rw [closeArray, blank.skipBlanks_append, inner_blank.skipBlanks_cons (by decide)]
  rfl

/-- Where there is no next item, the closing bracket comes. -/
theorem of_nextItem_none {first : Bool} {s : Bytes} (h : nextItem first s = .ok none) :
    ∃ a rest, Blank a ∧ s = a ++ 0x5d :: rest := by
  unfold nextItem at h
  split at h
  · cases h
  · rename_i b rest eq
    obtain ⟨a, blank, rfl⟩ := exists_of_skipBlanks eq
    split at h
    · rename_i close
      exact ⟨a, rest, blank, by rw [close]⟩
    · split at h
      · cases h
      · split at h
        · split at h
          · cases h
          · cases h
          · cases h
        · cases h

/-- The next item stands behind blanks, and behind a comma unless it is the first one. -/
theorem of_nextItem_some {first : Bool} {s behind : Bytes}
    (h : nextItem first s = .ok (some behind)) :
    ∃ a c, Blank a ∧ Blank c ∧ (first = true → a = []) ∧
      s = a ++ ((if first then c else 0x2c :: c) ++ behind) := by
  unfold nextItem at h
  split at h
  · cases h
  · rename_i b rest eq
    obtain ⟨a, blank, rfl⟩ := exists_of_skipBlanks eq
    split at h
    · cases h
    · split at h
      · rename_i opening
        obtain rfl := Option.some.inj (Except.ok.inj h)
        refine ⟨[], a, blank_nil, blank, fun _ => rfl, ?_⟩
        rw [if_pos opening, List.nil_append]
      · rename_i later
        split at h
        · rename_i comma
          obtain ⟨c, c_blank, split⟩ := exists_blank rest
          refine ⟨a, c, blank, c_blank, fun opening => absurd opening later, ?_⟩
          split at h
          · cases h
          · cases h
          · obtain rfl := Option.some.inj (Except.ok.inj h)
            rw [if_neg later, comma, List.cons_append, ← split]
        · cases h

section

variable {α : Type} {read : Reader α}

/-- The items of an array are read one by one as what each of them is read as alone. -/
theorem readItemsWith_iff (exact : Exact read) {items : List Item}
    (each : ∀ i ∈ items, i.WellFormed) {inner : Bytes} (inner_blank : Blank inner) {a : Bytes}
    (blank : Blank a) (first : Bool) {fuel : Nat} (enough : items.length < fuel) (rest : Bytes)
    (vs : List α) (r : Bytes) :
    readItemsWith read fuel first
        (a ++ (separated first (items.map Item.text) ++ (inner ++ 0x5d :: rest))) = .ok (vs, r) ↔
      r = rest ∧ List.Forall₂ (fun i v => Denotes read i.value v) items vs := by
  induction items generalizing a first fuel vs with
  | nil =>
    obtain ⟨fuel, rfl⟩ := Nat.exists_eq_succ_of_ne_zero (Nat.ne_zero_of_lt enough)
    simp only [List.map_nil, separated, List.nil_append, readItemsWith,
      nextItem_close blank inner_blank, closeArray_close blank inner_blank, ok_bind]
    constructor
    · intro h
      obtain ⟨rfl, rfl⟩ := Prod.mk.inj (Except.ok.inj h)
      exact ⟨rfl, .nil⟩
    · rintro ⟨rfl, ⟨⟩⟩
      rfl
  | cons i items ih =>
    obtain ⟨fuel, rfl⟩ := Nat.exists_eq_succ_of_ne_zero (Nat.ne_zero_of_lt enough)
    obtain ⟨⟨value, after⟩, others⟩ := List.forall_mem_cons.mp each
    have stops := stops_separated after inner_blank (by decide : isDigit 0x5d = false ∧ _)
      (items.map Item.text) rest
    have more := ih others after false (Nat.lt_of_succ_lt_succ enough)
    simp only [List.map_cons, readItemsWith, nextItem_separated blank value, ok_bind,
      exact.skipBlanks]
    constructor
    · intro h
      obtain ⟨⟨v, behind⟩, item, h⟩ := bind_eq_ok_iff.mp h
      obtain ⟨rfl, denotes⟩ := (exact.iff value fun _ => stops).mp item
      obtain ⟨⟨us, last⟩, items_read, made⟩ := bind_eq_ok_iff.mp h
      obtain ⟨rfl, rfl⟩ := Prod.mk.inj (Except.ok.inj made)
      obtain ⟨rfl, each_denotes⟩ := (more us).mp items_read
      exact ⟨rfl, .cons denotes each_denotes⟩
    · rintro ⟨rfl, denotes⟩
      cases denotes with
      | cons denotes each_denotes =>
        rw [(exact.iff value fun _ => stops).mpr ⟨rfl, denotes⟩, ok_bind]
        dsimp only
        rw [(more _).mpr ⟨rfl, each_denotes⟩]
        rfl

/-- What is read as items is an array without its opening bracket. -/
theorem exists_items (exact : Exact read) {fuel : Nat} {first : Bool} {s rest : Bytes} {vs : List α}
    (h : readItemsWith read fuel first s = .ok (vs, rest)) :
    ∃ (a : Bytes) (items : List Item) (inner : Bytes), Blank a ∧ (∀ i ∈ items, i.WellFormed) ∧
      Blank inner ∧ (first = true → a = []) ∧
        s = a ++ (separated first (items.map Item.text) ++ (inner ++ 0x5d :: rest)) := by
  induction fuel generalizing first s vs with
  | zero => cases h
  | succ fuel ih =>
    simp only [readItemsWith] at h
    obtain ⟨next, stepped, step⟩ := bind_eq_ok_iff.mp h
    cases next with
    | none =>
      obtain ⟨inner, more, blank, rfl⟩ := of_nextItem_none stepped
      obtain ⟨behind, closed, made⟩ := bind_eq_ok_iff.mp step
      have close := closeArray_close blank_nil blank more
      rw [List.nil_append, closed] at close
      obtain rfl := Except.ok.inj close
      obtain ⟨rfl, rfl⟩ := Prod.mk.inj (Except.ok.inj made)
      exact ⟨[], [], inner, blank_nil, List.forall_mem_nil _, blank, fun _ => rfl, rfl⟩
    | some behind =>
      obtain ⟨a, c, blank, c_blank, opening, rfl⟩ := of_nextItem_some stepped
      obtain ⟨⟨v, after_item⟩, item, tail⟩ := bind_eq_ok_iff.mp step
      obtain ⟨t, value, rfl, -, -⟩ := exact.value item
      obtain ⟨⟨us, last⟩, others, made⟩ := bind_eq_ok_iff.mp tail
      obtain ⟨rfl, rfl⟩ := Prod.mk.inj (Except.ok.inj made)
      obtain ⟨after, items, inner, after_blank, each, inner_blank, -, rfl⟩ := ih others
      refine ⟨a, ⟨c ++ t, after⟩ :: items, inner, blank,
        List.forall_mem_cons.mpr ⟨⟨value.blank_append c_blank, after_blank⟩, each⟩, inner_blank,
        opening, ?_⟩
      cases first <;> simp [separated, Item.text]

/-- An array is read as the values of its items. -/
theorem readList_iff (exact : Exact read) {lead inner : Bytes} {items : List Item}
    (blank : Blank lead) (each : ∀ i ∈ items, i.WellFormed) (inner_blank : Blank inner)
    {rest behind : Bytes} {vs : List α} :
    readList read (arrayText lead items inner ++ behind) = .ok (vs, rest) ↔
      rest = behind ∧ List.Forall₂ (fun i v => Denotes read i.value v) items vs := by
  have enough : items.length <
      (commas (items.map Item.text) ++ (inner ++ 0x5d :: behind)).length + 1 := by
    have bound := length_lt_commas (items.map Item.text) inner behind 0x5d
    rwa [List.length_map] at bound
  have read_items := readItemsWith_iff exact each inner_blank blank_nil true enough behind vs
    rest
  rw [List.nil_append, separated_true] at read_items
  simp only [arrayText, List.append_assoc, List.cons_append, List.nil_append, readList]
  rw [blank.skipBlanks_cons (by decide)]
  exact read_items

theorem exact_list (exact : Exact read) : Exact (readList read) where
  blank blank s := by simp only [readList, blank.skipBlanks_append, blank.unexpected_append]
  value {s rest vs} h := by
    have shape : ∃ (lead : Bytes) (items : List Item) (inner : Bytes), Blank lead ∧
        (∀ i ∈ items, i.WellFormed) ∧ Blank inner ∧ s = arrayText lead items inner ++ rest := by
      unfold readList at h
      split at h
      · rename_i more eq
        obtain ⟨lead, blank, rfl⟩ := exists_of_skipBlanks eq
        obtain ⟨a, items, inner, -, each, inner_blank, opening, rfl⟩ := exists_items exact h
        obtain rfl := opening rfl
        refine ⟨lead, items, inner, blank, each, inner_blank, ?_⟩
        simp only [arrayText, separated_true, List.append_assoc, List.cons_append, List.nil_append]
      · cases h
    obtain ⟨lead, items, inner, blank, each, inner_blank, rfl⟩ := shape
    obtain ⟨-, denotes⟩ := (readList_iff exact blank each inner_blank).mp h
    exact ⟨_, isValue_arrayText blank each inner_blank, rfl,
      meets_of_not_signed blank (by decide) (by decide) (by decide) _ _,
      fun behind _ => (readList_iff exact blank each inner_blank).mpr ⟨rfl, denotes⟩⟩

/-- What an array is read as. -/
theorem denotes_list (exact : Exact read) {lead inner : Bytes} {items : List Item}
    (blank : Blank lead) (each : ∀ i ∈ items, i.WellFormed) (inner_blank : Blank inner)
    {vs : List α} :
    Denotes (readList read) (arrayText lead items inner) vs ↔
      List.Forall₂ (fun i v => Denotes read i.value v) items vs := by
  constructor
  · intro denotes
    exact ((readList_iff exact blank each inner_blank).mp (denotes [] fun _ => stops_nil)).2
  · intro each_denotes behind _
    exact (readList_iff exact blank each inner_blank).mpr ⟨rfl, each_denotes⟩

end

end OrderCluster.Json
