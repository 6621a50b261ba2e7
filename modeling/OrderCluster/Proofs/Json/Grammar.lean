import Mathlib
import OrderCluster.Json.Skip
import OrderCluster.Proofs.Json.Read

/-!
# The texts that are JSON values

A grammar for values, apart from any reader. A text that is a value may have blanks in front of it;
the parts of arrays and objects have them on both sides. Strings are taken as they are spelled, so
neither the characters that their escapes stand for nor the size of a number matters.
-/

namespace OrderCluster.Json

/-! ## Blanks -/

/-- Blanks and nothing else. -/
def Blank (s : Bytes) : Prop := ∀ b ∈ s, isBlank b = true

instance : DecidablePred Blank := fun s => inferInstanceAs (Decidable (∀ b ∈ s, isBlank b = true))

theorem blank_nil : Blank [] := fun b among => by cases among

theorem Blank.append {a b : Bytes} (front : Blank a) (back : Blank b) : Blank (a ++ b) :=
  List.forall_mem_append.mpr ⟨front, back⟩

theorem Blank.skipBlanks_append {a : Bytes} (blank : Blank a) (s : Bytes) :
    skipBlanks (a ++ s) = skipBlanks s :=
  List.dropWhile_append_of_pos blank

theorem skipBlanks_eq_nil_iff {s : Bytes} : skipBlanks s = [] ↔ Blank s :=
  List.dropWhile_eq_nil_iff

/-- The blanks in front of a text and what stands behind them. -/
theorem exists_blank (s : Bytes) : ∃ a, Blank a ∧ s = a ++ skipBlanks s :=
  ⟨s.takeWhile isBlank, fun _ among => List.mem_takeWhile_imp among,
    List.takeWhile_append_dropWhile.symm⟩

theorem isBlank_of_skipBlanks {s rest : Bytes} {b : UInt8} (eq : skipBlanks s = b :: rest) :
    isBlank b = false := by
  have head := List.head?_dropWhile_not isBlank s
  rw [← skipBlanks, eq] at head
  simpa using head

theorem exists_of_skipBlanks {s rest : Bytes} {b : UInt8} (eq : skipBlanks s = b :: rest) :
    ∃ a, Blank a ∧ s = a ++ b :: rest := by
  obtain ⟨a, blank, split⟩ := exists_blank s
  exact ⟨a, blank, eq ▸ split⟩

theorem Blank.skipBlanks_cons {a : Bytes} (blank : Blank a) {b : UInt8} (solid : isBlank b = false)
    (rest : Bytes) : skipBlanks (a ++ b :: rest) = b :: rest := by
  rw [blank.skipBlanks_append, Json.skipBlanks_cons solid]

/-- Neither a blank nor what follows one belongs to a number. -/
theorem Blank.stops_append {a : Bytes} (blank : Blank a) {s : Bytes} (stops : Stops s) :
    Stops (a ++ s) := by
  cases a with
  | nil => exact stops
  | cons b a =>
    have first := blank b List.mem_cons_self
    simp only [isBlank, Bool.or_eq_true, decide_eq_true_eq] at first
    apply stops_cons
    rcases first with ((rfl | rfl) | rfl) | rfl <;> decide

/-! ## Strings -/

/-- What may stand between two quotes. -/
inductive IsSpelling : Bytes → Prop
  | nil : IsSpelling []
  | plain {b : UInt8} {s : Bytes} (quote : b ≠ 0x22) (backslash : b ≠ 0x5c) (printable : ¬ b < 0x20)
      (more : IsSpelling s) : IsSpelling (b :: s)
  | short {b : UInt8} {s : Bytes} (known : (shortEscape? b).isSome) (more : IsSpelling s) :
      IsSpelling (0x5c :: b :: s)
  | code {a b c d : UInt8} {s : Bytes} (known : (hex4? a b c d).isSome) (more : IsSpelling s) :
      IsSpelling (0x5c :: 0x75 :: a :: b :: c :: d :: s)

theorem ne_of_shortEscape {b : UInt8} (known : (shortEscape? b).isSome) : b ≠ 0x75 := by
  rintro rfl
  exact absurd known (by decide)

theorem skipText_plain {b : UInt8} (quote : b ≠ 0x22) (backslash : b ≠ 0x5c)
    (printable : ¬ b < 0x20) (tail : Bytes) : skipText (b :: tail) = skipText tail := by
  rw [skipText]
  · exact if_neg printable
  · exact fun eq => quote eq
  · exact fun _ _ _ _ _ eq _ => backslash eq
  · exact fun _ eq _ => backslash eq
  · exact fun eq _ => backslash eq
  · exact fun _ _ eq _ => backslash eq

theorem skipText_short {b : UInt8} (known : (shortEscape? b).isSome) (tail : Bytes) :
    skipText (0x5c :: b :: tail) = skipText tail := by
  obtain ⟨c, eq⟩ := Option.isSome_iff_exists.mp known
  rw [skipText]
  · simp only [eq]
  · exact fun _ _ _ _ _ eq _ => ne_of_shortEscape known eq
  · exact ne_of_shortEscape known

theorem skipText_code {a b c d : UInt8} (known : (hex4? a b c d).isSome) (tail : Bytes) :
    skipText (0x5c :: 0x75 :: a :: b :: c :: d :: tail) = skipText tail := by
  obtain ⟨n, eq⟩ := Option.isSome_iff_exists.mp known
  simp only [skipText, eq]

/-- A string whose value is not wanted ends at its closing quote. -/
theorem skipText_of_isSpelling {s : Bytes} (spelling : IsSpelling s) (rest : Bytes) :
    skipText (s ++ 0x22 :: rest) = .ok rest := by
  induction spelling with
  | nil => rfl
  | plain quote backslash printable _ ih =>
    exact (skipText_plain quote backslash printable _).trans ih
  | short known _ ih => exact (skipText_short known _).trans ih
  | code known _ ih => exact (skipText_code known _).trans ih

theorem isSpelling_of_skipText {s rest : Bytes} (h : skipText s = .ok rest) :
    ∃ t, IsSpelling t ∧ s = t ++ 0x22 :: rest := by
  fun_induction skipText s with
  | case2 behind => exact ⟨[], .nil, by rw [← Except.ok.inj h]; rfl⟩
  | case4 a b c d more n known ih =>
    obtain ⟨t, spelling, rfl⟩ := ih h
    exact ⟨_, .code (by rw [known]; rfl) spelling, rfl⟩
  | case8 b more _ _ c known ih =>
    obtain ⟨t, spelling, rfl⟩ := ih h
    exact ⟨_, .short (by rw [known]; rfl) spelling, rfl⟩
  | case10 b more quote _ _ alone escape printable ih =>
    have backslash : b ≠ 0x5c := by
      intro eq
      cases more with
      | nil => exact alone eq rfl
      | cons c more => exact escape c more eq rfl
    obtain ⟨t, spelling, rfl⟩ := ih h
    exact ⟨_, .plain quote backslash printable spelling, rfl⟩
  | case1 | case3 | case5 | case6 | case7 | case9 => cases h

/-- Whether a spelling is one can be told by skipping it. -/
theorem isSpelling_iff {s : Bytes} : IsSpelling s ↔ skipText (s ++ [0x22]) = .ok [] := by
  constructor
  · exact fun spelling => skipText_of_isSpelling spelling []
  · intro skipped
    obtain ⟨t, spelling, same⟩ := isSpelling_of_skipText skipped
    rwa [List.append_cancel_right same]

instance : DecidablePred IsSpelling := fun _ => decidable_of_iff _ isSpelling_iff.symm

/-- A string ends at one place. -/
theorem IsSpelling.eq_of_append {s t rest rest' : Bytes} (first : IsSpelling s)
    (second : IsSpelling t) (same : s ++ 0x22 :: rest = t ++ 0x22 :: rest') :
    s = t ∧ rest = rest' := by
  have behind := skipText_of_isSpelling first rest
  rw [same, skipText_of_isSpelling second rest', Except.ok.injEq] at behind
  subst behind
  exact ⟨List.append_cancel_right same, rfl⟩

theorem unescape_short {b c : UInt8} (known : shortEscape? b = some c) (tail : Bytes) :
    unescape (0x5c :: b :: tail) = (do
      let (content, rest) ← unescape tail
      return (c :: content, rest)) := by
  have no_code := ne_of_shortEscape (Option.isSome_of_mem known)
  rw [unescape]
  · simp only [known]
  · exact fun _ _ _ _ _ eq _ => no_code eq
  · exact no_code

/-- Whatever stands behind the closing quote, the content is the same. -/
theorem isSpelling_of_unescape {s rest content : Bytes} (h : unescape s = .ok (content, rest)) :
    ∃ t, IsSpelling t ∧ s = t ++ 0x22 :: rest ∧
      ∀ behind, unescape (t ++ 0x22 :: behind) = .ok (content, behind) := by
  fun_induction unescape s generalizing content rest with
  | case2 behind =>
    obtain ⟨rfl, rfl⟩ := Prod.mk.inj (Except.ok.inj h)
    exact ⟨[], .nil, rfl, fun _ => rfl⟩
  | case8 a b c d n known closes opens e f g h' more m known' closes' ih =>
    obtain ⟨⟨inner, after⟩, read, eq⟩ := bind_eq_ok_iff.mp h
    obtain ⟨rfl, rfl⟩ := Prod.mk.inj (Except.ok.inj eq)
    obtain ⟨t, spelling, rfl, same⟩ := ih read
    refine ⟨_, .code (by rw [known]; rfl) (.code (by rw [known']; rfl) spelling), rfl,
      fun behind => ?_⟩
    simp only [List.cons_append, unescape, known, closes, opens, known', closes', same, ok_bind]
    rfl
  | case12 a b c d more n known closes opens ih =>
    obtain ⟨⟨inner, after⟩, read, eq⟩ := bind_eq_ok_iff.mp h
    obtain ⟨rfl, rfl⟩ := Prod.mk.inj (Except.ok.inj eq)
    obtain ⟨t, spelling, rfl, same⟩ := ih read
    refine ⟨_, .code (by rw [known]; rfl) spelling, rfl, fun behind => ?_⟩
    simp only [List.cons_append, unescape, known, closes, opens, same, ok_bind]
    rfl
  | case16 b more _ _ c known ih =>
    obtain ⟨⟨inner, after⟩, read, eq⟩ := bind_eq_ok_iff.mp h
    obtain ⟨rfl, rfl⟩ := Prod.mk.inj (Except.ok.inj eq)
    obtain ⟨t, spelling, rfl, same⟩ := ih read
    refine ⟨_, .short (by rw [known]; rfl) spelling, rfl, fun behind => ?_⟩
    rw [List.cons_append, List.cons_append, unescape_short known, same]
    rfl
  | case18 b more quote _ _ alone escape printable ih =>
    have backslash : b ≠ 0x5c := by
      rintro eq
      cases more with
      | nil => exact alone eq rfl
      | cons c more => exact escape c more eq rfl
    obtain ⟨⟨inner, after⟩, read, eq⟩ := bind_eq_ok_iff.mp h
    obtain ⟨rfl, rfl⟩ := Prod.mk.inj (Except.ok.inj eq)
    obtain ⟨t, spelling, rfl, same⟩ := ih read
    refine ⟨_, .plain quote backslash printable spelling, rfl, fun behind => ?_⟩
    rw [List.cons_append, unescape_plain quote backslash printable, same]
    rfl
  | case1 | case3 | case4 | case5 | case6 | case7 | case9 | case10 | case11 | case13 | case14
  | case15 | case17 => cases h

/-- A string is read up to its closing quote, and what stands behind does not matter. -/
theorem isSpelling_of_readText {s rest : Bytes} {text : String}
    (h : readText s = .ok (text, rest)) :
    ∃ t, IsSpelling t ∧ s = t ++ 0x22 :: rest ∧
      ∀ behind, readText (t ++ 0x22 :: behind) = .ok (text, behind) := by
  obtain ⟨⟨content, after⟩, read, made⟩ := bind_eq_ok_iff.mp h
  obtain ⟨t, spelling, rfl, same⟩ := isSpelling_of_unescape read
  dsimp only at made
  split at made
  · rename_i eq
    obtain ⟨rfl, rfl⟩ := Prod.mk.inj (Except.ok.inj made)
    refine ⟨t, spelling, rfl, fun behind => ?_⟩
    simp only [readText, same, ok_bind, eq]
    rfl
  · cases made

/-- What two quotes enclose stands for a text. -/
def Spells (s : Bytes) (text : String) : Prop := readText (s ++ [0x22]) = .ok (text, [])

instance (s : Bytes) (text : String) : Decidable (Spells s text) :=
  inferInstanceAs (Decidable (readText (s ++ [0x22]) = .ok (text, [])))

theorem readText_eq_iff {s : Bytes} (spelling : IsSpelling s) {rest behind : Bytes}
    {text : String} :
    readText (s ++ 0x22 :: behind) = .ok (text, rest) ↔ rest = behind ∧ Spells s text := by
  constructor
  · intro h
    obtain ⟨t, spelling', eq, same⟩ := isSpelling_of_readText h
    obtain ⟨rfl, rfl⟩ := spelling.eq_of_append spelling' eq
    exact ⟨rfl, same []⟩
  · rintro ⟨rfl, spells⟩
    obtain ⟨t, spelling', eq, same⟩ := isSpelling_of_readText spells
    obtain ⟨rfl, -⟩ := spelling.eq_of_append spelling' eq
    exact same _

theorem Spells.unique {s : Bytes} {text text' : String} (first : Spells s text)
    (second : Spells s text') : text = text' := by
  rw [Spells, first] at second
  exact (Prod.mk.inj (Except.ok.inj second)).1

/-! ## Numbers -/

/-- One digit or several. -/
def Digits (s : Bytes) : Prop := s ≠ [] ∧ ∀ b ∈ s, isDigit b = true

/-- A whole number without a sign: no zero comes first unless it stands alone. -/
def IsWhole (s : Bytes) : Prop := Digits s ∧ ∀ b more, s ≠ 0x30 :: b :: more

/-- The part behind the point, which may be missing. -/
inductive IsFraction : Bytes → Prop
  | none : IsFraction []
  | some {s : Bytes} (digits : Digits s) : IsFraction (0x2e :: s)

/-- The power of ten, which may be missing. -/
inductive IsExponent : Bytes → Prop
  | none : IsExponent []
  | some {letter : UInt8} {sign s : Bytes} (marked : letter = 0x65 ∨ letter = 0x45)
      (signed : sign = [] ∨ sign = [0x2b] ∨ sign = [0x2d]) (digits : Digits s) :
      IsExponent (letter :: (sign ++ s))

/-- A number without its sign. -/
inductive IsNumber : Bytes → Prop
  | intro {whole fraction exponent : Bytes} (is_whole : IsWhole whole)
      (is_fraction : IsFraction fraction) (is_exponent : IsExponent exponent) :
      IsNumber (whole ++ (fraction ++ exponent))

theorem Digits.take {s rest : Bytes} (digits : Digits s)
    (ends : ∀ b ∈ rest.head?, isDigit b = false) :
    takeDigits (s ++ rest) = (s, rest) :=
  takeDigits_append digits.2 ends

theorem digits_of_take {s front rest : Bytes} (taken : takeDigits s = (front, rest))
    (some : front ≠ []) :
    Digits front ∧ s = front ++ rest ∧ ∀ b ∈ rest.head?, isDigit b = false := by
  obtain ⟨rfl, rfl⟩ := Prod.mk.inj taken
  refine ⟨⟨some, fun _ among => List.mem_takeWhile_imp among⟩,
    List.takeWhile_append_dropWhile.symm, fun b head => ?_⟩
  have first := List.head?_dropWhile_not isDigit s
  rw [Option.mem_def.mp head] at first
  simpa using first

/-- The sign of an exponent and what stands behind it. -/
def exponentSign (s : Bytes) : Bool × Bytes :=
  match s with
  | 0x2b :: rest => (false, rest)
  | 0x2d :: rest => (true, rest)
  | _ => (false, s)

theorem readExponent_eq (s : Bytes) :
    readExponent s =
      match takeDigits (exponentSign s).2 with
      | ([], []) => .error .truncated
      | ([], _ :: _) => .error .malformed
      | (digits, rest) => .ok (((exponentSign s).1, digits), rest) :=
  rfl

theorem exponentSign_digits {sign s : Bytes} (signed : sign = [] ∨ sign = [0x2b] ∨ sign = [0x2d])
    (digits : Digits s) (rest : Bytes) : (exponentSign (sign ++ (s ++ rest))).2 = s ++ rest := by
  obtain ⟨b, more, rfl⟩ := List.exists_cons_of_ne_nil digits.1
  have digit := digits.2 b List.mem_cons_self
  rcases signed with rfl | rfl | rfl
  · simp only [List.nil_append, exponentSign]
    split
    · rename_i eq
      exact absurd (List.cons.inj eq).1 (ne_of_isDigit digit (by decide))
    · rename_i eq
      exact absurd (List.cons.inj eq).1 (ne_of_isDigit digit (by decide))
    · rfl
  · rfl
  · rfl

theorem exists_sign (s : Bytes) :
    ∃ sign, (sign = [] ∨ sign = [0x2b] ∨ sign = [0x2d]) ∧ s = sign ++ (exponentSign s).2 := by
  unfold exponentSign
  split
  · exact ⟨[0x2b], by simp, rfl⟩
  · exact ⟨[0x2d], by simp, rfl⟩
  · exact ⟨[], by simp, rfl⟩

/-- What follows an exponent, if there is one. -/
def skipExponent (s : Bytes) : Except Fault Bytes :=
  match s with
  | b :: rest =>
    if b = 0x65 || b = 0x45 then
      match readExponent rest with
      | .ok (_, rest) => .ok rest
      | .error _ => .error .malformed
    else .ok s
  | [] => .ok s

theorem skipNumber_eq (s : Bytes) :
    skipNumber s =
      match takeDigits s with
      | ([], _) => .error .malformed
      | (0x30 :: _ :: _, _) => .error .malformed
      | (_, 0x2e :: rest) =>
        match takeDigits rest with
        | ([], _) => .error .malformed
        | (_, rest) => skipExponent rest
      | (_, rest) => skipExponent rest :=
  rfl

theorem skipExponent_of_isExponent {s rest : Bytes} (exponent : IsExponent s) (stops : Stops rest) :
    skipExponent (s ++ rest) = .ok rest := by
  cases exponent with
  | none =>
    cases rest with
    | nil => rfl
    | cons b rest =>
      obtain ⟨-, -, small, capital⟩ := stops b rfl
      simp [skipExponent, small, capital]
  | @some letter sign s marked signed digits =>
    have taken := digits.take fun b (head : b ∈ rest.head?) => (stops b head).1
    have read : ∃ found, readExponent (sign ++ (s ++ rest)) = .ok (found, rest) := by
      rw [readExponent_eq, exponentSign_digits signed digits, taken]
      split
      · rename_i eq
        exact absurd (Prod.mk.inj eq).1 digits.1
      · rename_i eq
        exact absurd (Prod.mk.inj eq).1 digits.1
      · rename_i eq
        rw [(Prod.mk.inj eq).2]
        exact ⟨_, rfl⟩
    obtain ⟨found, read⟩ := read
    have letter_marks : (decide (letter = 0x65) || decide (letter = 0x45)) = true := by
      simpa using marked
    simp only [List.cons_append, List.append_assoc, skipExponent, letter_marks, if_true, read]

theorem isExponent_of_skipExponent {s rest : Bytes} (h : skipExponent s = .ok rest) :
    ∃ t, IsExponent t ∧ s = t ++ rest := by
  unfold skipExponent at h
  split at h
  · rename_i letter behind
    split at h
    · rename_i marked
      split at h
      · rename_i found after read
        obtain rfl := Except.ok.inj h
        obtain ⟨sign, signed, split⟩ := exists_sign behind
        rw [readExponent_eq] at read
        split at read
        · cases read
        · cases read
        · rename_i front tail no_end no_more taken
          obtain ⟨-, rfl⟩ := Prod.mk.inj (Except.ok.inj read)
          have some : front ≠ [] := by
            rintro rfl
            cases tail with
            | nil => exact no_end rfl rfl
            | cons b tail => exact no_more b tail rfl rfl
          obtain ⟨digits, eq, -⟩ := digits_of_take taken some
          refine ⟨_, .some (by simpa using marked) signed digits, ?_⟩
          rw [List.cons_append, List.append_assoc, ← eq, ← split]
      · cases h
    · exact ⟨[], .none, (Except.ok.inj h).symm ▸ rfl⟩
  · exact ⟨[], .none, Except.ok.inj h⟩

/-- An exponent begins with no digit and with no point. -/
theorem IsExponent.ends {s rest : Bytes} (exponent : IsExponent s) (stops : Stops rest) :
    ∀ b ∈ (s ++ rest).head?, isDigit b = false ∧ b ≠ 0x2e := by
  cases exponent with
  | none => exact fun b head => ⟨(stops b head).1, (stops b head).2.1⟩
  | some marked signed digits =>
    intro b head
    cases head
    rcases marked with rfl | rfl <;> decide

/-- A number whose value is not wanted ends where something begins that is no part of it. -/
theorem skipNumber_of_isNumber {s rest : Bytes} (number : IsNumber s) (stops : Stops rest) :
    skipNumber (s ++ rest) = .ok rest := by
  obtain ⟨⟨digits, no_zero⟩, fraction, exponent⟩ := number
  rename_i whole fraction' exponent'
  have skipped := skipExponent_of_isExponent exponent stops
  have ends := exponent.ends stops
  rw [List.append_assoc, List.append_assoc, skipNumber_eq]
  cases fraction with
  | none =>
    rw [List.nil_append, digits.take fun b head => (ends b head).1]
    split
    · rename_i eq
      exact absurd (Prod.mk.inj eq).1 digits.1
    · rename_i eq
      exact absurd (Prod.mk.inj eq).1 (no_zero _ _)
    · rename_i eq
      have point := (ends 0x2e (by rw [(Prod.mk.inj eq).2]; rfl)).2
      exact absurd rfl point
    · rename_i eq
      rw [← (Prod.mk.inj eq).2, skipped]
  | some digits' =>
    rw [List.cons_append, digits.take (by rintro b ⟨⟩; decide)]
    split
    · rename_i eq
      exact absurd (Prod.mk.inj eq).1 digits.1
    · rename_i eq
      exact absurd (Prod.mk.inj eq).1 (no_zero _ _)
    · rename_i eq
      rw [← (List.cons.inj (Prod.mk.inj eq).2).2, digits'.take fun b head => (ends b head).1]
      split
      · rename_i eq
        exact absurd (Prod.mk.inj eq).1 digits'.1
      · rename_i eq
        rw [← (Prod.mk.inj eq).2, skipped]
    · rename_i no_point eq
      exact absurd (Prod.mk.inj eq).2.symm (no_point _)

theorem isNumber_of_skipNumber {s rest : Bytes} (h : skipNumber s = .ok rest) :
    ∃ t, IsNumber t ∧ s = t ++ rest := by
  rw [skipNumber_eq] at h
  split at h
  · cases h
  · cases h
  · rename_i whole behind some no_zero taken
    obtain ⟨digits, rfl, -⟩ := digits_of_take taken some
    split at h
    · cases h
    · rename_i fraction after some' taken'
      obtain ⟨digits', rfl, -⟩ := digits_of_take taken' some'
      obtain ⟨exponent, is_exponent, rfl⟩ := isExponent_of_skipExponent h
      refine ⟨_, .intro ⟨digits, no_zero⟩ (.some digits') is_exponent, ?_⟩
      simp only [List.append_assoc, List.cons_append]
  · rename_i whole behind some no_zero _ taken
    obtain ⟨digits, rfl, -⟩ := digits_of_take taken some
    obtain ⟨exponent, is_exponent, rfl⟩ := isExponent_of_skipExponent h
    refine ⟨_, .intro ⟨digits, no_zero⟩ .none is_exponent, ?_⟩
    rw [List.nil_append, List.append_assoc]

/-! ## Values -/

/-- An item of an array, with the blanks behind it. -/
structure Item where
  value : Bytes
  after : Bytes

/-- A member of an object: what the quotes of its key enclose and its value, with the blanks before
and behind each of them. -/
structure Entry where
  before : Bytes
  key : Bytes
  gap : Bytes
  value : Bytes
  after : Bytes

def Item.text (item : Item) : Bytes := item.value ++ item.after

def Entry.text (entry : Entry) : Bytes :=
  entry.before ++ 0x22 :: (entry.key ++ 0x22 :: (entry.gap ++ 0x3a :: (entry.value ++ entry.after)))

/-- An array, with blanks in front and before its closing bracket. -/
def arrayText (lead : Bytes) (items : List Item) (inner : Bytes) : Bytes :=
  lead ++ 0x5b :: (commas (items.map Item.text) ++ (inner ++ [0x5d]))

/-- An object, with blanks in front and before its closing brace. -/
def objectText (lead : Bytes) (entries : List Entry) (inner : Bytes) : Bytes :=
  lead ++ 0x7b :: (commas (entries.map Entry.text) ++ (inner ++ [0x7d]))

/-- A value with blanks in front. -/
inductive IsValue : Bytes → Prop
  | word {lead word : Bytes} (blank : Blank lead)
      (known : word ∈ [ascii "null", ascii "true", ascii "false"]) : IsValue (lead ++ word)
  | number {lead sign s : Bytes} (blank : Blank lead) (signed : sign = [] ∨ sign = [0x2d])
      (number : IsNumber s) : IsValue (lead ++ (sign ++ s))
  | string {lead s : Bytes} (blank : Blank lead) (spelling : IsSpelling s) :
      IsValue (lead ++ 0x22 :: (s ++ [0x22]))
  | array {lead inner : Bytes} {items : List Item} (blank : Blank lead)
      (value : ∀ i ∈ items, IsValue i.value) (after : ∀ i ∈ items, Blank i.after)
      (inner_blank : Blank inner) : IsValue (arrayText lead items inner)
  | object {lead inner : Bytes} {entries : List Entry} (blank : Blank lead)
      (before : ∀ e ∈ entries, Blank e.before) (key : ∀ e ∈ entries, IsSpelling e.key)
      (gap : ∀ e ∈ entries, Blank e.gap) (value : ∀ e ∈ entries, IsValue e.value)
      (after : ∀ e ∈ entries, Blank e.after) (inner_blank : Blank inner) :
      IsValue (objectText lead entries inner)

/-- An item as the grammar has it. -/
structure Item.WellFormed (item : Item) : Prop where
  value : IsValue item.value
  after : Blank item.after

/-- A member as the grammar has it. -/
structure Entry.WellFormed (entry : Entry) : Prop where
  before : Blank entry.before
  key : IsSpelling entry.key
  gap : Blank entry.gap
  value : IsValue entry.value
  after : Blank entry.after

theorem isValue_arrayText {lead inner : Bytes} {items : List Item} (blank : Blank lead)
    (each : ∀ i ∈ items, i.WellFormed) (inner_blank : Blank inner) :
    IsValue (arrayText lead items inner) :=
  .array blank (fun i among => (each i among).value) (fun i among => (each i among).after)
    inner_blank

theorem isValue_objectText {lead inner : Bytes} {entries : List Entry} (blank : Blank lead)
    (each : ∀ e ∈ entries, e.WellFormed) (inner_blank : Blank inner) :
    IsValue (objectText lead entries inner) :=
  .object blank (fun e among => (each e among).before) (fun e among => (each e among).key)
    (fun e among => (each e among).gap) (fun e among => (each e among).value)
    (fun e among => (each e among).after) inner_blank

/-- Blanks may be put in front of a value. -/
theorem IsValue.blank_append {a t : Bytes} (front : Blank a) (value : IsValue t) :
    IsValue (a ++ t) := by
  cases value with
  | word blank known =>
    rw [← List.append_assoc]
    exact .word (front.append blank) known
  | number blank signed number =>
    rw [← List.append_assoc]
    exact .number (front.append blank) signed number
  | string blank spelling =>
    rw [← List.append_assoc]
    exact .string (front.append blank) spelling
  | array blank value after inner_blank =>
    rw [arrayText, ← List.append_assoc]
    exact .array (front.append blank) value after inner_blank
  | object blank before key gap value after inner_blank =>
    rw [objectText, ← List.append_assoc]
    exact .object (front.append blank) before key gap value after inner_blank

/-- Whether a text begins like a number. -/
def isSigned (t : Bytes) : Bool := (skipBlanks t).head?.any fun b => b = 0x2d || isDigit b

/-- What follows a number could be no part of it; anything may follow another value. -/
def Meets (t rest : Bytes) : Prop := isSigned t = true → Stops rest

theorem isSigned_append {lead : Bytes} (blank : Blank lead) (b : UInt8) (solid : isBlank b = false)
    (rest : Bytes) : isSigned (lead ++ b :: rest) = (b = 0x2d || isDigit b) := by
  rw [isSigned, blank.skipBlanks_cons solid]
  rfl

/-- A number begins with a digit. -/
theorem IsNumber.exists_cons {s : Bytes} (number : IsNumber s) :
    ∃ b rest, s = b :: rest ∧ isDigit b = true := by
  obtain ⟨⟨⟨some, all⟩, -⟩, -, -⟩ := number
  rename_i whole _ _
  obtain ⟨b, more, rfl⟩ := List.exists_cons_of_ne_nil some
  exact ⟨b, _, rfl, all b List.mem_cons_self⟩

/-- A value begins with neither a blank nor a closing bracket. -/
theorem IsValue.opens {t : Bytes} (value : IsValue t) :
    ∃ lead b rest, t = lead ++ b :: rest ∧ Blank lead ∧ isBlank b = false ∧ b ≠ 0x5d := by
  cases value with
  | word blank known =>
    simp only [List.mem_cons, List.not_mem_nil, or_false] at known
    rcases known with rfl | rfl | rfl
    · exact ⟨_, _, _, rfl, blank, by decide, by decide⟩
    · exact ⟨_, _, _, rfl, blank, by decide, by decide⟩
    · exact ⟨_, _, _, rfl, blank, by decide, by decide⟩
  | number blank signed number =>
    obtain ⟨b, rest, rfl, digit⟩ := number.exists_cons
    rcases signed with rfl | rfl
    · exact ⟨_, b, rest, rfl, blank, isBlank_of_isDigit digit, ne_of_isDigit digit (by decide)⟩
    · exact ⟨_, 0x2d, _, rfl, blank, by decide, by decide⟩
  | string blank spelling => exact ⟨_, 0x22, _, rfl, blank, by decide, by decide⟩
  | array blank value after inner_blank => exact ⟨_, 0x5b, _, rfl, blank, by decide, by decide⟩
  | object blank before key gap value after inner_blank =>
    exact ⟨_, 0x7b, _, rfl, blank, by decide, by decide⟩

/-- A value that begins with a brace is an object. -/
theorem IsValue.object_of_brace {t rest more : Bytes} (value : IsValue t)
    (brace : skipBlanks (t ++ rest) = 0x7b :: more) :
    ∃ (lead : Bytes) (entries : List Entry) (inner : Bytes), Blank lead ∧
      (∀ e ∈ entries, e.WellFormed) ∧ Blank inner ∧ t = objectText lead entries inner := by
  cases value with
  | word blank known =>
    simp only [List.mem_cons, List.not_mem_nil, or_false] at known
    rw [List.append_assoc, blank.skipBlanks_append] at brace
    rcases known with rfl | rfl | rfl <;> cases brace
  | number blank signed number =>
    obtain ⟨b, front, rfl, digit⟩ := number.exists_cons
    rw [List.append_assoc, blank.skipBlanks_append] at brace
    rcases signed with rfl | rfl
    · rw [List.nil_append, List.cons_append, skipBlanks_cons (isBlank_of_isDigit digit)] at brace
      exact absurd (List.cons.inj brace).1 (ne_of_isDigit digit (by decide))
    · cases brace
  | string blank spelling =>
    rw [List.append_assoc, blank.skipBlanks_append] at brace
    cases brace
  | array blank value after inner_blank =>
    rw [arrayText, List.append_assoc, blank.skipBlanks_append] at brace
    cases brace
  | object blank before key gap value after inner_blank =>
    exact ⟨_, _, _, blank, fun e among =>
      ⟨before e among, key e among, gap e among, value e among, after e among⟩, inner_blank, rfl⟩

end OrderCluster.Json
