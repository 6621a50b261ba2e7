import Mathlib
import OrderCluster.Json.Text

/-!
# Strings as JSON text

Between its quotes a string is written byte by byte, each byte for itself or as an escape that reads
as that byte. So the string is read back up to its closing quote, and since all escapes are made of
ASCII, what is written is again a text.
-/

namespace OrderCluster.Json

/-! ## The bytes of a text -/

theorem toList_toByteArray (bytes : Bytes) : bytes.toByteArray.toList = bytes := by
  have loop : ∀ (i : Nat) (taken : Bytes), i ≤ bytes.length →
      ByteArray.toList.loop bytes.toByteArray i taken = taken.reverse ++ bytes.drop i := by
    intro i taken bound
    induction left : bytes.length - i generalizing i taken with
    | zero =>
      have all : bytes.length ≤ i := by omega
      rw [ByteArray.toList.loop, if_neg (by simpa using all), List.drop_eq_nil_of_le all,
        List.append_nil]
    | succ left ih =>
      have inside : i < bytes.length := by omega
      have byte : bytes.toByteArray.get! i = bytes[i] := by
        change bytes.toByteArray.data[i]! = _
        rw [List.data_toByteArray, List.getElem!_toArray, getElem!_pos bytes i inside]
      rw [ByteArray.toList.loop, if_pos (by simpa using inside), ih (i + 1) _ inside (by omega),
        byte, List.drop_eq_getElem_cons inside, List.reverse_cons, List.append_assoc]
      rfl
  exact loop 0 [] (Nat.zero_le _)

/-- The bytes of a text are the bytes of its characters. -/
theorem utf8_ofList (cs : List Char) :
    utf8 (String.ofList cs) = cs.flatMap String.utf8EncodeChar := by
  rw [utf8, String.toUTF8_eq_toByteArray, String.toByteArray_ofList]
  exact toList_toByteArray _

theorem utf8_eq (s : String) : utf8 s = s.toList.flatMap String.utf8EncodeChar := by
  rw [← utf8_ofList, String.ofList_toList]

theorem utf8_append (s t : String) : utf8 (s ++ t) = utf8 s ++ utf8 t := by
  rw [utf8_eq, utf8_eq, utf8_eq, String.toList_append, List.flatMap_append]

/-- A character has one byte or up to four, by the size of its code. -/
theorem utf8EncodeChar_cases (c : Char) :
    (c.val.toNat ≤ 0x7f ∧ String.utf8EncodeChar c = [UInt8.ofNat c.val.toNat]) ∨
      (0x7f < c.val.toNat ∧ c.val.toNat ≤ 0x7ff ∧
        String.utf8EncodeChar c =
          [UInt8.ofNat (c.val.toNat / 64 % 0x20 + 0xc0), UInt8.ofNat (c.val.toNat % 0x40 + 0x80)]) ∨
      (0x7ff < c.val.toNat ∧ c.val.toNat ≤ 0xffff ∧
        String.utf8EncodeChar c =
          [UInt8.ofNat (c.val.toNat / 4096 % 0x10 + 0xe0),
            UInt8.ofNat (c.val.toNat / 64 % 0x40 + 0x80), UInt8.ofNat (c.val.toNat % 0x40 + 0x80)]) ∨
      (0xffff < c.val.toNat ∧
        String.utf8EncodeChar c =
          [UInt8.ofNat (c.val.toNat / 262144 % 0x08 + 0xf0),
            UInt8.ofNat (c.val.toNat / 4096 % 0x40 + 0x80),
            UInt8.ofNat (c.val.toNat / 64 % 0x40 + 0x80),
            UInt8.ofNat (c.val.toNat % 0x40 + 0x80)]) := by
  simp only [String.utf8EncodeChar]
  by_cases one : c.val.toNat ≤ 0x7f
  · exact Or.inl ⟨one, if_pos one⟩
  · rw [if_neg one]
    by_cases two : c.val.toNat ≤ 0x7ff
    · exact Or.inr (Or.inl ⟨Nat.lt_of_not_le one, two, if_pos two⟩)
    · rw [if_neg two]
      by_cases three : c.val.toNat ≤ 0xffff
      · exact Or.inr (Or.inr (Or.inl ⟨Nat.lt_of_not_le two, three, if_pos three⟩))
      · exact Or.inr (Or.inr (Or.inr ⟨Nat.lt_of_not_le three, if_neg three⟩))

/-- A text is known by its bytes. -/
theorem text?_utf8 (s : String) : text? (utf8 s) = some s := by
  have bytes : (⟨(utf8 s).toArray⟩ : ByteArray) = s.toByteArray := by
    rw [utf8_eq, ← String.utf8Encode_toList]
    exact ByteArray.ext List.data_toByteArray.symm
  rw [text?, bytes, String.fromUTF8?, dif_pos s.isValidUTF8]
  rfl

/-! ## Escapes -/

/-- A control character that has no letter of its own is read back from its code. -/
theorem control_escape : ∀ n < 32,
    hex4? 0x30 0x30 (hexByte (n / 16)) (hexByte (n % 16)) = some n ∧
      codePoint n = [UInt8.ofNat n] := by
  decide +kernel

theorem unescape_control {b : UInt8} (control : b < 0x20) (tail : Bytes) :
    unescape ([0x5c, 0x75, 0x30, 0x30, hexByte (b.toNat / 16), hexByte (b.toNat % 16)] ++ tail) =
      (do
        let (content, rest) ← unescape tail
        return (b :: content, rest)) := by
  have small : b.toNat < 32 := UInt8.lt_iff_toNat_lt.mp control
  obtain ⟨code, byte⟩ := control_escape b.toNat small
  rw [UInt8.ofNat_toNat] at byte
  have no_close : closesPair b.toNat = false := by
    simp only [closesPair, Bool.and_eq_false_iff, decide_eq_false_iff_not]
    omega
  have no_open : opensPair b.toNat = false := by
    simp only [opensPair, Bool.and_eq_false_iff, decide_eq_false_iff_not]
    omega
  simp only [List.cons_append, List.nil_append, unescape, code, no_close, no_open, byte,
    Bool.false_eq_true, if_false]

theorem unescape_plain {b : UInt8} (quote : b ≠ 0x22) (backslash : b ≠ 0x5c)
    (printable : ¬ b < 0x20) (tail : Bytes) :
    unescape (b :: tail) = (do
      let (content, rest) ← unescape tail
      return (b :: content, rest)) := by
  rw [unescape]
  · rw [if_neg printable]
  · exact quote
  · exact fun _ _ _ _ _ eq _ => backslash eq
  · exact fun _ eq _ => backslash eq
  · exact fun eq _ => backslash eq
  · exact fun _ _ eq _ => backslash eq

/-- An escaped byte is read as that byte. -/
theorem unescape_escapeByte (b : UInt8) (tail : Bytes) :
    unescape (escapeByte b ++ tail) = (do
      let (content, rest) ← unescape tail
      return (b :: content, rest)) := by
  by_cases quote : b = 0x22
  · subst quote
    rfl
  by_cases backslash : b = 0x5c
  · subst backslash
    rfl
  by_cases backspace : b = 0x08
  · subst backspace
    rfl
  by_cases tab : b = 0x09
  · subst tab
    rfl
  by_cases newline : b = 0x0a
  · subst newline
    rfl
  by_cases feed : b = 0x0c
  · subst feed
    rfl
  by_cases back : b = 0x0d
  · subst back
    rfl
  -- No other byte has an escape of one letter.
  simp only [escapeByte, quote, backslash, backspace, tab, newline, feed, back, decide_false,
    Bool.or_self, Bool.false_eq_true, if_false]
  split
  · rename_i control
    exact unescape_control control tail
  · rename_i printable
    exact unescape_plain quote backslash printable tail

/-- An escaped text is read up to the quote behind it. -/
theorem unescape_flatMap (content rest : Bytes) :
    unescape (content.flatMap escapeByte ++ 0x22 :: rest) = .ok (content, rest) := by
  induction content with
  | nil => rfl
  | cons b content ih =>
    rw [List.flatMap_cons, List.append_assoc, unescape_escapeByte, ih]
    rfl

/-- Reading goes on with what was read. -/
theorem ok_bind {α β : Type} (a : α) (next : α → Except Fault β) : (.ok a >>= next) = next a := rfl

/-- What succeeds in two steps succeeds in the first one. -/
theorem bind_eq_ok_iff {α β : Type} {first : Except Fault α} {next : α → Except Fault β} {b : β} :
    (first >>= next) = .ok b ↔ ∃ a, first = .ok a ∧ next a = .ok b := by
  cases first with
  | error fault =>
    constructor
    · rintro ⟨⟩
    · rintro ⟨a, ⟨⟩, _⟩
  | ok a =>
    constructor
    · exact fun h => ⟨a, rfl, h⟩
    · rintro ⟨a, ⟨⟩, h⟩
      exact h

/-- A string is read back up to its closing quote. -/
theorem readText_escaped (s : String) (rest : Bytes) :
    readText ((utf8 s).flatMap escapeByte ++ 0x22 :: rest) = .ok (s, rest) := by
  simp only [readText, unescape_flatMap, ok_bind, text?_utf8]
  rfl

/-- A string behind its opening quote. -/
theorem writeText_append (s : String) (rest : Bytes) :
    writeText s ++ rest = 0x22 :: ((utf8 s).flatMap escapeByte ++ 0x22 :: rest) := by
  simp only [writeText, List.cons_append, List.append_assoc, List.nil_append]

/-! ## What is written is text -/

/-- Whether bytes are those of a text. -/
def IsText (bytes : Bytes) : Prop := ∃ s, bytes = utf8 s

theorem isText_append {front back : Bytes} (first : IsText front) (second : IsText back) :
    IsText (front ++ back) := by
  obtain ⟨s, rfl⟩ := first
  obtain ⟨t, rfl⟩ := second
  exact ⟨s ++ t, (utf8_append s t).symm⟩

theorem isText_nil : IsText [] := ⟨"", by rw [utf8_eq]; rfl⟩

theorem isText_char (c : Char) : IsText (String.utf8EncodeChar c) :=
  ⟨String.ofList [c], by rw [utf8_ofList, List.flatMap_singleton]⟩

theorem isText_flatMap {α : Type} {items : List α} {write : α → Bytes}
    (each : ∀ a ∈ items, IsText (write a)) : IsText (items.flatMap write) := by
  induction items with
  | nil => exact isText_nil
  | cons a rest ih =>
    rw [List.flatMap_cons]
    exact isText_append (each a List.mem_cons_self)
      (ih fun b among => each b (List.mem_cons_of_mem _ among))

theorem ascii_char : ∀ n < 128, String.utf8EncodeChar (Char.ofNat n) = [UInt8.ofNat n] := by
  decide +kernel

/-- ASCII is text. -/
theorem isText_ascii {bytes : Bytes} (ascii : bytes.all (· < 0x80) = true) : IsText bytes := by
  have each : IsText (bytes.flatMap fun b => [b]) := by
    refine isText_flatMap fun b among => ?_
    have small := of_decide_eq_true (List.all_eq_true.mp ascii b among)
    have byte := ascii_char b.toNat (UInt8.lt_iff_toNat_lt.mp small)
    rw [UInt8.ofNat_toNat] at byte
    rw [← byte]
    exact isText_char _
  rwa [List.flatMap_singleton'] at each

theorem ascii_escape : ∀ n < 128, (escapeByte (UInt8.ofNat n)).all (· < 0x80) = true := by
  decide +kernel

/-- Beyond ASCII nothing is escaped. -/
theorem escapeByte_of_le {b : UInt8} (beyond : 0x80 ≤ b) : escapeByte b = [b] := by
  have large : 128 ≤ b.toNat := UInt8.le_iff_toNat_le.mp beyond
  have other : ∀ c : UInt8, c.toNat < 128 → b ≠ c := by
    rintro c small rfl
    omega
  have printable : ¬ b < 0x20 := by
    intro control
    have small : b.toNat < 32 := UInt8.lt_iff_toNat_lt.mp control
    omega
  simp only [escapeByte, other 0x22 (by decide), other 0x5c (by decide), other 0x08 (by decide),
    other 0x09 (by decide), other 0x0a (by decide), other 0x0c (by decide), other 0x0d (by decide),
    printable, decide_false, Bool.or_self, Bool.false_eq_true, if_false]

/-- The bytes of a character are one byte of ASCII, or all lie beyond. -/
theorem ascii_or_beyond (c : Char) :
    (∃ n < 128, String.utf8EncodeChar c = [UInt8.ofNat n]) ∨
      ∀ b ∈ String.utf8EncodeChar c, 0x80 ≤ b := by
  have beyond : ∀ n, 128 ≤ n % 256 → 0x80 ≤ UInt8.ofNat n := by
    intro n large
    rw [UInt8.le_iff_toNat_le, UInt8.toNat_ofNat']
    exact large
  rcases utf8EncodeChar_cases c with ⟨small, eq⟩ | ⟨_, _, eq⟩ | ⟨_, _, eq⟩ | ⟨_, eq⟩
  · exact Or.inl ⟨c.val.toNat, Nat.lt_succ_of_le small, eq⟩
  · refine Or.inr ?_
    rw [eq]
    simp only [List.forall_mem_cons, List.not_mem_nil, false_implies, implies_true, and_true]
    constructor <;> exact beyond _ (by omega)
  · refine Or.inr ?_
    rw [eq]
    simp only [List.forall_mem_cons, List.not_mem_nil, false_implies, implies_true, and_true]
    refine ⟨?_, ?_, ?_⟩ <;> exact beyond _ (by omega)
  · refine Or.inr ?_
    rw [eq]
    simp only [List.forall_mem_cons, List.not_mem_nil, false_implies, implies_true, and_true]
    refine ⟨?_, ?_, ?_, ?_⟩ <;> exact beyond _ (by omega)

/-- What is written between the quotes of a string is text. -/
theorem isText_escaped (s : String) : IsText ((utf8 s).flatMap escapeByte) := by
  rw [utf8_eq, List.flatMap_assoc]
  refine isText_flatMap fun c _ => ?_
  rcases ascii_or_beyond c with ⟨n, small, eq⟩ | beyond
  · rw [eq, List.flatMap_singleton]
    exact isText_ascii (ascii_escape n small)
  · have same : (String.utf8EncodeChar c).map escapeByte =
        (String.utf8EncodeChar c).map fun b => [b] :=
      List.map_congr_left fun b among => escapeByte_of_le (beyond b among)
    rw [List.flatMap_def, same, ← List.flatMap_def, List.flatMap_singleton']
    exact isText_char c

theorem isText_writeText (s : String) : IsText (writeText s) := by
  have quote : IsText [0x22] := isText_ascii (by decide)
  exact isText_append quote (isText_append (isText_escaped s) quote)

end OrderCluster.Json
