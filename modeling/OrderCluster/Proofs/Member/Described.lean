import Mathlib
import OrderCluster.Member.Described

/-!
# What a description tells

The description of a member stands on one line and all of it can be seen, whatever characters its
host is named with. It can be read back, because no part of it could end sooner or later: digits are
followed by what is no digit, and between quotes no quote stands unescaped. So members that are
described alike agree in all that is described.
-/

namespace OrderCluster

namespace Text

/-! ## Digits -/

/-- The digits of a number are figures and the letters up to f. -/
theorem exists_digit_of_mem {base : Nat} (several : 1 < base) (few : base ≤ 16) {n : Nat} {c : Char}
    (among : c ∈ Nat.toDigits base n) : ∃ d < 16, c = d.digitChar := by
  induction n using Nat.strongRecOn with
  | ind n ih =>
    rw [Nat.toDigits_eq_if several] at among
    split at among
    · exact ⟨n, by omega, List.mem_singleton.mp among⟩
    · rcases List.mem_append.mp among with front | last
      · exact ih (n / base) (Nat.div_lt_self (by omega) several) front
      · have small : n % base < base := Nat.mod_lt n (by omega)
        exact ⟨n % base, by omega, List.mem_singleton.mp last⟩

theorem digitChar_inj : ∀ a < 16, ∀ b < 16, Nat.digitChar a = Nat.digitChar b → a = b := by
  decide

/-- A number is known by its digits. -/
theorem toDigits_inj {base : Nat} (several : 1 < base) (few : base ≤ 16) {n m : Nat}
    (same : Nat.toDigits base n = Nat.toDigits base m) : n = m := by
  induction n using Nat.strongRecOn generalizing m with
  | ind n ih =>
    rw [Nat.toDigits_eq_if (n := n) several, Nat.toDigits_eq_if (n := m) several] at same
    split_ifs at same with small small' small'
    · exact digitChar_inj n (by omega) m (by omega) (List.singleton_inj.mp same)
    · have lengths := congrArg List.length same
      simp at lengths
    · have lengths := congrArg List.length same
      simp at lengths
    · obtain ⟨fronts, lasts⟩ := List.append_inj' same rfl
      have front := ih (n / base) (Nat.div_lt_self (by omega) several) fronts
      have low : n % base < base := Nat.mod_lt n (by omega)
      have low' : m % base < base := Nat.mod_lt m (by omega)
      have last := digitChar_inj (n % base) (by omega) (m % base) (by omega)
        (List.singleton_inj.mp lasts)
      rw [← Nat.div_add_mod n base, ← Nat.div_add_mod m base, front, last]

/-- What ends at the first of its kind ends at one place. -/
theorem append_cons_cancel {α : Type} {a : α} {l l' x y : List α} (free : a ∉ l) (free' : a ∉ l')
    (same : l ++ a :: x = l' ++ a :: y) : l = l' ∧ x = y := by
  induction l generalizing l' with
  | nil =>
    cases l' with
    | nil => exact ⟨rfl, (List.cons.inj same).2⟩
    | cons b l' => exact absurd (List.cons.inj same).1 (List.ne_of_not_mem_cons free')
  | cons b l ih =>
    cases l' with
    | nil => exact absurd (List.cons.inj same).1.symm (List.ne_of_not_mem_cons free)
    | cons b' l' =>
      obtain ⟨rfl, rest⟩ := List.cons.inj same
      obtain ⟨rfl, rfl⟩ := ih (List.not_mem_of_not_mem_cons free)
        (List.not_mem_of_not_mem_cons free') rest
      exact ⟨rfl, rfl⟩

/-- Digits can be read back if what follows does not begin with a digit. -/
theorem toDigits_cancel {base : Nat} (several : 1 < base) (few : base ≤ 16) {z : List Char}
    {a : Char} (starts : z.head? = some a) (no_digit : ∀ d < 16, a ≠ Nat.digitChar d) {n m : Nat}
    {x y : List Char} (same : Nat.toDigits base n ++ (z ++ x) = Nat.toDigits base m ++ (z ++ y)) :
    n = m ∧ x = y := by
  have free : ∀ n, a ∉ Nat.toDigits base n := by
    intro n among
    obtain ⟨d, low, eq⟩ := exists_digit_of_mem several few among
    exact no_digit d low eq
  obtain ⟨behind, rfl⟩ := List.head?_eq_some_iff.mp starts
  obtain ⟨digits, rest⟩ := append_cons_cancel (free n) (free m) same
  exact ⟨toDigits_inj several few digits, List.append_cancel_left rest⟩

/-! ## Quoted text -/

/-- The characters that have an escape of their own. -/
def shortEscapes : List (Char × Char) :=
  [('\x00', '0'), ('\t', 't'), ('\r', 'r'), ('\n', 'n'), ('"', '"'), ('\\', '\\')]

/-- How a character stands between quotes. -/
inductive Stands : Char → List Char → Prop
  | short {c e : Char} (pair : (c, e) ∈ shortEscapes) : Stands c ['\\', e]
  | plain {c : Char} (quote : c ≠ '"') (backslash : c ≠ '\\') (seen : isVisible c = true) :
      Stands c [c]
  | code {c : Char} :
      Stands c ('\\' :: 'u' :: '\x7b' :: (Nat.toDigits 16 c.toNat ++ ['\x7d']))

theorem stands_quotedChar (c : Char) : Stands c (quotedChar c).toList := by
  rw [quotedChar]
  split_ifs with _ _ _ _ quote backslash seen
  iterate 6
    · subst_vars
      simp only [String.reduceToList]
      exact .short (by simp [shortEscapes])
  · rw [Char.toString, String.toList_singleton]
    exact .plain quote backslash seen
  · simp only [hexDigits, String.toList_append, String.toList_ofList, String.reduceToList]
    exact .code

/-- What stands between quotes is no quote, unless an escape is in front of it. -/
theorem Stands.not_quote {c : Char} {l x y : List Char} (stands : Stands c l) :
    '"' :: x ≠ l ++ y := by
  intro same
  cases stands with
  | short pair => cases same
  | plain quote backslash seen => exact quote (List.cons.inj same).1.symm
  | code => cases same

/-- Where a character ends can be told from how it stands. -/
theorem Stands.cancel {c c' : Char} {l l' x y : List Char} (stands : Stands c l)
    (stands' : Stands c' l') (same : l ++ x = l' ++ y) : c = c' ∧ x = y := by
  have apart : ∀ {c e : Char}, (c, e) ∈ shortEscapes → e ≠ 'u' := by
    rintro c e pair rfl
    simp [shortEscapes] at pair
  cases stands with
  | short pair =>
    cases stands' with
    | short pair' =>
      obtain ⟨-, rfl, rfl⟩ : True ∧ _ ∧ _ := by simpa using same
      simp [shortEscapes] at pair pair'
      grind
    | plain _ backslash _ => exact absurd (List.cons.inj same).1.symm backslash
    | code => exact absurd (List.cons.inj (List.cons.inj same).2).1 (apart pair)
  | plain _ backslash _ =>
    cases stands' with
    | short pair' => exact absurd (List.cons.inj same).1 backslash
    | plain _ _ _ => exact List.cons.inj same
    | code => exact absurd (List.cons.inj same).1 backslash
  | code =>
    cases stands' with
    | short pair' => exact absurd (List.cons.inj (List.cons.inj same).2).1.symm (apart pair')
    | plain _ backslash _ => exact absurd (List.cons.inj same).1.symm backslash
    | code =>
      have digits : Nat.toDigits 16 c.toNat ++ (['\x7d'] ++ x) =
          Nat.toDigits 16 c'.toNat ++ (['\x7d'] ++ y) := by
        simpa using same
      obtain ⟨codes, rest⟩ := toDigits_cancel (by decide) (by decide) rfl (by decide) digits
      exact ⟨Char.toNat_inj.mp codes, rest⟩

theorem toList_quoted (s : String) :
    (quoted s).toList = '"' :: (s.toList.flatMap (fun c => (quotedChar c).toList) ++ ['"']) := by
  simp [quoted, String.toList_join, List.flatMap_map]

/-- A quoted text ends at one place, and it can be read back. -/
theorem quoted_cancel {s s' : String} {x y : List Char}
    (same : (quoted s).toList ++ x = (quoted s').toList ++ y) : s = s' ∧ x = y := by
  have inner : ∀ cs cs' : List Char,
      cs.flatMap (fun c => (quotedChar c).toList) ++ '"' :: x =
        cs'.flatMap (fun c => (quotedChar c).toList) ++ '"' :: y → cs = cs' ∧ x = y := by
    intro cs
    induction cs with
    | nil =>
      rintro (_ | ⟨c', cs'⟩) same
      · exact ⟨rfl, (List.cons.inj same).2⟩
      · rw [List.flatMap_cons, List.append_assoc] at same
        exact absurd same (stands_quotedChar c').not_quote
    | cons c cs ih =>
      rintro (_ | ⟨c', cs'⟩) same
      · rw [List.flatMap_cons, List.append_assoc] at same
        exact absurd same.symm (stands_quotedChar c).not_quote
      · rw [List.flatMap_cons, List.flatMap_cons, List.append_assoc, List.append_assoc] at same
        obtain ⟨rfl, rest⟩ := (stands_quotedChar c).cancel (stands_quotedChar c') same
        obtain ⟨rfl, rfl⟩ := ih cs' rest
        exact ⟨rfl, rfl⟩
  simp only [toList_quoted, List.cons_append, List.append_assoc, List.cons.injEq, true_and,
    List.nil_append] at same
  obtain ⟨texts, rest⟩ := inner _ _ same
  exact ⟨String.toList_inj.mp texts, rest⟩

/-! ## What can be seen -/

/-- Letters, figures, blanks and the other characters between them. -/
def isPlain (c : Char) : Bool := 32 ≤ c.toNat && c.toNat < 127

theorem isVisible_of_isPlain {c : Char} (plain : isPlain c = true) : isVisible c = true := by
  have apart : ∀ ranges ∈ [extending, unprintable],
      (ranges.all fun range => range.2 < 32 || 127 ≤ range.1) = true := by
    decide +kernel
  simp only [isPlain, Bool.and_eq_true, decide_eq_true_eq] at plain
  have outside : ∀ ranges ∈ [extending, unprintable], within ranges c = false := by
    intro ranges table
    refine List.any_eq_false.mpr fun range among => ?_
    have beside := List.all_eq_true.mp (apart ranges table) range among
    simp only [Bool.or_eq_true, decide_eq_true_eq] at beside
    simp only [Bool.and_eq_true, decide_eq_true_eq]
    omega
  rw [isVisible, outside extending (by simp), outside unprintable (by simp)]
  rfl

/-- All of a text can be seen. -/
def Visible (cs : List Char) : Prop := ∀ c ∈ cs, isVisible c = true

theorem visible_of_plain {cs : List Char} (plain : cs.all isPlain = true) : Visible cs :=
  fun c among => isVisible_of_isPlain (List.all_eq_true.mp plain c among)

theorem Visible.append {cs cs' : List Char} (front : Visible cs) (back : Visible cs') :
    Visible (cs ++ cs') :=
  List.forall_mem_append.mpr ⟨front, back⟩

theorem visible_toDigits {base : Nat} (several : 1 < base) (few : base ≤ 16) (n : Nat) :
    Visible (Nat.toDigits base n) := by
  have digits : ∀ d < 16, isPlain (Nat.digitChar d) = true := by decide
  intro c among
  obtain ⟨d, low, rfl⟩ := exists_digit_of_mem several few among
  exact isVisible_of_isPlain (digits d low)

theorem Stands.visible {c : Char} {l : List Char} (stands : Stands c l) : Visible l := by
  cases stands with
  | short pair =>
    have escapes : Visible (shortEscapes.map Prod.snd) := visible_of_plain (by decide)
    have mark : Visible ['\\'] := visible_of_plain (by decide)
    exact mark.append (List.forall_mem_singleton.mpr (escapes _ (List.mem_map_of_mem pair)))
  | plain _ _ seen => exact List.forall_mem_singleton.mpr seen
  | code =>
    have front : Visible ['\\', 'u', '\x7b'] := visible_of_plain (by decide)
    have back : Visible ['\x7d'] := visible_of_plain (by decide)
    exact front.append ((visible_toDigits (by decide) (by decide) _).append back)

theorem visible_quoted (s : String) : Visible (quoted s).toList := by
  have quote : Visible ['"'] := visible_of_plain (by decide)
  rw [toList_quoted]
  refine quote.append (Visible.append ?_ quote)
  intro d among
  obtain ⟨c, -, within⟩ := List.mem_flatMap.mp among
  exact (stands_quotedChar c).visible d within

end Text

theorem Status.name_cancel {s s' : Status} {x y : List Char}
    (same : s.name.toList ++ x = s'.name.toList ++ y) : s = s' ∧ x = y := by
  cases s <;> cases s' <;> simp_all [name]

theorem Mode.name_cancel {m m' : Mode} {x y : List Char}
    (same : m.name.toList ++ x = m'.name.toList ++ y) : m = m' ∧ x = y := by
  cases m <;> cases m' <;> simp_all [name]

namespace Member

open Text

theorem toList_toString (n : Nat) : (toString n).toList = Nat.toDigits 10 n := by
  rw [Nat.toString_eq_repr, Nat.repr_eq_ofList_toDigits, String.toList_ofList]

theorem toList_described (m : Member) :
    m.described.toList =
      "OrderNode \x7b id: ".toList ++ (Nat.toDigits 10 m.id.toNat ++
        (", address: Address \x7b host: ".toList ++ ((quoted m.address.host).toList ++
          (", port: ".toList ++ (Nat.toDigits 10 m.address.port.toNat ++
            (" \x7d, status: ".toList ++ (m.status.name.toList ++
              (", mode: ".toList ++ (m.mode.name.toList ++ ", .. \x7d".toList))))))))) := by
  unfold described
  simp only [String.toList_append, toList_toString, List.append_assoc]

/-- A description stands on one line, and all of it can be seen. -/
theorem visible_described (m : Member) : Visible m.described.toList := by
  have status : Visible m.status.name.toList := by
    cases m.status <;> exact visible_of_plain (by decide +kernel)
  have mode : Visible m.mode.name.toList := by
    cases m.mode <;> exact visible_of_plain (by decide +kernel)
  have digits : ∀ n, Visible (Nat.toDigits 10 n) := visible_toDigits (by decide) (by decide)
  rw [toList_described]
  refine Visible.append (visible_of_plain (by decide +kernel)) ?_
  refine Visible.append (digits _) (Visible.append (visible_of_plain (by decide +kernel)) ?_)
  refine (visible_quoted _).append (Visible.append (visible_of_plain (by decide +kernel)) ?_)
  refine Visible.append (digits _) (Visible.append (visible_of_plain (by decide +kernel)) ?_)
  refine Visible.append status (Visible.append (visible_of_plain (by decide +kernel)) ?_)
  exact Visible.append mode (visible_of_plain (by decide +kernel))

/-- Members that are described alike agree in all that is described. -/
theorem described_eq_iff {m m' : Member} :
    m.described = m'.described ↔
      m.id = m'.id ∧ m.address = m'.address ∧ m.status = m'.status ∧ m.mode = m'.mode := by
  constructor
  · intro same
    have texts := congrArg String.toList same
    rw [toList_described, toList_described] at texts
    have comma : ", address: Address \x7b host: ".toList.head? = some ',' := by
      simp only [String.reduceToList, List.head?_cons]
    have blank : " \x7d, status: ".toList.head? = some ' ' := by
      simp only [String.reduceToList, List.head?_cons]
    have texts := List.append_cancel_left texts
    obtain ⟨ids, texts⟩ := toDigits_cancel (by decide) (by decide) comma (by decide) texts
    obtain ⟨hosts, texts⟩ := quoted_cancel texts
    have texts := List.append_cancel_left texts
    obtain ⟨ports, texts⟩ := toDigits_cancel (by decide) (by decide) blank (by decide) texts
    obtain ⟨statuses, texts⟩ := Status.name_cancel texts
    obtain ⟨modes, -⟩ := Mode.name_cancel (List.append_cancel_left texts)
    have addresses : m.address = m'.address :=
      congrArg₂ Address.mk hosts (UInt16.toNat_inj.mp ports)
    exact ⟨UInt32.toNat_inj.mp ids, addresses, statuses, modes⟩
  · obtain ⟨id, address, line, status, mode⟩ := m
    obtain ⟨id', address', line', status', mode'⟩ := m'
    rintro ⟨rfl, rfl, rfl, rfl⟩
    rfl

end Member

end OrderCluster
