import OrderCluster.Proofs.Json.Text
import OrderCluster.Text.Lossy

/-!
# Bytes that are text are read without loss

A character is read from its own bytes: the first tells how many follow and in which range the second
lies, which keeps out the codes that have shorter bytes, those of surrogates and those beyond the last
character. So where bytes are those of a text, no replacement is made.
-/

namespace OrderCluster.Text

/-! ## One byte -/

theorem decodeLossy_ascii {n : Nat} (small : n < 128) (rest : List UInt8) :
    decodeLossy none (UInt8.ofNat n :: rest) = Char.ofNat n :: decodeLossy none rest := by
  have value : (UInt8.ofNat n).toNat = n := by
    rw [UInt8.toNat_ofNat']
    omega
  have ascii : UInt8.ofNat n < 0x80 := by
    rw [UInt8.lt_iff_toNat_lt, value]
    exact small
  rw [decodeLossy, if_pos ascii, value]

theorem decodeLossy_lead {b : UInt8} {missing bits : Nat} {low high : UInt8}
    (lead : lead? b = some (missing, low, high, bits)) (rest : List UInt8) :
    decodeLossy none (b :: rest) = decodeLossy (some ⟨missing, low, high, bits⟩) rest := by
  have beyond : ¬ b < 0x80 := by
    intro ascii
    have nothing : ∀ n < 128, lead? (UInt8.ofNat n) = none := by decide +kernel
    have none_led := nothing b.toNat (UInt8.lt_iff_toNat_lt.mp ascii)
    rw [UInt8.ofNat_toNat, lead] at none_led
    cases none_led
  rw [decodeLossy]
  simp only [if_neg beyond, lead]

/-- A byte that continues a character, and the bits that it gives. -/
theorem decodeLossy_follow {missing bits low high n : Nat} (least : low ≤ n + 0x80)
    (greatest : n + 0x80 ≤ high) (low_byte : low < 256) (high_byte : high < 256)
    (rest : List UInt8) :
    decodeLossy (some ⟨missing, UInt8.ofNat low, UInt8.ofNat high, bits⟩)
        (UInt8.ofNat (n + 0x80) :: rest) =
      if missing = 1 then Char.ofNat (bits * 64 + n) :: decodeLossy none rest
      else decodeLossy (some ⟨missing - 1, 0x80, 0xbf, bits * 64 + n⟩) rest := by
  have value : (UInt8.ofNat (n + 0x80)).toNat = n + 0x80 := by
    rw [UInt8.toNat_ofNat']
    omega
  have within : (UInt8.ofNat low ≤ UInt8.ofNat (n + 0x80) &&
      UInt8.ofNat (n + 0x80) ≤ UInt8.ofNat high) = true := by
    simp only [Bool.and_eq_true, decide_eq_true_eq, UInt8.le_iff_toNat_le, value,
      UInt8.toNat_ofNat']
    omega
  rw [decodeLossy]
  simp only [within, if_true, value, Nat.add_sub_cancel]

/-! ## First bytes -/

theorem lead?_two : ∀ n < 32, n < 2 ∨ lead? (UInt8.ofNat (n + 0xc0)) = some (1, 0x80, 0xbf, n) := by
  decide +kernel

theorem lead?_three : ∀ n < 16, n = 0 ∨ n = 0xd ∨
    lead? (UInt8.ofNat (n + 0xe0)) = some (2, 0x80, 0xbf, n) := by
  decide +kernel

theorem lead?_four : ∀ n < 4, n = 0 ∨
    lead? (UInt8.ofNat (n + 0xf0)) = some (3, 0x80, 0xbf, n) := by
  decide +kernel

/-! ## Characters -/

/-- A character of two bytes is read from its code. -/
theorem decodeLossy_two {v : Nat} (least : 0x80 ≤ v) (greatest : v ≤ 0x7ff) (rest : List UInt8) :
    decodeLossy none
        ([UInt8.ofNat (v / 64 % 0x20 + 0xc0), UInt8.ofNat (v % 0x40 + 0x80)] ++ rest) =
      Char.ofNat v :: decodeLossy none rest := by
  have lead := (lead?_two (v / 64 % 0x20) (by omega)).resolve_left (by omega)
  have code : v / 64 % 0x20 * 64 + v % 0x40 = v := by omega
  have last := @decodeLossy_follow 1 (v / 64 % 0x20) 0x80 0xbf (v % 0x40) (by omega) (by omega)
    (by omega) (by omega) rest
  rw [List.cons_append, decodeLossy_lead lead, List.singleton_append]
  rw [if_pos rfl, code] at last
  exact last

/-- The second and the third byte of a character of three. -/
theorem decodeLossy_tail {v bits low high : Nat} (least : low ≤ v / 64 % 0x40 + 0x80)
    (greatest : v / 64 % 0x40 + 0x80 ≤ high) (low_byte : low < 256) (high_byte : high < 256)
    (code : bits = v / 4096) (rest : List UInt8) :
    decodeLossy (some ⟨2, UInt8.ofNat low, UInt8.ofNat high, bits⟩)
        (UInt8.ofNat (v / 64 % 0x40 + 0x80) :: UInt8.ofNat (v % 0x40 + 0x80) :: rest) =
      Char.ofNat v :: decodeLossy none rest := by
  have sum : (bits * 64 + v / 64 % 0x40) * 64 + v % 0x40 = v := by omega
  have last := @decodeLossy_follow 1 (bits * 64 + v / 64 % 0x40) 0x80 0xbf (v % 0x40) (by omega)
    (by omega) (by omega) (by omega) rest
  rw [if_pos rfl, sum] at last
  rw [decodeLossy_follow least greatest low_byte high_byte, if_neg (by decide)]
  exact last

/-- A character of three bytes is read from its code, unless that is the code of a surrogate. -/
theorem decodeLossy_three {v : Nat} (least : 0x800 ≤ v) (greatest : v ≤ 0xffff)
    (valid : v < 0xd800 ∨ 0xdfff < v) (rest : List UInt8) :
    decodeLossy none
        ([UInt8.ofNat (v / 4096 % 0x10 + 0xe0), UInt8.ofNat (v / 64 % 0x40 + 0x80),
          UInt8.ofNat (v % 0x40 + 0x80)] ++ rest) =
      Char.ofNat v :: decodeLossy none rest := by
  have code : v / 4096 % 0x10 = v / 4096 := by omega
  simp only [List.cons_append, List.nil_append]
  rcases lead?_three (v / 4096 % 0x10) (by omega) with first | surrogate | lead
  · have led : lead? (UInt8.ofNat (v / 4096 % 0x10 + 0xe0)) = some (2, 0xa0, 0xbf, 0) := by
      rw [first]
      rfl
    rw [decodeLossy_lead led]
    exact @decodeLossy_tail v 0 0xa0 0xbf (by omega) (by omega) (by omega) (by omega)
      (first.symm.trans code) rest
  · have led : lead? (UInt8.ofNat (v / 4096 % 0x10 + 0xe0)) = some (2, 0x80, 0x9f, 0xd) := by
      rw [surrogate]
      rfl
    rw [decodeLossy_lead led]
    exact @decodeLossy_tail v 0xd 0x80 0x9f (by omega) (by omega) (by omega) (by omega)
      (surrogate.symm.trans code) rest
  · rw [decodeLossy_lead lead]
    exact @decodeLossy_tail v (v / 4096 % 0x10) 0x80 0xbf (by omega) (by omega) (by omega) (by omega)
      code rest

/-- A character of four bytes is read from its code, unless that lies beyond the last character. -/
theorem decodeLossy_four {v : Nat} (least : 0x10000 ≤ v) (greatest : v < 0x110000)
    (rest : List UInt8) :
    decodeLossy none
        ([UInt8.ofNat (v / 262144 % 0x08 + 0xf0), UInt8.ofNat (v / 4096 % 0x40 + 0x80),
          UInt8.ofNat (v / 64 % 0x40 + 0x80), UInt8.ofNat (v % 0x40 + 0x80)] ++ rest) =
      Char.ofNat v :: decodeLossy none rest := by
  have tail : ∀ {bits low high : Nat}, low ≤ v / 4096 % 0x40 + 0x80 →
      v / 4096 % 0x40 + 0x80 ≤ high → low < 256 → high < 256 → bits = v / 262144 →
        decodeLossy (some ⟨3, UInt8.ofNat low, UInt8.ofNat high, bits⟩)
            (UInt8.ofNat (v / 4096 % 0x40 + 0x80) :: UInt8.ofNat (v / 64 % 0x40 + 0x80) ::
              UInt8.ofNat (v % 0x40 + 0x80) :: rest) =
          Char.ofNat v :: decodeLossy none rest := by
    intro bits low high above below low_byte high_byte code
    have code' : bits * 64 + v / 4096 % 0x40 = v / 4096 := by omega
    rw [decodeLossy_follow above below low_byte high_byte, if_neg (by decide)]
    exact @decodeLossy_tail v (bits * 64 + v / 4096 % 0x40) 0x80 0xbf (by omega) (by omega)
      (by omega) (by omega) code' rest
  simp only [List.cons_append, List.nil_append]
  by_cases top : v / 262144 % 0x08 = 4
  · have led : lead? (UInt8.ofNat (v / 262144 % 0x08 + 0xf0)) = some (3, 0x80, 0x8f, 4) := by
      rw [top]
      rfl
    rw [decodeLossy_lead led]
    exact @tail 4 0x80 0x8f (by omega) (by omega) (by omega) (by omega) (by omega)
  · rcases lead?_four (v / 262144 % 0x08) (by omega) with first | lead
    · have led : lead? (UInt8.ofNat (v / 262144 % 0x08 + 0xf0)) = some (3, 0x90, 0xbf, 0) := by
        rw [first]
        rfl
      rw [decodeLossy_lead led]
      exact @tail 0 0x90 0xbf (by omega) (by omega) (by omega) (by omega) (by omega)
    · rw [decodeLossy_lead lead]
      exact @tail (v / 262144 % 0x08) 0x80 0xbf (by omega) (by omega) (by omega) (by omega)
        (by omega)

/-- A character is read from its bytes. -/
theorem decodeLossy_char (c : Char) (rest : List UInt8) :
    decodeLossy none (String.utf8EncodeChar c ++ rest) = c :: decodeLossy none rest := by
  have valid : c.val.toNat < 0xd800 ∨ 0xdfff < c.val.toNat ∧ c.val.toNat < 0x110000 := c.valid
  have same : Char.ofNat c.val.toNat = c := Char.ofNat_toNat c
  rcases Json.utf8EncodeChar_cases c with
    ⟨small, eq⟩ | ⟨least, greatest, eq⟩ | ⟨least, greatest, eq⟩ | ⟨least, eq⟩
  · rw [eq, List.singleton_append, decodeLossy_ascii (Nat.lt_succ_of_le small), same]
  · rw [eq, decodeLossy_two least greatest, same]
  · rw [eq, decodeLossy_three least greatest (by omega), same]
  · rw [eq, decodeLossy_four least (by omega), same]

/-- The bytes of a text are read as that text. -/
theorem lossy_utf8 (s : String) : lossy (Json.utf8 s) = s := by
  have chars : ∀ cs : List Char, decodeLossy none (cs.flatMap String.utf8EncodeChar) = cs := by
    intro cs
    induction cs with
    | nil =>
      rw [List.flatMap_nil, decodeLossy]
      rfl
    | cons c cs ih => rw [List.flatMap_cons, decodeLossy_char, ih]
  rw [lossy, Json.utf8_eq, chars, String.ofList_toList]

end OrderCluster.Text
