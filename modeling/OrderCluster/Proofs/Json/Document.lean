import OrderCluster.Json.Document
import OrderCluster.Proofs.Json.Read

/-!
# What is written is a text and a document

Compact JSON consists of ASCII and of the contents of strings, so it is always well-formed text.
A string is read as the document that it is, and so is an object whose members are.
-/

namespace OrderCluster.Json

/-! ## Compact JSON is text -/

theorem isText_digits (n : Nat) : IsText (digits n) := by
  refine isText_ascii (List.all_eq_true.mpr fun b among => decide_eq_true ?_)
  have digit := isDigit_of_mem_digits b among
  simp only [isDigit, Bool.and_eq_true, decide_eq_true_eq] at digit
  exact UInt8.lt_of_le_of_lt digit.2 (by decide)

theorem isText_writeInteger (i : Int) : IsText (writeInteger i) := by
  have minus : IsText [0x2d] := isText_ascii (by decide)
  rw [writeInteger]
  split
  · exact isText_append minus (isText_digits _)
  · exact isText_digits _

theorem isText_commas {texts : List Bytes} (each : ∀ text ∈ texts, IsText text) :
    IsText (commas texts) := by
  cases texts with
  | nil => exact isText_nil
  | cons text texts =>
    have comma : IsText [0x2c] := isText_ascii (by decide)
    rw [commas_cons]
    refine isText_append (each text List.mem_cons_self) (isText_flatMap fun next among => ?_)
    exact isText_append comma (each next (List.mem_cons_of_mem _ among))

mutual

/-- Whatever strings it holds, compact JSON is well-formed text. -/
theorem isText_compact : (value : Json) → IsText value.compact
  | .null => isText_ascii (by decide)
  | .bool true => isText_ascii (by decide)
  | .bool false => isText_ascii (by decide)
  | .number i => isText_writeInteger i
  | .string s => isText_writeText s
  | .array items => by
    have opening : IsText [0x5b] := isText_ascii (by decide)
    have closing : IsText [0x5d] := isText_ascii (by decide)
    exact isText_append opening (isText_append (isText_commas (isText_items items)) closing)
  | .object members => by
    have opening : IsText [0x7b] := isText_ascii (by decide)
    have closing : IsText [0x7d] := isText_ascii (by decide)
    exact isText_append opening (isText_append (isText_commas (isText_members members)) closing)

theorem isText_items : (items : List Json) → ∀ text ∈ compactItems items, IsText text
  | [] => fun text among => by cases among
  | item :: rest => by
    rw [compactItems]
    rintro text (_ | ⟨_, among⟩)
    · exact isText_compact item
    · exact isText_items rest text among

theorem isText_members : (members : List (String × Json)) →
    ∀ text ∈ compactMembers members, IsText text
  | [] => fun text among => by cases among
  | (name, value) :: rest => by
    have colon : IsText [0x3a] := isText_ascii (by decide)
    rw [compactMembers]
    rintro text (_ | ⟨_, among⟩)
    · exact isText_append (isText_writeText name) (isText_append colon (isText_compact value))
    · exact isText_members rest text among

end

/-! ## Documents -/

namespace Document

theorem reads_string (depth : Nat) (s : String) :
    Reads (readWithin depth) (Json.string s).compact (.string s) := by
  intro rest _
  have text := readText_escaped s rest
  rw [compact, writeText_append, readWithin, skipBlanks_cons (by decide)]
  simp only [text, ok_bind]
  rfl

theorem reads_member {read : Reader Document} {value : Json} {d : Document}
    (reads : Reads read value.compact d) (name : String) (members : List (String × Document)) :
    Reads (readMember read name members) (0x3a :: value.compact) ((name, d) :: members) := by
  intro rest stops
  simp only [readMember, List.cons_append, readColon_colon, reads rest stops, ok_bind]
  rfl

/-- An object is read one level deeper than its members. -/
theorem reads_object {depth : Nat} {members : List (String × Json)}
    {found : List (String × Document)}
    (takes : Takes (readMember (readWithin depth)) [] members found) :
    Reads (readWithin (depth + 1)) (Json.object members).compact (.object found) := by
  intro rest _
  have all := readMembersWith_object rest takes
  have text : (Json.object members).compact ++ rest =
      0x7b :: (commas (compactMembers members) ++ 0x7d :: rest) := by
    rw [compact, List.cons_append, List.append_assoc, List.singleton_append]
  rw [text, readWithin, skipBlanks_cons (by decide)]
  simp only [all, closeObject_brace, ok_bind]
  rfl

end Document

end OrderCluster.Json
