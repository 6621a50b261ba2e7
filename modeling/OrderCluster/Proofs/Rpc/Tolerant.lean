import OrderCluster.Proofs.Json.Tolerance
import OrderCluster.Proofs.Rpc.Bodies

/-!
# Messages of other versions are understood

A node that knows more fields than another one can still talk to it. Whoever reads a message takes
the members of its objects in any order and skips all that it does not know, whatever values they
have; only what a required field lacks or what is given twice is refused. So fields may be added to
a message while older nodes are still running.
-/

namespace OrderCluster

open Json

/-! ## Values of a wire type -/

namespace Wire

variable {α : Type} [Wire α]

theorem read_eq_ok_iff {s rest : Bytes} {a : α} :
    Wire.read s = .ok (a, rest) ↔ ∃ v, (shape α).read s = .ok (v, rest) ∧ ofValue v = a := by
  constructor
  · intro h
    obtain ⟨⟨v, behind⟩, taken, made⟩ := bind_eq_ok_iff.mp h
    cases made
    exact ⟨v, taken, rfl⟩
  · rintro ⟨v, taken, rfl⟩
    rw [Wire.read, taken]
    rfl

theorem decodeFront_eq_ok_iff {s : Bytes} {a : α} :
    decodeFront s = .ok a ↔ ∃ rest, Wire.read s = .ok (a, rest) := by
  constructor
  · intro h
    obtain ⟨⟨b, rest⟩, taken, made⟩ := bind_eq_ok_iff.mp h
    cases made
    exact ⟨rest, taken⟩
  · rintro ⟨rest, taken⟩
    rw [decodeFront, taken]
    rfl

theorem decode_eq_ok_iff {s : Bytes} {a : α} :
    decode s = .ok a ↔ ∃ rest, Wire.read s = .ok (a, rest) ∧ Blank rest := by
  constructor
  · intro h
    obtain ⟨⟨b, rest⟩, taken, made⟩ := bind_eq_ok_iff.mp h
    dsimp only at made
    split at made
    · rename_i blank
      cases made
      exact ⟨rest, taken, skipBlanks_eq_nil_iff.mp (List.isEmpty_iff.mp blank)⟩
    · cases made
  · rintro ⟨rest, taken, blank⟩
    rw [decode, taken, ok_bind]
    exact if_pos (List.isEmpty_iff.mpr (skipBlanks_eq_nil_iff.mpr blank))

/-- What a collection in front of anything is read as. -/
theorem read_collection_iff {t : Bytes} (collection : IsCollection t) {behind rest : Bytes}
    {a : α} :
    Wire.read (t ++ behind) = .ok (a, rest) ↔
      rest = behind ∧ ∃ v, Denotes (shape α).read t v ∧ ofValue v = a := by
  rw [read_eq_ok_iff]
  simp only [(shape α).exact.iff collection.value (collection.meets behind), and_assoc,
    exists_and_left]

/-- After any number of edits the same is read. -/
theorem read_iff_of_edits {t t' : Bytes} (edits : Relation.EqvGen (Edit (shape α)) t t')
    {behind rest : Bytes} {a : α} :
    Wire.read (t ++ behind) = .ok (a, rest) ↔ Wire.read (t' ++ behind) = .ok (a, rest) := by
  induction edits with
  | rel t t' edit =>
    have alike := readAlike_of_edit edit
    rw [read_collection_iff alike.before, read_collection_iff alike.after]
    simp only [alike.same]
  | refl => rfl
  | symm _ _ _ ih => exact ih.symm
  | trans _ _ _ _ _ ih ih' => exact ih.trans ih'

theorem read_ne_ok_of_broken {t : Bytes} (broken : Broken (shape α) t) (behind rest : Bytes)
    (a : α) :
    Wire.read (t ++ behind) ≠ .ok (a, rest) := by
  obtain ⟨collection, unread⟩ := unread_of_broken broken
  intro h
  obtain ⟨-, v, denotes, -⟩ := (read_collection_iff collection).mp h
  exact unread v denotes

end Wire

namespace Body

/-- What is promised of the objects that stand for a body. -/
structure Tolerant (b : Body) : Prop where
  /-- A text that is read as a value and begins like an object is an object of well-formed members,
  and it is read to its end if only blanks follow. -/
  covers : ∀ {s more : Bytes} {v : b.Value}, Wire.decodeFront s = .ok v →
    skipBlanks s = 0x7b :: more →
      ∃ (lead : Bytes) (entries : List Json.Entry) (inner behind : Bytes), Blank lead ∧
        (∀ e ∈ entries, e.WellFormed) ∧ Blank inner ∧
          s = objectText lead entries inner ++ behind ∧ (Wire.decode s = .ok v ↔ Blank behind)
  /-- Members in another order, members of unknown names and null for what may be left out make no
  difference, at any depth and however many. -/
  same : ∀ {t t' : Bytes}, Relation.EqvGen (Edit (Wire.shape b.Value)) t t' →
    ∀ (behind : Bytes) (v : b.Value),
      (Wire.decode (t ++ behind) = .ok v ↔ Wire.decode (t' ++ behind) = .ok v) ∧
        (Wire.decodeFront (t ++ behind) = .ok v ↔ Wire.decodeFront (t' ++ behind) = .ok v)
  /-- A missing required field and a known field that is given twice are faults, at any depth. -/
  refuses : ∀ {t : Bytes}, Broken (Wire.shape b.Value) t → ∀ behind : Bytes,
    (∃ fault, (Wire.decode (t ++ behind) : Except Fault b.Value) = .error fault) ∧
      ∃ fault, (Wire.decodeFront (t ++ behind) : Except Fault b.Value) = .error fault

theorem exists_fault {α : Type} {read : Except Fault α} (never : ∀ a, read ≠ .ok a) :
    ∃ fault, read = .error fault := by
  cases read with
  | error fault => exact ⟨fault, rfl⟩
  | ok a => exact absurd rfl (never a)

/-- Every body is read tolerantly. -/
theorem tolerant (b : Body) : b.Tolerant where
  covers {s more v} decoded brace := by
    obtain ⟨behind, taken⟩ := Wire.decodeFront_eq_ok_iff.mp decoded
    obtain ⟨w, inner_taken, rfl⟩ := Wire.read_eq_ok_iff.mp taken
    obtain ⟨t, value, rfl, meets, denotes⟩ := (Wire.shape b.Value).exact.value inner_taken
    obtain ⟨lead, entries, inner, blank, each, inner_blank, rfl⟩ := value.object_of_brace brace
    refine ⟨lead, entries, inner, behind, blank, each, inner_blank, rfl, ?_⟩
    rw [Wire.decode_eq_ok_iff]
    constructor
    · rintro ⟨rest, again, rest_blank⟩
      rw [taken] at again
      cases again
      exact rest_blank
    · exact fun behind_blank => ⟨behind, taken, behind_blank⟩
  same {t t'} edits behind v := by
    simp only [Wire.decode_eq_ok_iff, Wire.decodeFront_eq_ok_iff, Wire.read_iff_of_edits edits,
      iff_self, and_self]
  refuses {t} broken behind := by
    constructor
    · refine exists_fault fun v decoded => ?_
      obtain ⟨rest, taken, -⟩ := Wire.decode_eq_ok_iff.mp decoded
      exact Wire.read_ne_ok_of_broken broken behind rest v taken
    · refine exists_fault fun v decoded => ?_
      obtain ⟨rest, taken⟩ := Wire.decodeFront_eq_ok_iff.mp decoded
      exact Wire.read_ne_ok_of_broken broken behind rest v taken

-- The value of an unknown member may hold what looks like a known one.
example : (Wire.decode (ascii "\x7b\"x\":\x7b\"orderNumber\":[]\x7d,\"orderNumber\":3\x7d") :
    Except Fault QueryRequest) = .ok ⟨3⟩ := by
  decide +kernel

/-! ## A message of a newer node -/

/-- A member with no blanks. -/
def memberOf (key : String) (value : Bytes) : Json.Entry := ⟨[], ascii key, [], value, []⟩

def orderMembers : List Json.Entry :=
  [memberOf "orderNumber" (ascii "3"), memberOf "name" (ascii "\"ant\""),
    memberOf "quantity" (ascii "1")]

/-- A member that orders do not have, of which the value holds a name that they have. -/
def origin : Json.Entry := memberOf "origin" (objectText [] [memberOf "name" (ascii "[null]")] [])

def pushed : List Json.Entry :=
  [memberOf "order" (objectText [] orderMembers []), memberOf "requesterId" (ascii "2")]

/-- The pushed order as a newer node might write it. -/
def pushedByNewer : List Json.Entry :=
  [memberOf "requesterId" (ascii "2"), memberOf "order" (objectText [] (origin :: orderMembers) [])]

/-- What a newer node adds to an order and how it arranges its message make no difference, and
without the order the message is refused. -/
theorem tolerant_pushed :
    Relation.EqvGen (Edit (Wire.shape AcceptRequest)) (objectText [] pushed [])
        (objectText [] pushedByNewer []) ∧
      (Wire.decode (objectText [] pushed []) : Except Fault AcceptRequest) =
        .ok ⟨⟨3, "ant", 1⟩, 2⟩ ∧
      (Wire.decode (objectText [] pushedByNewer []) : Except Fault AcceptRequest) =
        .ok ⟨⟨3, "ant", 1⟩, 2⟩ ∧
      ∃ fault, (Wire.decode (objectText [] pushed.tail []) : Except Fault AcceptRequest) =
        .error fault := by
  have stranger : Edit (Wire.shape Order) (objectText [] ([] ++ orderMembers) [])
      (objectText [] ([] ++ origin :: orderMembers) []) :=
    .stranger blank_nil (by decide +kernel) blank_nil (show origin.Bears "origin" by decide +kernel)
      (by decide +kernel)
  have order : Entry.Bears (memberOf "order" (objectText [] orderMembers [])) "order" := by
    decide +kernel
  have inside : Edit (Wire.shape AcceptRequest) (objectText [] ([] ++ pushed) [])
      (objectText [] ([] ++ pushedByNewer.reverse) []) :=
    .member blank_nil (by decide +kernel) blank_nil order rfl stranger
  have turned : Edit (Wire.shape AcceptRequest) (objectText [] pushedByNewer.reverse [])
      (objectText [] pushedByNewer []) :=
    .order blank_nil (by decide +kernel) blank_nil (List.reverse_perm _)
  have edits := Relation.EqvGen.trans _ _ _ (.rel _ _ inside) (.rel _ _ turned)
  have decoded : (Wire.decode (objectText [] pushed []) : Except Fault AcceptRequest) =
      .ok ⟨⟨3, "ant", 1⟩, 2⟩ := by decide +kernel
  have missing : ∀ e ∈ pushed.tail, ¬ e.Bears "order" := by decide +kernel
  have broken : Broken (Wire.shape AcceptRequest) (objectText [] pushed.tail []) :=
    .missing blank_nil (by decide +kernel) blank_nil rfl missing
  refine ⟨edits, decoded, ?_, ?_⟩
  · have same := ((tolerant (.request .accept)).same edits [] ⟨⟨3, "ant", 1⟩, 2⟩).1
    simp only [List.append_nil] at same
    exact same.mp decoded
  · have refused := ((tolerant (.request .accept)).refuses broken []).1
    rw [List.append_nil] at refused
    exact refused

end Body

end OrderCluster
