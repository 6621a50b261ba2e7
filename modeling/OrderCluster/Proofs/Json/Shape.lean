import OrderCluster.Json.Wire
import OrderCluster.Proofs.Json.Read

/-!
# Values of a shape are read back

A record is written with its fields in order, those without a value left out. Reading starts from
empty slots and fills one for each member; in the end the slots hold the record. Of a shape this asks
only that the names in a record differ, that the names of a choice differ, and that integers fit 64
bits.
-/

namespace OrderCluster.Json

/-! ## Shapes that can be read back -/

def Fields.names : Fields → List String
  | .nil => []
  | .required name _ rest => name :: rest.names
  | .optional name _ rest => name :: rest.names

mutual

/-- Whether what is written of a shape can be told apart when it is read. -/
def Shape.legible : Shape → Bool
  | .flag => true
  | .text => true
  | .integer least greatest => Int64.minValue.toInt ≤ least && greatest ≤ wordMax
  | .choice names => names.Nodup
  | .list item => item.legible
  | .record fields => fields.legible

/-- Whether the names of the fields differ and what is written of each field can be read. -/
def Fields.legible : Fields → Bool
  | .nil => true
  | .required name shape rest => !rest.names.contains name && shape.legible && rest.legible
  | .optional name shape rest => !rest.names.contains name && shape.legible && rest.legible

end

theorem opens_writeText (s : String) : Opens (writeText s) :=
  ⟨0x22, _, rfl, by decide, by decide, by decide⟩

theorem opens_writeInteger (i : Int) : Opens (writeInteger i) := by
  rw [writeInteger]
  split
  · exact ⟨0x2d, _, rfl, by decide, by decide, by decide⟩
  · obtain ⟨b, rest, eq, digit⟩ := digits_cons i.natAbs
    exact ⟨b, rest, eq, isBlank_of_isDigit digit, ne_of_isDigit digit (by decide),
      ne_of_isDigit digit (by decide)⟩

/-- No value of a shape is written like null. -/
theorem Shape.opens_compact (s : Shape) (v : s.Value) : Opens (s.toJson v).compact := by
  cases s with
  | flag =>
    cases (v : Bool)
    · exact ⟨0x66, _, rfl, by decide, by decide, by decide⟩
    · exact ⟨0x74, _, rfl, by decide, by decide, by decide⟩
  | text => exact opens_writeText v
  | integer least greatest => exact opens_writeInteger v.1
  | choice names => exact opens_writeText _
  | list item => exact ⟨0x5b, _, rfl, by decide, by decide, by decide⟩
  | record fields => exact ⟨0x7b, _, rfl, by decide, by decide, by decide⟩

/-! ## Slots -/

/-- The slots that hold a record. -/
def Fields.filled : (fs : Fields) → fs.Value → fs.Slots
  | .nil, _ => ()
  | .required _ _ rest, (v, vs) => (some v, rest.filled vs)
  | .optional _ _ rest, (v, vs) => (v.map some, rest.filled vs)

theorem Fields.fill_filled : (fs : Fields) → (v : fs.Value) → fs.fill (fs.filled v) = .ok v
  | .nil, _ => rfl
  | .required _ _ rest, (v, vs) => by
    rw [filled, fill, fill_filled rest vs]
    rfl
  | .optional _ _ rest, (v, vs) => by
    rw [filled, fill, fill_filled rest vs]
    cases v <;> rfl

/-- Members bear names of fields. -/
theorem Fields.mem_names : (fs : Fields) → (v : fs.Value) → ∀ m ∈ fs.toMembers v, m.1 ∈ fs.names
  | .nil, _ => by
    intro m among
    cases among
  | .required name shape rest, (v, vs) => by
    rw [toMembers, names]
    rintro m (_ | ⟨_, among⟩)
    · exact List.mem_cons_self
    · exact List.mem_cons_of_mem _ (mem_names rest vs m among)
  | .optional name shape rest, (some v, vs) => by
    rw [toMembers, names]
    rintro m (_ | ⟨_, among⟩)
    · exact List.mem_cons_self
    · exact List.mem_cons_of_mem _ (mem_names rest vs m among)
  | .optional name shape rest, (none, vs) => by
    rw [toMembers, names]
    exact fun m among => List.mem_cons_of_mem _ (mem_names rest vs m among)

theorem Fields.ne_of_fresh {name : String} (fs : Fields) (fresh : name ∉ fs.names) (v : fs.Value) :
    ∀ m ∈ fs.toMembers v, name ≠ m.1 := by
  rintro m among rfl
  exact fresh (fs.mem_names v m among)

theorem legible_cons {name : String} {shape : Shape} {rest : Fields}
    (legible : (!rest.names.contains name && shape.legible && rest.legible) = true) :
    name ∉ rest.names ∧ shape.legible = true ∧ rest.legible = true := by
  simp only [Bool.and_eq_true, Bool.not_eq_true', List.contains_eq_mem, decide_eq_false_iff_not]
    at legible
  exact ⟨legible.1.1, legible.1.2, legible.2⟩

/-! ## Members -/

section Members

variable {name : String} {shape : Shape} {rest : Fields}

/-- A value of its own name fills the empty slot of a required field. -/
theorem reads_required {text : Bytes} {v : shape.Value} (reads : Reads shape.read text v)
    (slots : rest.Slots) :
    Reads ((Fields.required name shape rest).readMember name (none, slots)) (0x3a :: text)
      (some v, slots) := by
  intro tail stops
  refine (if_pos rfl).trans ((if_neg Bool.false_ne_true).trans ?_)
  simp only [List.cons_append, readColon_colon, reads tail stops, ok_bind]
  rfl

/-- A value of its own name fills the empty slot of an optional field. -/
theorem reads_present {text : Bytes} {v : shape.Value} (reads : Reads shape.read text v)
    (opens : Opens text) (slots : rest.Slots) :
    Reads ((Fields.optional name shape rest).readMember name (none, slots)) (0x3a :: text)
      (some (some v), slots) := by
  intro tail stops
  refine (if_pos rfl).trans ((if_neg Bool.false_ne_true).trans ?_)
  simp only [List.cons_append, readColon_colon, reads_optional reads opens tail stops, ok_bind]
  rfl

/-- A member of another name passes a required field by. -/
theorem passes_required {key : String} {text : Bytes} {slots next : rest.Slots} (other : name ≠ key)
    (reads : Reads (rest.readMember key slots) text next) (slot : Option shape.Value) :
    Reads ((Fields.required name shape rest).readMember key (slot, slots)) text (slot, next) := by
  intro tail stops
  refine (if_neg other).trans ?_
  rw [reads tail stops]
  rfl

/-- A member of another name passes an optional field by. -/
theorem passes_optional {key : String} {text : Bytes} {slots next : rest.Slots} (other : name ≠ key)
    (reads : Reads (rest.readMember key slots) text next) (slot : Option (Option shape.Value)) :
    Reads ((Fields.optional name shape rest).readMember key (slot, slots)) text (slot, next) := by
  intro tail stops
  refine (if_neg other).trans ?_
  rw [reads tail stops]
  rfl

end Members

/-! ## Reading back -/

/-- What reading a record behind its opening brace comes to. -/
theorem read_object (fields : Fields) (s : Bytes) :
    ((Shape.record fields).read (0x7b :: s) : Except Fault (fields.Value × Bytes)) = (do
      let (slots, rest) ← readMembersWith fields.readMember (s.length + 1) true fields.empty s
      let v ← fields.fill slots
      return (v, ← closeObject rest)) :=
  rfl

mutual

/-- A value of a shape is read back from what is written of it. -/
theorem Shape.reads_compact : (s : Shape) → s.legible = true → (v : s.Value) →
    Reads s.read (s.toJson v).compact v
  | .flag, _, v => reads_flag v
  | .text, _, v => reads_string v
  | .integer least greatest, legible, v => by
    simp only [Shape.legible, Bool.and_eq_true, decide_eq_true_eq] at legible
    exact reads_integer legible.1 legible.2 v
  | .choice names, legible, v => by
    simp only [Shape.legible, decide_eq_true_eq] at legible
    exact reads_choice legible v
  | .list item, legible, (v : List item.Value) => by
    have items := reads_list (item.reads_compact legible) item.opens_compact v
    have texts : compactItems (v.map item.toJson) = v.map fun a => (item.toJson a).compact := by
      rw [compactItems_eq, List.map_map]
      rfl
    rw [← texts] at items
    exact items
  | .record fields, legible, (v : fields.Value) => by
    intro rest _
    have members := readMembersWith_object rest (fields.takes_members legible v)
    change (Shape.record fields).read
      (0x7b :: (commas (compactMembers (fields.toMembers v)) ++ [0x7d] ++ rest)) = _
    rw [List.append_assoc, List.singleton_append]
    refine (read_object fields _).trans ?_
    simp only [members, Fields.fill_filled, closeObject_brace, ok_bind]
    rfl

/-- The members of a record fill its slots. -/
theorem Fields.takes_members : (fs : Fields) → fs.legible = true → (v : fs.Value) →
    Takes fs.readMember fs.empty (fs.toMembers v) (fs.filled v)
  | .nil, _, _ => .nil _
  -- The first member fills the first slot; all later ones pass it by, since their names differ.
  | .required name shape rest, legible, (v, vs) => by
    obtain ⟨fresh, inner, others⟩ := legible_cons legible
    have behind := rest.takes_members others vs
    have passed := behind.lift (fun other reads => passes_required other reads (some v))
      (rest.ne_of_fresh fresh vs)
    exact .cons (reads_required (shape.reads_compact inner v) rest.empty) passed
  | .optional name shape rest, legible, (some v, vs) => by
    obtain ⟨fresh, inner, others⟩ := legible_cons legible
    have behind := rest.takes_members others vs
    have passed := behind.lift (fun other reads => passes_optional other reads (some (some v)))
      (rest.ne_of_fresh fresh vs)
    exact .cons (reads_present (shape.reads_compact inner v) (shape.opens_compact v) rest.empty)
      passed
  | .optional name shape rest, legible, (none, vs) => by
    obtain ⟨fresh, _, others⟩ := legible_cons legible
    have behind := rest.takes_members others vs
    exact behind.lift (fun other reads => passes_optional other reads none)
      (rest.ne_of_fresh fresh vs)

end

end OrderCluster.Json

namespace OrderCluster.Wire

variable {α : Type} [Wire α]

/-- What travels for a value is read as that value. -/
theorem reads_encode (legible : (shape α).legible = true) (a : α) :
    Json.Reads Wire.read (encode a) a := by
  intro rest stops
  have value := (shape α).reads_compact legible (toValue a) rest stops
  simp only [Wire.read, encode, toJson, value, Json.ok_bind, ofValue_toValue]
  rfl

theorem decodeFront_encode (legible : (shape α).legible = true) (a : α) :
    decodeFront (encode a) = .ok a := by
  have value := reads_encode legible a [] Json.stops_nil
  rw [List.append_nil] at value
  rw [decodeFront, value]
  rfl

theorem decode_encode (legible : (shape α).legible = true) (a : α) :
    decode (encode a) = .ok a := by
  have value := reads_encode legible a [] Json.stops_nil
  rw [List.append_nil] at value
  rw [decode, value]
  rfl

end OrderCluster.Wire
