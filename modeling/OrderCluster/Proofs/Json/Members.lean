import OrderCluster.Proofs.Json.Exact
import OrderCluster.Proofs.Json.Shape

/-!
# What an object is read as

Each member of an object takes what was read so far a step further, by its name and its value alone.
A field takes the value of a member of its name, once; a member of another name passes all fields
by. So a record is read exactly, from an object or from an array, and every shape is.
-/

namespace OrderCluster.Json

/-! ## Members one by one -/

/-- The key of a member stands for a name. -/
def Entry.Bears (e : Entry) (name : String) : Prop := Spells e.key name

instance (e : Entry) (name : String) : Decidable (e.Bears name) :=
  inferInstanceAs (Decidable (Spells e.key name))

/-- What members lead to, each of them by a step that its name and its value decide. -/
inductive Leads {σ : Type} (step : String → Bytes → σ → σ → Prop) : σ → List Entry → σ → Prop
  | nil (slots : σ) : Leads step slots [] slots
  | cons {slots next last : σ} {name : String} {e : Entry} {entries : List Entry}
      (bears : e.Bears name) (one : step name e.value slots next)
      (others : Leads step next entries last) : Leads step slots (e :: entries) last

/-- What stands behind a key is read as a colon and one value. -/
structure ExactMember {σ : Type} (member : String → σ → Reader σ)
    (step : String → Bytes → σ → σ → Prop) : Prop where
  iff : ∀ {name slots next gap t rest behind}, Blank gap → IsValue t → Meets t behind →
    (member name slots (gap ++ 0x3a :: (t ++ behind)) = .ok (next, rest) ↔
      rest = behind ∧ step name t slots next)
  value : ∀ {name slots next s rest}, member name slots s = .ok (next, rest) →
    ∃ gap t, Blank gap ∧ IsValue t ∧ s = gap ++ 0x3a :: (t ++ rest)

theorem nextKey_separated {a : Bytes} (blank : Blank a) {e : Entry} (before : Blank e.before)
    (first : Bool) (texts : List Bytes) (tail : Bytes) :
    nextKey first (a ++ (separated first (e.text :: texts) ++ tail)) =
      .ok (some (e.key ++
        0x22 :: (e.gap ++ 0x3a :: (e.value ++ (e.after ++ (separated false texts ++ tail)))))) := by
  cases first with
  | true =>
    simp only [separated, if_true, Entry.text, List.append_assoc, List.cons_append, nextKey]
    rw [blank.skipBlanks_append, before.skipBlanks_cons (by decide)]
    rfl
  | false =>
    simp only [separated, Bool.false_eq_true, if_false, Entry.text, List.append_assoc,
      List.cons_append, nextKey]
    rw [blank.skipBlanks_cons (by decide)]
    simp only [if_true]
    rw [if_neg (by decide), before.skipBlanks_cons (by decide)]
    rfl

theorem nextKey_close {a inner : Bytes} (blank : Blank a) (inner_blank : Blank inner) (first : Bool)
    (rest : Bytes) : nextKey first (a ++ (inner ++ 0x7d :: rest)) = .ok none := by
  rw [nextKey, blank.skipBlanks_append, inner_blank.skipBlanks_cons (by decide)]
  rfl

theorem closeObject_close {a inner : Bytes} (blank : Blank a) (inner_blank : Blank inner)
    (rest : Bytes) : closeObject (a ++ (inner ++ 0x7d :: rest)) = .ok rest := by
  rw [closeObject, blank.skipBlanks_append, inner_blank.skipBlanks_cons (by decide)]
  rfl

/-- Where there is no next member, the closing brace comes. -/
theorem of_nextKey_none {first : Bool} {s : Bytes} (h : nextKey first s = .ok none) :
    ∃ a rest, Blank a ∧ s = a ++ 0x7d :: rest := by
  unfold nextKey at h
  split at h
  · cases h
  · rename_i b rest eq
    obtain ⟨a, blank, rfl⟩ := exists_of_skipBlanks eq
    split at h
    · rename_i close
      exact ⟨a, rest, blank, by rw [close]⟩
    · split at h
      · split at h
        · cases h
        · cases h
      · split at h
        · split at h
          · cases h
          · cases h
          · cases h
        · cases h

/-- The next key stands behind blanks, and behind a comma unless it is the first one. -/
theorem of_nextKey_some {first : Bool} {s behind : Bytes}
    (h : nextKey first s = .ok (some behind)) :
    ∃ a c, Blank a ∧ Blank c ∧ (first = true → a = []) ∧
      s = a ++ ((if first then c else 0x2c :: c) ++ 0x22 :: behind) := by
  unfold nextKey at h
  split at h
  · cases h
  · rename_i b rest eq
    obtain ⟨a, blank, rfl⟩ := exists_of_skipBlanks eq
    split at h
    · cases h
    · split at h
      · rename_i opening
        split at h
        · rename_i quote
          obtain rfl := Option.some.inj (Except.ok.inj h)
          refine ⟨[], a, blank_nil, blank, fun _ => rfl, ?_⟩
          rw [if_pos opening, List.nil_append, quote]
        · cases h
      · rename_i later
        split at h
        · rename_i comma
          split at h
          · cases h
          · rename_i eq
            obtain ⟨c, c_blank, rfl⟩ := exists_of_skipBlanks eq
            obtain rfl := Option.some.inj (Except.ok.inj h)
            refine ⟨a, c, blank, c_blank, fun opening => absurd opening later, ?_⟩
            rw [if_neg later, comma, List.cons_append]
          · cases h
        · cases h

section

variable {σ : Type} {member : String → σ → Reader σ} {step : String → Bytes → σ → σ → Prop}

/-- The members of an object are read one by one by what their names and values are. -/
theorem readMembersWith_iff (exact : ExactMember member step) {entries : List Entry}
    (each : ∀ e ∈ entries, e.WellFormed) {inner : Bytes} (inner_blank : Blank inner) {a : Bytes}
    (blank : Blank a) (first : Bool) {fuel : Nat} (enough : entries.length < fuel) (behind : Bytes)
    (slots last : σ) (rest : Bytes) :
    (∃ s, readMembersWith member fuel first slots
        (a ++ (separated first (entries.map Entry.text) ++ (inner ++ 0x7d :: behind))) =
          .ok (last, s) ∧ closeObject s = .ok rest) ↔
      rest = behind ∧ Leads step slots entries last := by
  induction entries generalizing a first fuel slots with
  | nil =>
    obtain ⟨fuel, rfl⟩ := Nat.exists_eq_succ_of_ne_zero (Nat.ne_zero_of_lt enough)
    have closed := closeObject_close blank inner_blank behind
    simp only [List.map_nil, separated, List.nil_append, readMembersWith,
      nextKey_close blank inner_blank, ok_bind]
    constructor
    · rintro ⟨s, h, close⟩
      obtain ⟨rfl, rfl⟩ := Prod.mk.inj (Except.ok.inj h)
      rw [closed] at close
      exact ⟨(Except.ok.inj close).symm, .nil _⟩
    · rintro ⟨rfl, ⟨⟩⟩
      exact ⟨_, rfl, closed⟩
  | cons e entries ih =>
    obtain ⟨fuel, rfl⟩ := Nat.exists_eq_succ_of_ne_zero (Nat.ne_zero_of_lt enough)
    obtain ⟨whole, others⟩ := List.forall_mem_cons.mp each
    have stops := stops_separated whole.after inner_blank (by decide : isDigit 0x7d = false ∧ _)
      (entries.map Entry.text) behind
    have more := ih others whole.after false (Nat.lt_of_succ_lt_succ enough)
    simp only [List.map_cons, readMembersWith, nextKey_separated blank whole.before, ok_bind]
    constructor
    · rintro ⟨s, h, close⟩
      obtain ⟨⟨name, behind_key⟩, key, stepped⟩ := bind_eq_ok_iff.mp h
      obtain ⟨rfl, bears⟩ := (readText_eq_iff whole.key).mp key
      obtain ⟨⟨next, behind_value⟩, taken, tail⟩ := bind_eq_ok_iff.mp stepped
      obtain ⟨rfl, one⟩ := (exact.iff whole.gap whole.value fun _ => stops).mp taken
      obtain ⟨rfl, leads⟩ := (more next).mp ⟨s, tail, close⟩
      exact ⟨rfl, .cons bears one leads⟩
    · rintro ⟨rfl, leads⟩
      cases leads with
      | @cons _ next _ name _ _ bears one leads =>
        obtain ⟨s, tail, close⟩ := (more next).mpr ⟨rfl, leads⟩
        refine ⟨s, ?_, close⟩
        rw [(readText_eq_iff whole.key).mpr ⟨rfl, bears⟩, ok_bind]
        simp only
        rw [(exact.iff whole.gap whole.value fun _ => stops).mpr ⟨rfl, one⟩, ok_bind]
        exact tail

/-- What is read as members is an object without its opening brace. -/
theorem exists_entries (exact : ExactMember member step) {fuel : Nat} {first : Bool}
    {slots last : σ} {s rest : Bytes}
    (h : readMembersWith member fuel first slots s = .ok (last, rest)) :
    ∃ (a : Bytes) (entries : List Entry) (inner more : Bytes), Blank a ∧
      (∀ e ∈ entries, e.WellFormed) ∧ Blank inner ∧ (first = true → a = []) ∧
        rest = inner ++ 0x7d :: more ∧
          s = a ++ (separated first (entries.map Entry.text) ++ (inner ++ 0x7d :: more)) := by
  induction fuel generalizing first slots s with
  | zero => cases h
  | succ fuel ih =>
    simp only [readMembersWith] at h
    obtain ⟨next, stepped, step⟩ := bind_eq_ok_iff.mp h
    cases next with
    | none =>
      obtain ⟨inner, more, blank, rfl⟩ := of_nextKey_none stepped
      obtain ⟨rfl, rfl⟩ := Prod.mk.inj (Except.ok.inj step)
      exact ⟨[], [], inner, more, blank_nil, List.forall_mem_nil _, blank, fun _ => rfl, rfl, rfl⟩
    | some behind =>
      obtain ⟨a, c, blank, c_blank, opening, rfl⟩ := of_nextKey_some stepped
      obtain ⟨⟨name, after_key⟩, keyed, named⟩ := bind_eq_ok_iff.mp step
      obtain ⟨key, spelling, rfl, -⟩ := isSpelling_of_readText keyed
      obtain ⟨⟨next, after_value⟩, one, tail⟩ := bind_eq_ok_iff.mp named
      obtain ⟨gap, t, gap_blank, value, rfl⟩ := exact.value one
      obtain ⟨after, entries, inner, more, after_blank, each, inner_blank, -, rfl, rfl⟩ := ih tail
      refine ⟨a, ⟨c, key, gap, t, after⟩ :: entries, inner, more, blank,
        List.forall_mem_cons.mpr ⟨⟨c_blank, spelling, gap_blank, value, after_blank⟩, each⟩,
        inner_blank, opening, rfl, ?_⟩
      cases first <;> simp [separated, Entry.text]

end

/-! ## Fields -/

/-- The fields are of shapes that are read exactly. -/
def Fields.EachExact : Fields → Prop
  | .nil => True
  | .required _ shape rest => Exact shape.read ∧ rest.EachExact
  | .optional _ shape rest => Exact shape.read ∧ rest.EachExact

section

variable {α σ : Type}

/-- A slot for the values of one name in front of other slots. -/
def slotMember (name : String) (read : Reader α) (member : String → σ → Reader σ) :
    String → Option α × σ → Reader (Option α × σ) :=
  fun key (slot, slots) s =>
    if name = key then
      if slot.isSome then .error .mismatched
      else do
        let (v, s) ← read (← readColon s)
        return ((some v, slots), s)
    else do
      let (slots, s) ← member key slots s
      return ((slot, slots), s)

/-- A slot takes the value of a member of its name if it is still empty; a member of another name
passes it by. -/
def SlotStep (name : String) (read : Reader α) (step : String → Bytes → σ → σ → Prop) (key : String)
    (t : Bytes) (before after : Option α × σ) : Prop :=
  if name = key then
    before.1 = none ∧ after.2 = before.2 ∧ ∃ v, after.1 = some v ∧ Denotes read t v
  else after.1 = before.1 ∧ step key t before.2 after.2

end

/-- What a member does to the slots of a record: if it has another name than all fields, nothing. -/
def Fields.Stores : (fs : Fields) → String → Bytes → fs.Slots → fs.Slots → Prop
  | .nil => fun _ _ _ _ => True
  | .required name shape rest => SlotStep name shape.read rest.Stores
  | .optional name shape rest => SlotStep name (readOptional shape.read) rest.Stores

theorem readColon_gap {gap : Bytes} (blank : Blank gap) (rest : Bytes) :
    readColon (gap ++ 0x3a :: rest) = .ok rest := by
  rw [readColon, blank.skipBlanks_cons (by decide)]
  rfl

theorem of_readColon {s rest : Bytes} (h : readColon s = .ok rest) :
    ∃ gap, Blank gap ∧ s = gap ++ 0x3a :: rest := by
  unfold readColon at h
  split at h
  · cases h
  · rename_i eq
    obtain ⟨gap, blank, rfl⟩ := exists_of_skipBlanks eq
    obtain rfl := Except.ok.inj h
    exact ⟨gap, blank, rfl⟩
  · cases h

theorem slot_exact {α σ : Type} {read : Reader α} {member : String → σ → Reader σ}
    {step : String → Bytes → σ → σ → Prop} (exact : Exact read) (others : ExactMember member step)
    (name : String) :
    ExactMember (slotMember name read member) (SlotStep name read step) where
  iff {key before after gap t rest behind} blank value meets := by
    obtain ⟨slot, slots⟩ := before
    simp only [slotMember, SlotStep]
    split
    · cases slot with
      | some v =>
        constructor
        · rintro ⟨⟩
        · rintro ⟨-, ⟨⟩, -⟩
      | none =>
        simp only [Option.isSome_none, Bool.false_eq_true, if_false, readColon_gap blank, ok_bind]
        constructor
        · intro h
          obtain ⟨⟨v, left⟩, taken, made⟩ := bind_eq_ok_iff.mp h
          obtain ⟨rfl, rfl⟩ := Prod.mk.inj (Except.ok.inj made)
          obtain ⟨rfl, denotes⟩ := (exact.iff value meets).mp taken
          exact ⟨rfl, trivial, rfl, v, rfl, denotes⟩
        · rintro ⟨rfl, -, kept, v, stored, denotes⟩
          obtain ⟨slot', slots'⟩ := after
          obtain rfl := kept
          obtain rfl := stored
          rw [denotes _ meets]
          rfl
    · constructor
      · intro h
        obtain ⟨⟨next, left⟩, taken, made⟩ := bind_eq_ok_iff.mp h
        obtain ⟨rfl, rfl⟩ := Prod.mk.inj (Except.ok.inj made)
        obtain ⟨rfl, one⟩ := (others.iff blank value meets).mp taken
        exact ⟨rfl, rfl, one⟩
      · rintro ⟨rfl, kept, one⟩
        obtain ⟨slot', slots'⟩ := after
        obtain rfl := kept
        rw [(others.iff blank value meets).mpr ⟨rfl, one⟩]
        rfl
  value {key before after s rest} h := by
    obtain ⟨slot, slots⟩ := before
    simp only [slotMember] at h
    split at h
    · split at h
      · cases h
      · obtain ⟨behind, colon, tail⟩ := bind_eq_ok_iff.mp h
        obtain ⟨gap, blank, rfl⟩ := of_readColon colon
        obtain ⟨⟨v, left⟩, taken, made⟩ := bind_eq_ok_iff.mp tail
        obtain ⟨rfl, rfl⟩ := Prod.mk.inj (Except.ok.inj made)
        obtain ⟨t, value, rfl, -, -⟩ := exact.value taken
        exact ⟨gap, t, blank, value, rfl⟩
    · obtain ⟨⟨next, left⟩, taken, made⟩ := bind_eq_ok_iff.mp h
      obtain ⟨rfl, rfl⟩ := Prod.mk.inj (Except.ok.inj made)
      exact others.value taken

/-- Strangers are skipped, whatever they hold. -/
theorem Fields.nil_exact : ExactMember Fields.nil.readMember Fields.nil.Stores where
  iff {key before after gap t rest behind} blank value meets := by
    have skipped := skipValue_of_isValue value meets
    simp only [readMember, readColon_gap blank, ok_bind, skipped, Stores, and_true]
    constructor
    · intro h
      exact (Prod.mk.inj (Except.ok.inj h)).2.symm
    · rintro rfl
      rfl
  value {key before after s rest} h := by
    simp only [readMember] at h
    obtain ⟨behind, colon, tail⟩ := bind_eq_ok_iff.mp h
    obtain ⟨gap, blank, rfl⟩ := of_readColon colon
    obtain ⟨left, skipped, made⟩ := bind_eq_ok_iff.mp tail
    obtain ⟨-, rfl⟩ := Prod.mk.inj (Except.ok.inj made)
    obtain ⟨t, value, rfl⟩ := isValue_of_skipValue skipped
    exact ⟨gap, t, blank, value, rfl⟩

/-- The members of a record are read exactly if its fields are. -/
theorem Fields.exactMember : (fs : Fields) → fs.EachExact → ExactMember fs.readMember fs.Stores
  | .nil, _ => nil_exact
  | .required name _ rest, ⟨exact, each⟩ => slot_exact exact (rest.exactMember each) name
  | .optional name _ rest, ⟨exact, each⟩ =>
    slot_exact (exact_optional exact) (rest.exactMember each) name

/-! ## Records written as arrays -/

/-- The fields as items in their order, of which optional ones may be missing at the end. -/
def Fields.Lists : (fs : Fields) → List Item → fs.Value → Prop
  | .nil, items, _ => items = []
  | .required _ shape rest, items, (v, vs) =>
    ∃ i others, items = i :: others ∧ Denotes shape.read i.value v ∧ rest.Lists others vs
  | .optional _ shape rest, items, (v, vs) =>
    (items = [] ∧ v = none ∧ rest.Lists [] vs) ∨
      ∃ i others, items = i :: others ∧ Denotes (readOptional shape.read) i.value v ∧
        rest.Lists others vs

theorem closeArray_separated {a : Bytes} (blank : Blank a) {i : Item} (value : IsValue i.value)
    (first : Bool) (texts : List Bytes) (tail rest : Bytes) :
    closeArray (a ++ (separated first (i.text :: texts) ++ tail)) ≠ .ok rest := by
  obtain ⟨lead, b, more, eq, lead_blank, solid, no_end⟩ := value.opens
  intro h
  unfold closeArray at h
  split at h
  · cases h
  · rename_i close
    cases first with
    | true =>
      simp only [separated, if_true, Item.text, eq, List.append_assoc, List.cons_append] at close
      rw [blank.skipBlanks_append, lead_blank.skipBlanks_cons solid] at close
      exact no_end (List.cons.inj close).1
    | false =>
      simp only [separated, Bool.false_eq_true, if_false, List.append_assoc, List.cons_append]
        at close
      rw [blank.skipBlanks_cons (by decide)] at close
      cases close
  · cases h

/-- A value is read from the front of what another reader goes on with. -/
theorem Exact.before_iff {α β : Type} {read : Reader α} (exact : Exact read) (next : Reader β)
    {t behind : Bytes} (value : IsValue t) (stops : Stops behind) (goal : Bytes → Prop) (v : α)
    (w : β) :
    (∃ s, (do
        let (v, s) ← read (t ++ behind)
        let (w, s) ← next s
        return ((v, w), s) : Except Fault ((α × β) × Bytes)) = .ok ((v, w), s) ∧ goal s) ↔
      Denotes read t v ∧ ∃ s, next behind = .ok (w, s) ∧ goal s := by
  constructor
  · rintro ⟨s, h, reached⟩
    obtain ⟨⟨v', left⟩, taken, tail⟩ := bind_eq_ok_iff.mp h
    obtain ⟨rfl, denotes⟩ := (exact.iff value fun _ => stops).mp taken
    obtain ⟨⟨w', last⟩, others, made⟩ := bind_eq_ok_iff.mp tail
    cases made
    exact ⟨denotes, s, others, reached⟩
  · rintro ⟨denotes, s, others, reached⟩
    refine ⟨s, ?_, reached⟩
    rw [denotes behind fun _ => stops, ok_bind]
    simp only
    rw [others]
    rfl

/-- The items of an array are read as the fields of a record in their order. -/
theorem Fields.readElements_iff {inner : Bytes} (inner_blank : Blank inner) (behind : Bytes) :
    (fs : Fields) → fs.EachExact → ∀ {items : List Item}, (∀ i ∈ items, i.WellFormed) →
      ∀ {a : Bytes}, Blank a → ∀ (first : Bool) (v : fs.Value) (rest : Bytes),
        (∃ s, fs.readElements first
            (a ++ (separated first (items.map Item.text) ++ (inner ++ 0x5d :: behind))) =
              .ok (v, s) ∧ closeArray s = .ok rest) ↔
          rest = behind ∧ fs.Lists items v
  | .nil, _, items, each, a, blank, first, v, rest => by
    simp only [readElements, Lists]
    cases items with
    | nil =>
      have closed := closeArray_close blank inner_blank behind
      constructor
      · rintro ⟨s, h, close⟩
        obtain ⟨-, rfl⟩ := Prod.mk.inj (Except.ok.inj h)
        rw [List.map_nil, separated, List.nil_append, closed] at close
        exact ⟨(Except.ok.inj close).symm, rfl⟩
      · rintro ⟨rfl, -⟩
        exact ⟨_, rfl, closed⟩
    | cons i items =>
      constructor
      · rintro ⟨s, h, close⟩
        obtain ⟨-, rfl⟩ := Prod.mk.inj (Except.ok.inj h)
        exact absurd close (closeArray_separated blank (each i List.mem_cons_self).value _ _ _ _)
      · rintro ⟨-, ⟨⟩⟩
  | .required name shape fs, ⟨exact, others⟩, items, each, a, blank, first, (v, vs), rest => by
    simp only [readElements, Lists]
    cases items with
    | nil =>
      simp only [List.map_nil, separated, List.nil_append, nextItem_close blank inner_blank,
        ok_bind]
      constructor
      · rintro ⟨s, ⟨⟩, -⟩
      · rintro ⟨-, i, more, ⟨⟩, -⟩
    | cons i items =>
      obtain ⟨⟨value, after⟩, each⟩ := List.forall_mem_cons.mp each
      have stops := stops_separated after inner_blank (by decide : isDigit 0x5d = false ∧ _)
        (items.map Item.text) behind
      have one := exact.before_iff (fs.readElements false) value stops
        (fun s => closeArray s = .ok rest) v vs
      have more := fs.readElements_iff inner_blank behind others each after false vs rest
      simp only [List.map_cons, nextItem_separated blank value, ok_bind, exact.skipBlanks]
      refine one.trans ((and_congr_right fun _ => more).trans ?_)
      constructor
      · rintro ⟨denotes, rfl, lists⟩
        exact ⟨rfl, i, items, rfl, denotes, lists⟩
      · rintro ⟨rfl, j, others, eq, denotes, lists⟩
        obtain ⟨rfl, rfl⟩ := List.cons.inj eq
        exact ⟨denotes, rfl, lists⟩
  | .optional name shape fs, ⟨exact, others⟩, items, each, a, blank, first, (v, vs), rest => by
    simp only [readElements, Lists]
    cases items with
    | nil =>
      have more := fs.readElements_iff inner_blank behind others each blank first vs rest
      simp only [List.map_nil, separated, List.nil_append] at more
      simp only [List.map_nil, separated, List.nil_append, nextItem_close blank inner_blank,
        ok_bind]
      constructor
      · rintro ⟨s, h, close⟩
        obtain ⟨⟨ws, last⟩, listed, made⟩ := bind_eq_ok_iff.mp h
        cases made
        obtain ⟨rfl, lists⟩ := more.mp ⟨_, listed, close⟩
        exact ⟨rfl, .inl ⟨trivial, rfl, lists⟩⟩
      · rintro ⟨rfl, ⟨-, rfl, lists⟩ | ⟨i, others, ⟨⟩, -⟩⟩
        obtain ⟨s, listed, close⟩ := more.mpr ⟨rfl, lists⟩
        refine ⟨s, ?_, close⟩
        rw [listed]
        rfl
    | cons i items =>
      obtain ⟨⟨value, after⟩, each⟩ := List.forall_mem_cons.mp each
      have stops := stops_separated after inner_blank (by decide : isDigit 0x5d = false ∧ _)
        (items.map Item.text) behind
      have one := (exact_optional exact).before_iff (fs.readElements false) value stops
        (fun s => closeArray s = .ok rest) v vs
      have more := fs.readElements_iff inner_blank behind others each after false vs rest
      simp only [List.map_cons, nextItem_separated blank value, ok_bind,
        (exact_optional exact).skipBlanks]
      refine one.trans ((and_congr_right fun _ => more).trans ?_)
      constructor
      · rintro ⟨denotes, rfl, lists⟩
        exact ⟨rfl, .inr ⟨i, items, rfl, denotes, lists⟩⟩
      · rintro ⟨rfl, ⟨⟨⟩, -⟩ | ⟨j, others, eq, denotes, lists⟩⟩
        obtain ⟨rfl, rfl⟩ := List.cons.inj eq
        exact ⟨denotes, rfl, lists⟩

theorem of_closeArray {s rest : Bytes} (h : closeArray s = .ok rest) :
    ∃ inner, Blank inner ∧ s = inner ++ 0x5d :: rest := by
  unfold closeArray at h
  split at h
  · cases h
  · rename_i eq
    obtain ⟨inner, blank, rfl⟩ := exists_of_skipBlanks eq
    obtain rfl := Except.ok.inj h
    exact ⟨inner, blank, rfl⟩
  · cases h

/-- What is read as fields in their order is an array without its opening bracket. -/
theorem Fields.exists_elements : (fs : Fields) → fs.EachExact →
    ∀ {first : Bool} {s behind rest : Bytes} {v : fs.Value},
      fs.readElements first s = .ok (v, behind) → closeArray behind = .ok rest →
        ∃ (a : Bytes) (items : List Item) (inner : Bytes), Blank a ∧
          (∀ i ∈ items, i.WellFormed) ∧ Blank inner ∧ (first = true → a = []) ∧
            s = a ++ (separated first (items.map Item.text) ++ (inner ++ 0x5d :: rest))
  | .nil, _, first, s, behind, rest, v, h, close => by
    simp only [readElements] at h
    obtain ⟨-, rfl⟩ := Prod.mk.inj (Except.ok.inj h)
    obtain ⟨inner, blank, rfl⟩ := of_closeArray close
    exact ⟨[], [], inner, blank_nil, List.forall_mem_nil _, blank, fun _ => rfl, rfl⟩
  | .required name shape fs, ⟨exact, others⟩, first, s, behind, rest, v, h, close => by
    simp only [readElements] at h
    obtain ⟨next, stepped, step⟩ := bind_eq_ok_iff.mp h
    cases next with
    | none => cases step
    | some inside =>
      obtain ⟨a, c, blank, c_blank, opening, rfl⟩ := of_nextItem_some stepped
      obtain ⟨⟨w, left⟩, taken, tail⟩ := bind_eq_ok_iff.mp step
      obtain ⟨t, value, rfl, -, -⟩ := exact.value taken
      obtain ⟨⟨ws, last⟩, listed, made⟩ := bind_eq_ok_iff.mp tail
      cases made
      obtain ⟨after, items, inner, after_blank, each, inner_blank, -, rfl⟩ :=
        fs.exists_elements others listed close
      refine ⟨a, ⟨c ++ t, after⟩ :: items, inner, blank,
        List.forall_mem_cons.mpr ⟨⟨value.blank_append c_blank, after_blank⟩, each⟩, inner_blank,
        opening, ?_⟩
      cases first <;> simp [separated, Item.text]
  | .optional name shape fs, ⟨exact, others⟩, first, s, behind, rest, v, h, close => by
    simp only [readElements] at h
    obtain ⟨next, stepped, step⟩ := bind_eq_ok_iff.mp h
    cases next with
    | none =>
      obtain ⟨⟨ws, last⟩, listed, made⟩ := bind_eq_ok_iff.mp step
      cases made
      exact fs.exists_elements others listed close
    | some inside =>
      obtain ⟨a, c, blank, c_blank, opening, rfl⟩ := of_nextItem_some stepped
      obtain ⟨⟨w, left⟩, taken, tail⟩ := bind_eq_ok_iff.mp step
      obtain ⟨t, value, rfl, -, -⟩ := (exact_optional exact).value taken
      obtain ⟨⟨ws, last⟩, listed, made⟩ := bind_eq_ok_iff.mp tail
      cases made
      obtain ⟨after, items, inner, after_blank, each, inner_blank, -, rfl⟩ :=
        fs.exists_elements others listed close
      refine ⟨a, ⟨c ++ t, after⟩ :: items, inner, blank,
        List.forall_mem_cons.mpr ⟨⟨value.blank_append c_blank, after_blank⟩, each⟩, inner_blank,
        opening, ?_⟩
      cases first <;> simp [separated, Item.text]

/-! ## Records -/

theorem read_record_blank (fs : Fields) {a : Bytes} (blank : Blank a) (s : Bytes) :
    (Shape.record fs).read (a ++ s) = (Shape.record fs).read s := by
  simp only [Shape.read, blank.skipBlanks_append, blank.unexpected_append]

/-- What reading a record behind its opening bracket comes to. -/
theorem read_array (fs : Fields) (s : Bytes) :
    ((Shape.record fs).read (0x5b :: s) : Except Fault (fs.Value × Bytes)) = (do
      let (v, rest) ← fs.readElements true s
      return (v, ← closeArray rest)) :=
  rfl

section

variable {fs : Fields} {lead inner : Bytes}

/-- An object is read as the record that its members lead to. -/
theorem read_object_iff (exact : fs.EachExact) {entries : List Entry} (blank : Blank lead)
    (each : ∀ e ∈ entries, e.WellFormed) (inner_blank : Blank inner) {v : fs.Value}
    {rest behind : Bytes} :
    ((Shape.record fs).read (objectText lead entries inner ++ behind) :
        Except Fault (fs.Value × Bytes)) = .ok (v, rest) ↔
      rest = behind ∧ ∃ last, Leads fs.Stores fs.empty entries last ∧ fs.fill last = .ok v := by
  have enough := length_lt_commas (entries.map Entry.text) inner behind 0x7d
  rw [List.length_map] at enough
  have members := readMembersWith_iff (fs.exactMember exact) each inner_blank blank_nil true enough
    behind fs.empty
  simp only [List.nil_append, separated_true] at members
  simp only [objectText, List.append_assoc, List.cons_append, List.nil_append]
  rw [read_record_blank fs blank, read_object]
  constructor
  · intro h
    obtain ⟨⟨last, left⟩, taken, filling⟩ := bind_eq_ok_iff.mp h
    obtain ⟨w, filled, closing⟩ := bind_eq_ok_iff.mp filling
    obtain ⟨tail, closed, made⟩ := bind_eq_ok_iff.mp closing
    cases made
    obtain ⟨rfl, leads⟩ := (members last _).mp ⟨left, taken, closed⟩
    exact ⟨rfl, last, leads, filled⟩
  · rintro ⟨rfl, last, leads, filled⟩
    obtain ⟨left, taken, closed⟩ := (members last _).mpr ⟨rfl, leads⟩
    rw [taken, ok_bind]
    simp only [filled, closed, ok_bind]
    rfl

/-- An array is read as the record whose fields it lists. -/
theorem read_array_iff (exact : fs.EachExact) {items : List Item} (blank : Blank lead)
    (each : ∀ i ∈ items, i.WellFormed) (inner_blank : Blank inner) {v : fs.Value}
    {rest behind : Bytes} :
    ((Shape.record fs).read (arrayText lead items inner ++ behind) :
        Except Fault (fs.Value × Bytes)) = .ok (v, rest) ↔
      rest = behind ∧ fs.Lists items v := by
  have elements := fs.readElements_iff inner_blank behind exact each blank_nil true v rest
  simp only [List.nil_append, separated_true] at elements
  simp only [arrayText, List.append_assoc, List.cons_append, List.nil_append]
  rw [read_record_blank fs blank, read_array]
  constructor
  · intro h
    obtain ⟨⟨w, left⟩, taken, closing⟩ := bind_eq_ok_iff.mp h
    obtain ⟨tail, closed, made⟩ := bind_eq_ok_iff.mp closing
    cases made
    exact elements.mp ⟨left, taken, closed⟩
  · intro h
    obtain ⟨left, taken, closed⟩ := elements.mpr h
    rw [taken, ok_bind]
    simp only [closed, ok_bind]
    rfl

/-- What is read as a record is an object or an array. -/
theorem exists_of_read_record (exact : fs.EachExact) {s rest : Bytes} {v : fs.Value}
    (h : (Shape.record fs).read s = .ok (v, rest)) :
    (∃ (lead : Bytes) (entries : List Entry) (inner : Bytes), Blank lead ∧
        (∀ e ∈ entries, e.WellFormed) ∧ Blank inner ∧ s = objectText lead entries inner ++ rest) ∨
      ∃ (lead : Bytes) (items : List Item) (inner : Bytes), Blank lead ∧
        (∀ i ∈ items, i.WellFormed) ∧ Blank inner ∧ s = arrayText lead items inner ++ rest := by
  simp only [Shape.read] at h
  split at h
  · rename_i more eq
    obtain ⟨lead, blank, rfl⟩ := exists_of_skipBlanks eq
    obtain ⟨⟨w, left⟩, taken, closing⟩ := bind_eq_ok_iff.mp h
    obtain ⟨tail, closed, made⟩ := bind_eq_ok_iff.mp closing
    cases made
    obtain ⟨a, items, inner, -, each, inner_blank, opening, rfl⟩ :=
      fs.exists_elements exact taken closed
    obtain rfl := opening rfl
    refine .inr ⟨lead, items, inner, blank, each, inner_blank, ?_⟩
    simp only [arrayText, separated_true, List.append_assoc, List.cons_append, List.nil_append]
  · rename_i more eq
    obtain ⟨lead, blank, rfl⟩ := exists_of_skipBlanks eq
    obtain ⟨⟨last, left⟩, taken, filling⟩ := bind_eq_ok_iff.mp h
    obtain ⟨w, filled, closing⟩ := bind_eq_ok_iff.mp filling
    obtain ⟨tail, closed, made⟩ := bind_eq_ok_iff.mp closing
    cases made
    obtain ⟨a, entries, inner, more, -, each, inner_blank, opening, rfl, rfl⟩ :=
      exists_entries (fs.exactMember exact) taken
    obtain rfl := opening rfl
    have close := closeObject_close blank_nil inner_blank more
    rw [List.nil_append, closed] at close
    obtain rfl := Except.ok.inj close
    refine .inl ⟨lead, entries, inner, blank, each, inner_blank, ?_⟩
    simp only [objectText, separated_true, List.append_assoc, List.cons_append, List.nil_append]
  · cases h

theorem exact_record (exact : fs.EachExact) : Exact (Shape.record fs).read where
  blank := read_record_blank fs
  value {s rest v} h := by
    rcases exists_of_read_record exact h with
      ⟨lead, entries, inner, blank, each, inner_blank, rfl⟩ |
      ⟨lead, items, inner, blank, each, inner_blank, rfl⟩
    · obtain ⟨-, last, leads, filled⟩ := (read_object_iff exact blank each inner_blank).mp h
      exact ⟨_, isValue_objectText blank each inner_blank, rfl,
        meets_of_not_signed blank (by decide) (by decide) (by decide) _ _,
        fun behind _ => (read_object_iff exact blank each inner_blank).mpr
          ⟨rfl, last, leads, filled⟩⟩
    · obtain ⟨-, lists⟩ := (read_array_iff exact blank each inner_blank).mp h
      exact ⟨_, isValue_arrayText blank each inner_blank, rfl,
        meets_of_not_signed blank (by decide) (by decide) (by decide) _ _,
        fun behind _ => (read_array_iff exact blank each inner_blank).mpr ⟨rfl, lists⟩⟩

end

mutual

/-- Every shape is read exactly. -/
theorem Shape.exact : (s : Shape) → Exact s.read
  | .flag => exact_flag
  | .text => exact_string
  | .integer least greatest => exact_integer least greatest
  | .choice names => exact_choice names
  | .list item => exact_list item.exact
  | .record fields => exact_record fields.eachExact

theorem Fields.eachExact : (fs : Fields) → fs.EachExact
  | .nil => trivial
  | .required _ shape rest => ⟨shape.exact, rest.eachExact⟩
  | .optional _ shape rest => ⟨shape.exact, rest.eachExact⟩

end

end OrderCluster.Json
