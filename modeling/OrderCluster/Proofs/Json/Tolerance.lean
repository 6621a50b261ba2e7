import OrderCluster.Proofs.Json.Members

/-!
# Order and strangers do not matter

Members go into slots of their own, so they may be swapped, and a member of an unknown name changes
no slot. An optional field that is null leaves its slot as good as empty. But no slot takes two
members, and without a member for each required field there is no record.
-/

namespace OrderCluster.Json

/-! ## The fields of a record by their names -/

/-- A field, which must be given or may be left out. -/
inductive Field where
  | required (shape : Shape)
  | optional (shape : Shape)

/-- The shape of the values of a field. -/
def Field.shape : Field → Shape
  | .required shape => shape
  | .optional shape => shape

/-- What is read of a field. -/
def Field.Value : Field → Type
  | .required shape => shape.Value
  | .optional shape => Option shape.Value

def Field.read : (f : Field) → Reader f.Value
  | .required shape => shape.read
  | .optional shape => readOptional shape.read

/-- A field is read the same from two texts. -/
def Field.Alike (f : Field) (t t' : Bytes) : Prop := ∀ v, Denotes f.read t v ↔ Denotes f.read t' v

/-- A field can be read from a text. -/
def Field.Accepts (f : Field) (t : Bytes) : Prop := ∃ v, Denotes f.read t v

/-- The field with a name. -/
def Fields.field? : Fields → String → Option Field
  | .nil, _ => none
  | .required name shape rest, key => if name = key then some (.required shape) else rest.field? key
  | .optional name shape rest, key => if name = key then some (.optional shape) else rest.field? key

/-- The field at a position. -/
def Fields.nth? : Fields → Nat → Option Field
  | .nil, _ => none
  | .required _ shape _, 0 => some (.required shape)
  | .optional _ shape _, 0 => some (.optional shape)
  | .required _ _ rest, n + 1 => rest.nth? n
  | .optional _ _ rest, n + 1 => rest.nth? n

/-! ## Members may be swapped -/

/-- Two steps may be taken in either order. -/
def Commutes {σ : Type} (step : String → Bytes → σ → σ → Prop) : Prop :=
  ∀ {key key' t t' a b c}, step key t a b → step key' t' b c →
    ∃ m, step key' t' a m ∧ step key t m c

section

variable {α σ : Type} {read : Reader α} {step : String → Bytes → σ → σ → Prop} {name key : String}
  {t : Bytes} {a b : Option α} {as bs : σ}

theorem slotStep_own (own : name = key) :
    SlotStep name read step key t (a, as) (b, bs) ↔
      a = none ∧ bs = as ∧ ∃ v, b = some v ∧ Denotes read t v :=
  iff_of_eq (if_pos own)

theorem slotStep_other (other : name ≠ key) :
    SlotStep name read step key t (a, as) (b, bs) ↔ b = a ∧ step key t as bs :=
  iff_of_eq (if_neg other)

theorem slot_commutes (commutes : Commutes step) (name : String) :
    Commutes (SlotStep name read step) := by
  rintro key key' t t' ⟨a, as⟩ ⟨b, bs⟩ ⟨c, cs⟩ first second
  by_cases own : name = key
  · obtain ⟨rfl, rfl, v, rfl, denotes⟩ := (slotStep_own own).mp first
    by_cases own' : name = key'
    · obtain ⟨⟨⟩, -⟩ := (slotStep_own own').mp second
    · obtain ⟨rfl, another⟩ := (slotStep_other own').mp second
      exact ⟨(none, cs), (slotStep_other own').mpr ⟨rfl, another⟩,
        (slotStep_own own).mpr ⟨rfl, rfl, v, rfl, denotes⟩⟩
  · obtain ⟨rfl, one⟩ := (slotStep_other own).mp first
    by_cases own' : name = key'
    · obtain ⟨rfl, rfl, v, rfl, denotes⟩ := (slotStep_own own').mp second
      exact ⟨(some v, as), (slotStep_own own').mpr ⟨rfl, rfl, v, rfl, denotes⟩,
        (slotStep_other own).mpr ⟨rfl, one⟩⟩
    · obtain ⟨rfl, another⟩ := (slotStep_other own').mp second
      obtain ⟨m, former, latter⟩ := commutes one another
      exact ⟨(_, m), (slotStep_other own').mpr ⟨rfl, former⟩,
        (slotStep_other own).mpr ⟨rfl, latter⟩⟩

end

theorem Fields.commutes : (fs : Fields) → Commutes fs.Stores
  | .nil => fun _ _ => ⟨(), trivial, trivial⟩
  | .required name _ rest => slot_commutes rest.commutes name
  | .optional name _ rest => slot_commutes rest.commutes name

section

variable {σ : Type} {step : String → Bytes → σ → σ → Prop} {slots last : σ}

/-- In whatever order members come, they lead to the same slots. -/
theorem Leads.perm (commutes : Commutes step) {entries entries' : List Entry}
    (perm : entries.Perm entries') (leads : Leads step slots entries last) :
    Leads step slots entries' last := by
  induction perm generalizing slots with
  | nil => exact leads
  | cons e _ ih =>
    cases leads with
    | cons bears one others => exact .cons bears one (ih others)
  | swap e f entries =>
    cases leads with
    | cons bears one others =>
      cases others with
      | cons bears' another others =>
        obtain ⟨m, former, latter⟩ := commutes one another
        exact .cons bears' former (.cons bears latter others)
  | trans _ _ ih ih' => exact ih' (ih leads)

theorem leads_append {front back : List Entry} :
    Leads step slots (front ++ back) last ↔
      ∃ mid, Leads step slots front mid ∧ Leads step mid back last := by
  induction front generalizing slots with
  | nil =>
    constructor
    · exact fun leads => ⟨slots, .nil _, leads⟩
    · rintro ⟨mid, ⟨⟩, leads⟩
      exact leads
  | cons e front ih =>
    constructor
    · rintro (_ | ⟨bears, one, others⟩)
      obtain ⟨mid, former, latter⟩ := ih.mp others
      exact ⟨mid, .cons bears one former, latter⟩
    · rintro ⟨mid, (_ | ⟨bears, one, others⟩), latter⟩
      exact .cons bears one (ih.mpr ⟨mid, others, latter⟩)

theorem leads_cons {e : Entry} {name : String} (bears : e.Bears name) {entries : List Entry} :
    Leads step slots (e :: entries) last ↔
      ∃ next, step name e.value slots next ∧ Leads step next entries last := by
  constructor
  · rintro (_ | ⟨bears', one, others⟩)
    rw [bears'.unique bears] at one
    exact ⟨_, one, others⟩
  · rintro ⟨next, one, others⟩
    exact .cons bears one others

end

/-! ## What one member does -/

section

-- The slot of a field in front of other slots, of which the same is known already.
variable {σ : Type} {step : String → Bytes → σ → σ → Prop} {name key : String} {t t' : Bytes}
  {f field : Field} {behind : Option Field} {a b c : Option f.Value × σ}

theorem slot_stranger (strange : (if name = key then some f else behind) = none)
    (others : behind = none → ∀ {as bs}, step key t as bs ↔ bs = as) :
    SlotStep name f.read step key t a b ↔ b = a := by
  by_cases own : name = key
  · rw [if_pos own] at strange
    cases strange
  · rw [if_neg own] at strange
    refine (slotStep_other own).trans ?_
    rw [others strange]
    exact Prod.ext_iff.symm

theorem slot_alike (known : (if name = key then some f else behind) = some field)
    (alike : field.Alike t t')
    (others : behind = some field → ∀ {as bs}, step key t as bs ↔ step key t' as bs) :
    SlotStep name f.read step key t a b ↔ SlotStep name f.read step key t' a b := by
  by_cases own : name = key
  · rw [if_pos own, Option.some.injEq] at known
    subst known
    refine (slotStep_own own).trans (Iff.trans ?_ (slotStep_own own).symm)
    simp only [alike _]
  · rw [if_neg own] at known
    refine (slotStep_other own).trans (Iff.trans ?_ (slotStep_other own).symm)
    rw [others known]

theorem slot_accepts (known : (if name = key then some f else behind) = some field)
    (stores : SlotStep name f.read step key t a b)
    (others : behind = some field → ∀ {as bs}, step key t as bs → field.Accepts t) :
    field.Accepts t := by
  by_cases own : name = key
  · rw [if_pos own, Option.some.injEq] at known
    subst known
    obtain ⟨-, -, v, -, denotes⟩ := (slotStep_own own).mp stores
    exact ⟨v, denotes⟩
  · rw [if_neg own] at known
    exact others known ((slotStep_other own).mp stores).2

theorem slot_twice (first : SlotStep name f.read step key t a b)
    (second : SlotStep name f.read step key t' b c)
    (others : ∀ {as bs cs}, step key t as bs → step key t' bs cs → behind = none) :
    (if name = key then some f else behind) = none := by
  by_cases own : name = key
  · obtain ⟨-, -, v, stored, -⟩ := (slotStep_own own).mp first
    obtain ⟨empty, -⟩ := (slotStep_own own).mp second
    rw [empty] at stored
    cases stored
  · rw [if_neg own]
    exact others ((slotStep_other own).mp first).2 ((slotStep_other own).mp second).2

end

/-- A member of an unknown name changes nothing. -/
theorem Fields.stores_stranger : (fs : Fields) → ∀ {key : String}, fs.field? key = none →
    ∀ {t : Bytes} {a b : fs.Slots}, fs.Stores key t a b ↔ b = a
  | .nil, _, _, _, _, _ => iff_of_true trivial rfl
  | .required _ shape rest, _, strange, _, _, _ =>
    slot_stranger (f := .required shape) strange fun unknown => rest.stores_stranger unknown
  | .optional _ shape rest, _, strange, _, _, _ =>
    slot_stranger (f := .optional shape) strange fun unknown => rest.stores_stranger unknown

/-- Of the value of a member only what its field is read as matters. -/
theorem Fields.stores_alike : (fs : Fields) → ∀ {key : String} {field : Field},
    fs.field? key = some field → ∀ {t t' : Bytes}, field.Alike t t' → ∀ {a b : fs.Slots},
      fs.Stores key t a b ↔ fs.Stores key t' a b
  | .required _ shape rest, _, _, known, _, _, alike, _, _ =>
    slot_alike (f := .required shape) known alike fun known => rest.stores_alike known alike
  | .optional _ shape rest, _, _, known, _, _, alike, _, _ =>
    slot_alike (f := .optional shape) known alike fun known => rest.stores_alike known alike

/-- The value of a member can be read as its field. -/
theorem Fields.accepts_of_stores : (fs : Fields) → ∀ {key : String} {field : Field},
    fs.field? key = some field → ∀ {t : Bytes} {a b : fs.Slots}, fs.Stores key t a b →
      field.Accepts t
  | .required _ shape rest, _, _, known, _, _, _, stores =>
    slot_accepts (f := .required shape) known stores fun known => rest.accepts_of_stores known
  | .optional _ shape rest, _, _, known, _, _, _, stores =>
    slot_accepts (f := .optional shape) known stores fun known => rest.accepts_of_stores known

/-- No field takes two members. -/
theorem Fields.stranger_of_twice : (fs : Fields) → ∀ {key : String} {t t' : Bytes}
    {a b c : fs.Slots}, fs.Stores key t a b → fs.Stores key t' b c → fs.field? key = none
  | .nil, _, _, _, _, _, _, _, _ => rfl
  | .required _ shape rest, _, _, _, _, _, _, first, second =>
    slot_twice (f := .required shape) first second fun one another =>
      rest.stranger_of_twice one another
  | .optional _ shape rest, _, _, _, _, _, _, first, second =>
    slot_twice (f := .optional shape) first second fun one another =>
      rest.stranger_of_twice one another

/-! ## Empty slots -/

/-- The slot of a name is still empty. -/
def SlotLacks {α σ : Type} (name : String) (lacks : σ → String → Prop) (slots : Option α × σ)
    (key : String) : Prop :=
  if name = key then slots.1 = none else lacks slots.2 key

/-- Nothing was given for a name so far. -/
def Fields.Lacks : (fs : Fields) → fs.Slots → String → Prop
  | .nil => fun _ _ => True
  | .required name _ rest => SlotLacks name rest.Lacks
  | .optional name _ rest => SlotLacks name rest.Lacks

section

variable {α σ : Type} {name key : String} {lacks : σ → String → Prop} {a b : Option α × σ}

theorem slotLacks_own (own : name = key) : SlotLacks name lacks a key ↔ a.1 = none :=
  iff_of_eq (if_pos own)

theorem slotLacks_other (other : name ≠ key) : SlotLacks name lacks a key ↔ lacks a.2 key :=
  iff_of_eq (if_neg other)

theorem slot_lacks_empty {slots : σ} (others : lacks slots key) :
    SlotLacks name lacks ((none, slots) : Option α × σ) key := by
  by_cases own : name = key
  · exact (slotLacks_own own).mpr rfl
  · exact (slotLacks_other own).mpr others

/-- A member of another name fills no slot of this name. -/
theorem slot_lacks_iff {read : Reader α} {step : String → Bytes → σ → σ → Prop} {key' : String}
    {t : Bytes} (stores : SlotStep name read step key' t a b) (other : key' ≠ key)
    (others : step key' t a.2 b.2 → (lacks b.2 key ↔ lacks a.2 key)) :
    SlotLacks name lacks b key ↔ SlotLacks name lacks a key := by
  by_cases own : name = key
  · have stranger : name ≠ key' := by
      rintro rfl
      exact other own
    rw [slotLacks_own own, slotLacks_own own, ((slotStep_other stranger).mp stores).1]
  · rw [slotLacks_other own, slotLacks_other own]
    by_cases own' : name = key'
    · rw [((slotStep_own own').mp stores).2.1]
    · exact others ((slotStep_other own').mp stores).2

end

theorem Fields.lacks_empty : (fs : Fields) → ∀ key, fs.Lacks fs.empty key
  | .nil, _ => trivial
  | .required _ _ rest, key => slot_lacks_empty (rest.lacks_empty key)
  | .optional _ _ rest, key => slot_lacks_empty (rest.lacks_empty key)

theorem Fields.lacks_iff : (fs : Fields) → ∀ {key key' : String} {t : Bytes} {a b : fs.Slots},
    fs.Stores key' t a b → key' ≠ key → (fs.Lacks b key ↔ fs.Lacks a key)
  | .nil, _, _, _, _, _, _, _ => Iff.rfl
  | .required _ _ rest, _, _, _, _, _, stores, other =>
    slot_lacks_iff stores other fun one => rest.lacks_iff one other
  | .optional _ _ rest, _, _, _, _, _, stores, other =>
    slot_lacks_iff stores other fun one => rest.lacks_iff one other

/-- Without a value for a required field there is no record. -/
theorem Fields.fill_ne_ok : (fs : Fields) → ∀ {key : String} {shape : Shape},
    fs.field? key = some (.required shape) → ∀ {slots : fs.Slots}, fs.Lacks slots key →
      ∀ v, fs.fill slots ≠ .ok v
  | .required name shape rest, key, _, known, (slot, slots), lacks, (v, vs) => by
    intro filled
    cases slot with
    | none => cases filled
    | some w =>
      have other : name ≠ key := by
        intro own
        cases (slotLacks_own own).mp lacks
      obtain ⟨ws, others, -⟩ := bind_eq_ok_iff.mp filled
      exact rest.fill_ne_ok ((if_neg other).symm.trans known) ((slotLacks_other other).mp lacks) ws
        others
  | .optional name shape rest, key, _, known, (slot, slots), lacks, (v, vs) => by
    intro filled
    have other : name ≠ key := by
      intro own
      cases (if_pos own).symm.trans known
    obtain ⟨ws, others, -⟩ := bind_eq_ok_iff.mp filled
    exact rest.fill_ne_ok ((if_neg other).symm.trans known) ((slotLacks_other other).mp lacks) ws
      others

/-- Null for an optional field makes the same record as nothing at all. -/
theorem Fields.stores_null : (fs : Fields) → ∀ {key : String} {shape : Shape},
    fs.field? key = some (.optional shape) → ∀ {lead : Bytes}, Blank lead →
      ∀ {a : fs.Slots}, fs.Lacks a key →
        ∃ b, fs.fill b = fs.fill a ∧ ∀ c, fs.Stores key (lead ++ ascii "null") a c ↔ c = b
  | .required name shape rest, key, _, known, lead, blank, (a, as), lacks => by
    have other : name ≠ key := by
      intro own
      cases (if_pos own).symm.trans known
    obtain ⟨bs, same, only⟩ := rest.stores_null ((if_neg other).symm.trans known) blank
      ((slotLacks_other other).mp lacks)
    refine ⟨(a, bs), ?_, ?_⟩
    · cases a with
      | none => rfl
      | some v =>
        simp only [fill, same]
        rfl
    · rintro ⟨c, cs⟩
      refine (slotStep_other other).trans ?_
      rw [only]
      exact (iff_of_eq (Prod.mk.injEq ..)).symm
  | .optional name shape rest, key, _, known, lead, blank, (a, as), lacks => by
    by_cases own : name = key
    · obtain rfl := (slotLacks_own own).mp lacks
      refine ⟨(some none, as), rfl, ?_⟩
      rintro ⟨c, cs⟩
      refine (slotStep_own own).trans ?_
      simp only [denotes_optional_null blank]
      constructor
      · rintro ⟨-, rfl, v, rfl, rfl⟩
        rfl
      · rintro ⟨⟩
        exact ⟨trivial, rfl, none, rfl, rfl⟩
    · obtain ⟨bs, same, only⟩ := rest.stores_null ((if_neg own).symm.trans known) blank
        ((slotLacks_other own).mp lacks)
      refine ⟨(a, bs), ?_, ?_⟩
      · simp only [fill, same]
        rfl
      · rintro ⟨c, cs⟩
        refine (slotStep_other own).trans ?_
        rw [only]
        exact (iff_of_eq (Prod.mk.injEq ..)).symm

/-! ## What an object is read as -/

section

variable {fs : Fields} {lead inner : Bytes}

theorem denotes_object {entries : List Entry} (blank : Blank lead)
    (each : ∀ e ∈ entries, e.WellFormed) (inner_blank : Blank inner) {v : fs.Value} :
    Denotes ((Shape.record fs).read : Reader fs.Value) (objectText lead entries inner) v ↔
      ∃ last, Leads fs.Stores fs.empty entries last ∧ fs.fill last = .ok v := by
  constructor
  · intro denotes
    exact ((read_object_iff fs.eachExact blank each inner_blank).mp
      (denotes [] fun _ => stops_nil)).2
  · intro leads behind _
    exact (read_object_iff fs.eachExact blank each inner_blank).mpr ⟨rfl, leads⟩

theorem denotes_array {items : List Item} (blank : Blank lead)
    (each : ∀ i ∈ items, i.WellFormed) (inner_blank : Blank inner) {v : fs.Value} :
    Denotes ((Shape.record fs).read : Reader fs.Value) (arrayText lead items inner) v ↔
      fs.Lists items v := by
  constructor
  · intro denotes
    exact ((read_array_iff fs.eachExact blank each inner_blank).mp
      (denotes [] fun _ => stops_nil)).2
  · intro lists behind _
    exact (read_array_iff fs.eachExact blank each inner_blank).mpr ⟨rfl, lists⟩

/-- Members none of which bears a name leave its slot as it is. -/
theorem lacks_of_leads {entries : List Entry} {slots last : fs.Slots} {name : String}
    (leads : Leads fs.Stores slots entries last) (absent : ∀ e ∈ entries, ¬ e.Bears name) :
    fs.Lacks last name ↔ fs.Lacks slots name := by
  induction leads with
  | nil => rfl
  | @cons slots next last key e entries bears one _ ih =>
    obtain ⟨none_here, none_behind⟩ := List.forall_mem_cons.mp absent
    have other : key ≠ name := by
      rintro rfl
      exact none_here bears
    exact (ih none_behind).trans (fs.lacks_iff one other)

end

/-! ## Edits -/

/-- A change that is meant to make no difference: another order of the members of a record, a
member of an unknown name, null for an optional field that was left out, or such a change further
inside. -/
inductive Edit : Shape → Bytes → Bytes → Prop
  | order {fs : Fields} {lead inner : Bytes} {entries entries' : List Entry} (blank : Blank lead)
      (each : ∀ e ∈ entries, e.WellFormed) (inner_blank : Blank inner)
      (perm : entries.Perm entries') :
      Edit (.record fs) (objectText lead entries inner) (objectText lead entries' inner)
  | stranger {fs : Fields} {lead inner : Bytes} {front back : List Entry} {e : Entry}
      {name : String} (blank : Blank lead) (each : ∀ f ∈ front ++ e :: back, f.WellFormed)
      (inner_blank : Blank inner) (bears : e.Bears name) (unknown : fs.field? name = none) :
      Edit (.record fs) (objectText lead (front ++ back) inner)
        (objectText lead (front ++ e :: back) inner)
  | null {fs : Fields} {lead inner gap : Bytes} {front back : List Entry} {e : Entry}
      {name : String} {shape : Shape} (blank : Blank lead)
      (each : ∀ f ∈ front ++ e :: back, f.WellFormed) (inner_blank : Blank inner)
      (bears : e.Bears name)
      (known : fs.field? name = some (.optional shape))
      (absent : ∀ f ∈ front ++ back, ¬ f.Bears name) (gap_blank : Blank gap)
      (null : e.value = gap ++ ascii "null") :
      Edit (.record fs) (objectText lead (front ++ back) inner)
        (objectText lead (front ++ e :: back) inner)
  | member {fs : Fields} {lead inner t : Bytes} {front back : List Entry} {e : Entry}
      {name : String} {field : Field} (blank : Blank lead)
      (each : ∀ f ∈ front ++ e :: back, f.WellFormed) (inner_blank : Blank inner)
      (bears : e.Bears name) (known : fs.field? name = some field)
      (inside : Edit field.shape e.value t) :
      Edit (.record fs) (objectText lead (front ++ e :: back) inner)
        (objectText lead (front ++ { e with value := t } :: back) inner)
  | element {fs : Fields} {lead inner t : Bytes} {front back : List Item} {i : Item} {field : Field}
      (blank : Blank lead) (each : ∀ j ∈ front ++ i :: back, j.WellFormed)
      (inner_blank : Blank inner) (known : fs.nth? front.length = some field)
      (inside : Edit field.shape i.value t) :
      Edit (.record fs) (arrayText lead (front ++ i :: back) inner)
        (arrayText lead (front ++ { i with value := t } :: back) inner)
  | item {shape : Shape} {lead inner t : Bytes} {front back : List Item} {i : Item}
      (blank : Blank lead) (each : ∀ j ∈ front ++ i :: back, j.WellFormed)
      (inner_blank : Blank inner) (inside : Edit shape i.value t) :
      Edit (.list shape) (arrayText lead (front ++ i :: back) inner)
        (arrayText lead (front ++ { i with value := t } :: back) inner)

/-- A text that must not be read: a required field is missing, a known field is given twice, or so
it is further inside. -/
inductive Broken : Shape → Bytes → Prop
  | missing {fs : Fields} {lead inner : Bytes} {entries : List Entry} {name : String}
      {shape : Shape} (blank : Blank lead) (each : ∀ e ∈ entries, e.WellFormed)
      (inner_blank : Blank inner)
      (known : fs.field? name = some (.required shape)) (absent : ∀ e ∈ entries, ¬ e.Bears name) :
      Broken (.record fs) (objectText lead entries inner)
  | repeated {fs : Fields} {lead inner : Bytes} {front middle back : List Entry} {e f : Entry}
      {name : String} {field : Field} (blank : Blank lead)
      (each : ∀ g ∈ front ++ e :: (middle ++ f :: back), g.WellFormed) (inner_blank : Blank inner)
      (known : fs.field? name = some field) (bears : e.Bears name) (again : f.Bears name) :
      Broken (.record fs) (objectText lead (front ++ e :: (middle ++ f :: back)) inner)
  | member {fs : Fields} {lead inner : Bytes} {front back : List Entry} {e : Entry} {name : String}
      {field : Field} (blank : Blank lead) (each : ∀ f ∈ front ++ e :: back, f.WellFormed)
      (inner_blank : Blank inner) (bears : e.Bears name) (known : fs.field? name = some field)
      (inside : Broken field.shape e.value) :
      Broken (.record fs) (objectText lead (front ++ e :: back) inner)
  | element {fs : Fields} {lead inner : Bytes} {front back : List Item} {i : Item} {field : Field}
      (blank : Blank lead) (each : ∀ j ∈ front ++ i :: back, j.WellFormed)
      (inner_blank : Blank inner) (known : fs.nth? front.length = some field)
      (inside : Broken field.shape i.value) :
      Broken (.record fs) (arrayText lead (front ++ i :: back) inner)
  | item {shape : Shape} {lead inner : Bytes} {front back : List Item} {i : Item}
      (blank : Blank lead) (each : ∀ j ∈ front ++ i :: back, j.WellFormed)
      (inner_blank : Blank inner) (inside : Broken shape i.value) :
      Broken (.list shape) (arrayText lead (front ++ i :: back) inner)

/-- An array or an object. -/
structure IsCollection (t : Bytes) : Prop where
  value : IsValue t
  opens : ∃ lead b more, t = lead ++ b :: more ∧ Blank lead ∧ (b = 0x5b ∨ b = 0x7b)

theorem isCollection_array {lead inner : Bytes} {items : List Item} (blank : Blank lead)
    (each : ∀ i ∈ items, i.WellFormed) (inner_blank : Blank inner) :
    IsCollection (arrayText lead items inner) :=
  ⟨isValue_arrayText blank each inner_blank, lead, _, _, rfl, blank, .inl rfl⟩

theorem isCollection_object {lead inner : Bytes} {entries : List Entry} (blank : Blank lead)
    (each : ∀ e ∈ entries, e.WellFormed) (inner_blank : Blank inner) :
    IsCollection (objectText lead entries inner) :=
  ⟨isValue_objectText blank each inner_blank, lead, _, _, rfl, blank, .inr rfl⟩

/-- Anything may follow a collection. -/
theorem IsCollection.meets {t : Bytes} (collection : IsCollection t) (rest : Bytes) :
    Meets t rest := by
  obtain ⟨lead, b, more, rfl, blank, rfl | rfl⟩ := collection.opens
  · exact meets_of_not_signed blank (by decide) (by decide) (by decide) _ _
  · exact meets_of_not_signed blank (by decide) (by decide) (by decide) _ _

/-- An optional field is read from a collection as a required one is. -/
theorem IsCollection.denotes_optional {α : Type} {read : Reader α} {t : Bytes}
    (collection : IsCollection t) {a : Option α} :
    Denotes (readOptional read) t a ↔ ∃ v, a = some v ∧ Denotes read t v := by
  obtain ⟨lead, b, more, rfl, blank, rfl | rfl⟩ := collection.opens
  · exact denotes_optional_cons blank (by decide) (by decide) more
  · exact denotes_optional_cons blank (by decide) (by decide) more

/-- Collections that are read the same as a shape are read the same as a field of that shape. -/
theorem Field.alike_of_shape (field : Field) {t t' : Bytes} (first : IsCollection t)
    (second : IsCollection t')
    (same : ∀ v, Denotes field.shape.read t v ↔ Denotes field.shape.read t' v) :
    field.Alike t t' := by
  cases field with
  | required shape => exact same
  | optional shape =>
    intro v
    refine first.denotes_optional.trans (Iff.trans ?_ second.denotes_optional.symm)
    exact exists_congr fun w => and_congr_right fun _ => same w

theorem Field.not_accepts_of_shape (field : Field) {t : Bytes} (collection : IsCollection t)
    (none : ∀ v, ¬ Denotes field.shape.read t v) : ¬ field.Accepts t := by
  rintro ⟨v, denotes⟩
  cases field with
  | required shape => exact none v denotes
  | optional shape =>
    obtain ⟨w, -, inner⟩ := collection.denotes_optional.mp denotes
    exact none w inner

/-! ## One part replaced -/

theorem lists_required_cons {name : String} {shape : Shape} {rest : Fields} {i : Item}
    {items : List Item} {v : shape.Value} {vs : rest.Value} :
    (Fields.required name shape rest).Lists (i :: items) (v, vs) ↔
      Denotes (Field.required shape).read i.value v ∧ rest.Lists items vs := by
  simp only [Fields.Lists]
  constructor
  · rintro ⟨j, others, eq, denotes, lists⟩
    obtain ⟨rfl, rfl⟩ := List.cons.inj eq
    exact ⟨denotes, lists⟩
  · rintro ⟨denotes, lists⟩
    exact ⟨i, items, rfl, denotes, lists⟩

theorem lists_optional_cons {name : String} {shape : Shape} {rest : Fields} {i : Item}
    {items : List Item} {v : Option shape.Value} {vs : rest.Value} :
    (Fields.optional name shape rest).Lists (i :: items) (v, vs) ↔
      Denotes (Field.optional shape).read i.value v ∧ rest.Lists items vs := by
  simp only [Fields.Lists]
  constructor
  · rintro (⟨⟨⟩, -⟩ | ⟨j, others, eq, denotes, lists⟩)
    obtain ⟨rfl, rfl⟩ := List.cons.inj eq
    exact ⟨denotes, lists⟩
  · rintro ⟨denotes, lists⟩
    exact .inr ⟨i, items, rfl, denotes, lists⟩

/-- Of an item that stands for a field only what the field is read as matters. -/
theorem Fields.lists_alike : (fs : Fields) → ∀ {front back : List Item} {i : Item} {t : Bytes}
    {field : Field}, fs.nth? front.length = some field → field.Alike i.value t →
      ∀ {v : fs.Value}, fs.Lists (front ++ i :: back) v ↔
        fs.Lists (front ++ { i with value := t } :: back) v
  | .required _ shape rest, [], _, _, _, _, known, alike, (v, vs) => by
    obtain rfl := Option.some.inj known
    refine lists_required_cons.trans (Iff.trans ?_ lists_required_cons.symm)
    exact and_congr_left fun _ => alike v
  | .required _ shape rest, _ :: front, _, _, _, _, known, alike, (v, vs) => by
    refine lists_required_cons.trans (Iff.trans ?_ lists_required_cons.symm)
    exact and_congr_right fun _ => rest.lists_alike known alike
  | .optional _ shape rest, [], _, _, _, _, known, alike, (v, vs) => by
    obtain rfl := Option.some.inj known
    refine lists_optional_cons.trans (Iff.trans ?_ lists_optional_cons.symm)
    exact and_congr_left fun _ => alike v
  | .optional _ shape rest, _ :: front, _, _, _, _, known, alike, (v, vs) => by
    refine lists_optional_cons.trans (Iff.trans ?_ lists_optional_cons.symm)
    exact and_congr_right fun _ => rest.lists_alike known alike

theorem Fields.accepts_of_lists : (fs : Fields) → ∀ {front back : List Item} {i : Item}
    {field : Field}, fs.nth? front.length = some field →
      ∀ {v : fs.Value}, fs.Lists (front ++ i :: back) v → field.Accepts i.value
  | .required _ shape rest, [], _, _, _, known, (v, vs), lists => by
    obtain rfl := Option.some.inj known
    exact ⟨v, (lists_required_cons.mp lists).1⟩
  | .required _ shape rest, _ :: front, _, _, _, known, (v, vs), lists =>
    rest.accepts_of_lists known (lists_required_cons.mp lists).2
  | .optional _ shape rest, [], _, _, _, known, (v, vs), lists => by
    obtain rfl := Option.some.inj known
    exact ⟨v, (lists_optional_cons.mp lists).1⟩
  | .optional _ shape rest, _ :: front, _, _, _, known, (v, vs), lists =>
    rest.accepts_of_lists known (lists_optional_cons.mp lists).2

section

variable {α β : Type} {R : α → β → Prop} {a b : α}

theorem forall₂_replaced (same : ∀ v, R a v ↔ R b v) {front back : List α} {vs : List β} :
    List.Forall₂ R (front ++ a :: back) vs ↔ List.Forall₂ R (front ++ b :: back) vs := by
  induction front generalizing vs with
  | nil => simp only [List.nil_append, List.forall₂_cons_left_iff, same]
  | cons c front ih => simp only [List.cons_append, List.forall₂_cons_left_iff, ih]

theorem forall_mem_replaced {P : α → Prop} {front back : List α}
    (each : ∀ c ∈ front ++ a :: back, P c) (here : P b) : ∀ c ∈ front ++ b :: back, P c := by
  rw [List.forall_mem_append, List.forall_mem_cons] at each ⊢
  exact ⟨each.1, here, each.2.2⟩

end

/-! ## Edits make no difference -/

/-- Two collections that are read the same. -/
structure ReadAlike (shape : Shape) (t t' : Bytes) : Prop where
  before : IsCollection t
  after : IsCollection t'
  same : ∀ v, Denotes shape.read t v ↔ Denotes shape.read t' v

section

variable {fs : Fields} {lead inner : Bytes} {front back : List Entry} {e : Entry} {name : String}

/-- Wherever a member stands, it may as well come last. -/
theorem leads_middle (bears : e.Bears name) {slots last : fs.Slots} :
    Leads fs.Stores slots (front ++ e :: back) last ↔
      ∃ mid, Leads fs.Stores slots (front ++ back) mid ∧ fs.Stores name e.value mid last := by
  have perm : (front ++ e :: back).Perm (front ++ back ++ [e]) :=
    List.perm_middle.trans (List.perm_append_singleton e _).symm
  have moved : Leads fs.Stores slots (front ++ e :: back) last ↔
      Leads fs.Stores slots (front ++ back ++ [e]) last :=
    ⟨fun leads => leads.perm fs.commutes perm, fun leads => leads.perm fs.commutes perm.symm⟩
  rw [moved, leads_append]
  refine exists_congr fun mid => and_congr_right fun _ => (leads_cons bears).trans ?_
  constructor
  · rintro ⟨next, one, ⟨⟩⟩
    exact one
  · exact fun one => ⟨last, one, .nil _⟩

/-- What a record is read as, told from one of its members and all others. -/
theorem denotes_middle (blank : Blank lead) (each : ∀ f ∈ front ++ e :: back, f.WellFormed)
    (inner_blank : Blank inner) (bears : e.Bears name) {v : fs.Value} :
    Denotes ((Shape.record fs).read : Reader fs.Value) (objectText lead (front ++ e :: back) inner)
        v ↔
      ∃ mid, Leads fs.Stores fs.empty (front ++ back) mid ∧
        ∃ last, fs.Stores name e.value mid last ∧ fs.fill last = .ok v := by
  refine (denotes_object blank each inner_blank).trans ?_
  constructor
  · rintro ⟨last, leads, filled⟩
    obtain ⟨mid, others, one⟩ := (leads_middle bears).mp leads
    exact ⟨mid, others, last, one, filled⟩
  · rintro ⟨mid, others, last, one, filled⟩
    exact ⟨last, (leads_middle bears).mpr ⟨mid, others, one⟩, filled⟩

theorem each_without {α : Type} {P : α → Prop} {a : α} {front back : List α}
    (each : ∀ c ∈ front ++ a :: back, P c) : ∀ c ∈ front ++ back, P c := by
  rw [List.forall_mem_append, List.forall_mem_cons] at each
  exact List.forall_mem_append.mpr ⟨each.1, each.2.2⟩

theorem readAlike_stranger (blank : Blank lead) (each : ∀ f ∈ front ++ e :: back, f.WellFormed)
    (inner_blank : Blank inner) (bears : e.Bears name) (unknown : fs.field? name = none) :
    ReadAlike (.record fs) (objectText lead (front ++ back) inner)
      (objectText lead (front ++ e :: back) inner) := by
  have others := each_without each
  refine ⟨isCollection_object blank others inner_blank, isCollection_object blank each inner_blank,
    fun v => ?_⟩
  refine (denotes_object blank others inner_blank).trans
    (Iff.trans ?_ (denotes_middle blank each inner_blank bears).symm)
  simp only [fs.stores_stranger unknown, exists_eq_left]

theorem readAlike_null {gap : Bytes} {shape : Shape} (blank : Blank lead)
    (each : ∀ f ∈ front ++ e :: back, f.WellFormed) (inner_blank : Blank inner)
    (bears : e.Bears name) (known : fs.field? name = some (.optional shape))
    (absent : ∀ f ∈ front ++ back, ¬ f.Bears name) (gap_blank : Blank gap)
    (null : e.value = gap ++ ascii "null") :
    ReadAlike (.record fs) (objectText lead (front ++ back) inner)
      (objectText lead (front ++ e :: back) inner) := by
  have others := each_without each
  refine ⟨isCollection_object blank others inner_blank, isCollection_object blank each inner_blank,
    fun v => ?_⟩
  refine (denotes_object blank others inner_blank).trans
    (Iff.trans ?_ (denotes_middle blank each inner_blank bears).symm)
  refine exists_congr fun mid => and_congr_right fun leads => ?_
  have empty := (lacks_of_leads leads absent).mpr (fs.lacks_empty name)
  obtain ⟨b, same, only⟩ := fs.stores_null known gap_blank empty
  simp only [null, only, exists_eq_left, same]

theorem readAlike_member {t : Bytes} {field : Field} (blank : Blank lead)
    (each : ∀ f ∈ front ++ e :: back, f.WellFormed) (inner_blank : Blank inner)
    (bears : e.Bears name) (known : fs.field? name = some field)
    (inside : ReadAlike field.shape e.value t) :
    ReadAlike (.record fs) (objectText lead (front ++ e :: back) inner)
      (objectText lead (front ++ { e with value := t } :: back) inner) := by
  have whole := each e List.mem_append_cons_self
  have each' : ∀ f ∈ front ++ { e with value := t } :: back, f.WellFormed :=
    forall_mem_replaced each { whole with value := inside.after.value }
  refine ⟨isCollection_object blank each inner_blank, isCollection_object blank each' inner_blank,
    fun v => ?_⟩
  refine (denotes_middle blank each inner_blank bears).trans
    (Iff.trans ?_ (denotes_middle blank each' inner_blank bears).symm)
  simp only [fs.stores_alike known (field.alike_of_shape inside.before inside.after inside.same)]

end

section

variable {lead inner t : Bytes} {front back : List Item} {i : Item}

theorem readAlike_element {fs : Fields} {field : Field} (blank : Blank lead)
    (each : ∀ j ∈ front ++ i :: back, j.WellFormed) (inner_blank : Blank inner)
    (known : fs.nth? front.length = some field) (inside : ReadAlike field.shape i.value t) :
    ReadAlike (.record fs) (arrayText lead (front ++ i :: back) inner)
      (arrayText lead (front ++ { i with value := t } :: back) inner) := by
  have whole := each i List.mem_append_cons_self
  have each' : ∀ j ∈ front ++ { i with value := t } :: back, j.WellFormed :=
    forall_mem_replaced each { whole with value := inside.after.value }
  refine ⟨isCollection_array blank each inner_blank, isCollection_array blank each' inner_blank,
    fun v => ?_⟩
  refine (denotes_array blank each inner_blank).trans
    (Iff.trans ?_ (denotes_array blank each' inner_blank).symm)
  exact fs.lists_alike known (field.alike_of_shape inside.before inside.after inside.same)

theorem readAlike_item {shape : Shape} (blank : Blank lead)
    (each : ∀ j ∈ front ++ i :: back, j.WellFormed) (inner_blank : Blank inner)
    (inside : ReadAlike shape i.value t) :
    ReadAlike (.list shape) (arrayText lead (front ++ i :: back) inner)
      (arrayText lead (front ++ { i with value := t } :: back) inner) := by
  have whole := each i List.mem_append_cons_self
  have each' : ∀ j ∈ front ++ { i with value := t } :: back, j.WellFormed :=
    forall_mem_replaced each { whole with value := inside.after.value }
  refine ⟨isCollection_array blank each inner_blank, isCollection_array blank each' inner_blank,
    fun v => ?_⟩
  refine (denotes_list shape.exact blank each inner_blank).trans
    (Iff.trans ?_ (denotes_list shape.exact blank each' inner_blank).symm)
  exact forall₂_replaced (a := i) (b := { i with value := t }) inside.same

end

/-- No edit makes a difference to what is read. -/
theorem readAlike_of_edit {shape : Shape} {t t' : Bytes} (edit : Edit shape t t') :
    ReadAlike shape t t' := by
  induction edit with
  | @order fs lead inner entries entries' blank each inner_blank perm =>
    have each' : ∀ e ∈ entries', e.WellFormed := fun e among => each e (perm.mem_iff.mpr among)
    refine ⟨isCollection_object blank each inner_blank, isCollection_object blank each' inner_blank,
      fun v => ?_⟩
    refine (denotes_object blank each inner_blank).trans
      (Iff.trans ?_ (denotes_object blank each' inner_blank).symm)
    refine exists_congr fun last => and_congr_left fun _ => ?_
    constructor
    · exact fun leads => leads.perm fs.commutes perm
    · exact fun leads => leads.perm fs.commutes perm.symm
  | stranger blank each inner_blank bears unknown =>
    exact readAlike_stranger blank each inner_blank bears unknown
  | null blank each inner_blank bears known absent gap_blank null =>
    exact readAlike_null blank each inner_blank bears known absent gap_blank null
  | member blank each inner_blank bears known inside ih =>
    exact readAlike_member blank each inner_blank bears known ih
  | element blank each inner_blank known inside ih =>
    exact readAlike_element blank each inner_blank known ih
  | item blank each inner_blank inside ih => exact readAlike_item blank each inner_blank ih

/-- A broken text is a collection that is read as nothing. -/
theorem unread_of_broken {shape : Shape} {t : Bytes} (broken : Broken shape t) :
    IsCollection t ∧ ∀ v, ¬ Denotes shape.read t v := by
  induction broken with
  | @missing fs lead inner entries name shape blank each inner_blank known absent =>
    refine ⟨isCollection_object blank each inner_blank, fun v denotes => ?_⟩
    obtain ⟨last, leads, filled⟩ := (denotes_object blank each inner_blank).mp denotes
    have empty := (lacks_of_leads leads absent).mpr (fs.lacks_empty name)
    exact fs.fill_ne_ok known empty v filled
  | @repeated fs lead inner front middle back e f name field blank each inner_blank known bears
      again =>
    refine ⟨isCollection_object blank each inner_blank, fun v denotes => ?_⟩
    obtain ⟨mid, others, last, one, -⟩ := (denotes_middle blank each inner_blank bears).mp denotes
    rw [← List.append_assoc] at others
    obtain ⟨first, -, another⟩ := (leads_middle again).mp others
    cases known.symm.trans (fs.stranger_of_twice another one)
  | @member fs lead inner front back e name field blank each inner_blank bears known inside ih =>
    refine ⟨isCollection_object blank each inner_blank, fun v denotes => ?_⟩
    obtain ⟨mid, -, last, one, -⟩ := (denotes_middle blank each inner_blank bears).mp denotes
    exact field.not_accepts_of_shape ih.1 ih.2 (fs.accepts_of_stores known one)
  | @element fs lead inner front back i field blank each inner_blank known inside ih =>
    refine ⟨isCollection_array blank each inner_blank, fun v denotes => ?_⟩
    have lists := (denotes_array blank each inner_blank).mp denotes
    exact field.not_accepts_of_shape ih.1 ih.2 (fs.accepts_of_lists known lists)
  | @item shape lead inner front back i blank each inner_blank inside ih =>
    refine ⟨isCollection_array blank each inner_blank, fun v denotes => ?_⟩
    have each_denotes := (denotes_list shape.exact blank each inner_blank).mp denotes
    have readable := (List.forall₂_and_left _ _).mp
      (each_denotes.imp fun j w here => ⟨(⟨w, here⟩ : ∃ w, Denotes shape.read j.value w), here⟩)
    obtain ⟨w, here⟩ := readable.1 i List.mem_append_cons_self
    exact ih.2 w here

end OrderCluster.Json
