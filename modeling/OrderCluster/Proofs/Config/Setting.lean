import OrderCluster.Config.Reading
import OrderCluster.Proofs.Yaml.Edit

/-!
# Settings

A setting stands at the end of a path of keys and has a default, or must be given. A reader of
sections is laid out in settings if it reads just the documents in which all of them can be read,
each on its own; then it does not matter where in a section they stand and which sections are
missing.
-/

namespace OrderCluster.Config

open Yaml (Form Reader Section IsSection Edit child? at? readText readOptionalText readUInt16
  readUInt32 readUInt64 readInt64 readBool readList readMap readSection)

/-- What a setting can be. -/
inductive Kind where
  | text
  | optionalText
  | uint16
  | uint32
  | uint64
  | flag
  | peers
  | products
  deriving DecidableEq, Repr

namespace Kind

abbrev Value : Kind → Type
  | .text => String
  | .optionalText => Option String
  | .uint16 => UInt16
  | .uint32 => UInt32
  | .uint64 => UInt64
  | .flag => Bool
  | .peers => List Peer
  | .products => List (String × Int64)

def read : (kind : Kind) → Reader kind.Value
  | .text => readText
  | .optionalText => readOptionalText
  | .uint16 => readUInt16
  | .uint32 => readUInt32
  | .uint64 => readUInt64
  | .flag => readBool
  | .peers => readList readPeer
  | .products => fun document node => (readMap readInt64 document node).map lastOfEach

/-- Which parts of a setting are read. -/
def form : Kind → Form
  | .peers => .list peerForm
  | .products => .map .scalar
  | _ => .scalar

/-- Values that are the same to whoever asks for them; products are asked for by name. -/
def Same : (kind : Kind) → kind.Value → kind.Value → Prop
  | .products, a, b => a.Perm b
  | .text, a, b | .optionalText, a, b | .uint16, a, b | .uint32, a, b | .uint64, a, b | .flag, a, b
  | .peers, a, b => a = b

end Kind

/-- A place in a document at which a part of `S` stands. -/
structure Setting (S : Type) where
  path : List String
  kind : Kind
  default? : Option kind.Value
  get : S → kind.Value

variable {S : Type} {document node : Yaml.Node} {form : Form}

/-- What a setting is in a document: what is given there, or else its default. -/
def Setting.value? (v : Setting S) (document : Yaml.Node) (node? : Option Yaml.Node) :
    Option v.kind.Value :=
  match at? document v.path node? with
  | none => v.default?
  | some part => v.kind.read document part

/-- A reader that reads just its settings, each at its own place. -/
structure Layout (form : Form) (read : Reader S) (default? : Option S)
    (settings : List (Setting S)) : Prop where
  shows : ∀ {document node s}, read document node = some s →
    form.Fits document node ∧ ∀ v ∈ settings, v.value? document (some node) = some (v.get s)
  loads : ∀ {document node}, form.Fits document node →
    (∀ v ∈ settings, (v.value? document (some node)).isSome) → (read document node).isSome
  /-- A section that is missing has the same defaults as one that is empty. -/
  defaults : ∀ v ∈ settings, v.default? = default?.map v.get
  inhabited : settings ≠ []

/-- An entry of a section, which is a setting or a section of its own. -/
structure Part (S : Type) (form : Form) where
  {Value : Type}
  key : String
  read : Reader Value
  default? : Option Value
  get : S → Value
  inner : List (Setting Value)
  known : form.knows key = true
  layout : Layout (form.entry key) read default? inner

namespace Part

/-- What an entry is in a section: what is given there, or else its default. -/
def find? (p : Part S form) (s : Section) : Option p.Value :=
  match s.entries.lookup p.key with
  | none => p.default?
  | some node => p.read s.document node

theorem find?_eq (p : Part S form) {s : Section} (h : readSection form document node = some s) :
    p.find? s =
      match child? document p.key (some node) with
      | none => p.default?
      | some part => p.read document part := by
  have found := Yaml.lookup_of_readSection h p.known
  rw [find?, found.1, found.2]

def settings (p : Part S form) : List (Setting S) :=
  p.inner.map fun v => ⟨p.key :: v.path, v.kind, v.default?, fun s => v.get (p.get s)⟩

/-- An entry that is a single setting. -/
def setting (key : String) (kind : Kind) (default? : Option kind.Value) (get : S → kind.Value)
    (shaped : form.entry key = kind.form) (known : form.knows key = true) : Part S form where
  key := key
  read := kind.read
  default? := default?
  get := get
  inner := [⟨[], kind, default?, id⟩]
  known := known
  layout := {
    shows := fun h =>
      ⟨by rw [shaped]; cases kind <;> trivial, by simpa [Setting.value?, at?] using h⟩
    loads := fun _ h => by simpa [Setting.value?, at?] using h
    defaults := by simp
    inhabited := by simp }

end Part

/-- A section is laid out as its entries are. -/
theorem Layout.of_parts {read : Reader S} {body : Section → Option S} {default? : Option S}
    (parts : List (Part S form)) (keyed : form = .keyed form.entry)
    (covers : ∀ key, form.knows key = true → key ∈ parts.map Part.key)
    (reads : ∀ document node, read document node = (readSection form document node).bind body)
    (shows : ∀ rows s, body rows = some s → ∀ p ∈ parts, p.find? rows = some (p.get s))
    (loads : ∀ rows, (∀ p ∈ parts, (p.find? rows).isSome) → (body rows).isSome)
    (defaults : ∀ p ∈ parts, p.default? = default?.map p.get) (inhabited : parts ≠ []) :
    Layout form read default? (parts.flatMap Part.settings) where
  shows {document node s} h := by
    rw [reads, Option.bind_eq_some_iff] at h
    obtain ⟨rows, section_read, h⟩ := h
    have found := shows rows s h
    have isSection := (Yaml.readSection_eq_some_iff.mp section_read).1
    constructor
    · refine (Form.fits_iff keyed).mpr ⟨isSection, fun key known part there => ?_⟩
      obtain ⟨p, among, rfl⟩ := List.mem_map.mp (covers key known)
      have part_read := found p among
      rw [p.find?_eq section_read, there] at part_read
      exact (p.layout.shows part_read).1
    · simp only [List.mem_flatMap, Part.settings, List.mem_map]
      rintro _ ⟨p, among, v, inner, rfl⟩
      have part_read := found p among
      rw [p.find?_eq section_read] at part_read
      simp only [Setting.value?, at?]
      cases there : child? document p.key (some node) with
      | none =>
        rw [there] at part_read
        have default : p.default? = some (p.get s) := part_read
        rw [Yaml.at?_none]
        simp only [p.layout.defaults v inner, default, Option.map_some]
      | some part =>
        rw [there] at part_read
        exact (p.layout.shows part_read).2 v inner
  loads {document node} fits h := by
    obtain ⟨isSection, below⟩ := (Form.fits_iff keyed).mp fits
    obtain ⟨rows, section_read⟩ :=
      Option.isSome_iff_exists.mp (Yaml.isSome_readSection_iff.mpr isSection)
    rw [reads, section_read]
    refine loads rows fun p among => ?_
    have inner_value : ∀ v ∈ p.inner, ∃ w ∈ parts.flatMap Part.settings,
        w = ⟨p.key :: v.path, v.kind, v.default?, fun s => v.get (p.get s)⟩ := fun v inner =>
      ⟨_, List.mem_flatMap.mpr ⟨p, among, List.mem_map_of_mem inner⟩, rfl⟩
    rw [p.find?_eq section_read]
    cases there : child? document p.key (some node) with
    | none =>
      obtain ⟨v, inner⟩ := List.exists_mem_of_ne_nil _ p.layout.inhabited
      obtain ⟨_, listed, rfl⟩ := inner_value v inner
      have given := h _ listed
      simp only [Setting.value?, at?, there, Yaml.at?_none, p.layout.defaults v inner,
        Option.isSome_map] at given
      exact given
    | some part =>
      refine p.layout.loads (below p.key p.known part there) fun v inner => ?_
      obtain ⟨_, listed, rfl⟩ := inner_value v inner
      simpa only [Setting.value?, at?, there] using h _ listed
  defaults := by
    simp only [List.mem_flatMap, Part.settings, List.mem_map]
    rintro _ ⟨p, among, v, inner, rfl⟩
    simp only [p.layout.defaults v inner, defaults p among, Option.map_map]
    rfl
  inhabited := by
    obtain ⟨p, among⟩ := List.exists_mem_of_ne_nil _ inhabited
    obtain ⟨v, inner⟩ := List.exists_mem_of_ne_nil _ p.layout.inhabited
    exact List.ne_nil_of_mem (List.mem_flatMap.mpr ⟨p, among, List.mem_map_of_mem inner⟩)

/-! ## Edits and removals -/

/-- A kind of setting that reads the same after an edit, and in whichever document it stands. -/
structure Kind.Steady (kind : Kind) : Prop where
  edited : ∀ {document x y}, Edit kind.form x y →
    Option.Rel kind.Same (kind.read document x) (kind.read document y)
  moved : ∀ {node : Yaml.Node}, node.IsTree → ∀ document other,
    kind.read document node = kind.read other node

theorem Kind.same_refl (kind : Kind) (a : kind.Value) : kind.Same a a := by
  cases kind with
  | products => exact List.Perm.refl _
  | text | optionalText | uint16 | uint32 | uint64 | flag | peers => rfl

namespace Setting

variable {v : Setting S}

theorem value?_edited (steady : v.kind.Steady) (shaped : form.at v.path = v.kind.form)
    {x y : Yaml.Node} (edit : Edit form x y) (fits : form.Fits document x) :
    Option.Rel v.kind.Same (v.value? document (some x)) (v.value? document (some y)) := by
  have read : (form.at v.path).isRead = true := by
    rw [shaped]
    cases v.kind <;> rfl
  have related := Edit.at? (.some edit) (fun _ same => Option.some.inj same ▸ fits) read
  rw [shaped] at related
  rw [value?, value?]
  cases before : at? document v.path (some x) with
  | none =>
    rw [before] at related
    rw [Yaml.rel_none_iff.mp related]
    exact Yaml.rel_refl v.kind.same_refl
  | some whole =>
    rw [before] at related
    obtain ⟨part, after, edit⟩ := Yaml.rel_some_iff.mp related
    rw [after]
    exact steady.edited edit

theorem value?_moved (steady : v.kind.Steady) (tree : node.IsTree) (document other : Yaml.Node) :
    v.value? document (some node) = v.value? other (some node) := by
  rw [value?, value?, tree.at?_congr document other]
  cases there : at? other v.path (some node) with
  | none => rfl
  | some part => exact steady.moved (tree.at? there) document other

end Setting

namespace Layout

variable {read : Reader S} {default? : Option S} {settings : List (Setting S)}

/-- Sections that fit are read as soon as each setting is, and show just what was read of it. -/
theorem exists_read (layout : Layout form read default? settings) (fits : form.Fits document node)
    {P : (v : Setting S) → v.kind.Value → Prop}
    (values : ∀ v ∈ settings, ∃ a, v.value? document (some node) = some a ∧ P v a) :
    ∃ s, read document node = some s ∧ ∀ v ∈ settings, P v (v.get s) := by
  have given : ∀ v ∈ settings, (v.value? document (some node)).isSome := by
    intro v among
    obtain ⟨a, value, -⟩ := values v among
    exact Option.isSome_of_eq_some value
  obtain ⟨s, h⟩ := Option.isSome_iff_exists.mp (layout.loads fits given)
  refine ⟨s, h, fun v among => ?_⟩
  obtain ⟨a, value, holds⟩ := values v among
  rw [(layout.shows h).2 v among] at value
  exact Option.some.inj value ▸ holds

theorem edited (layout : Layout form read default? settings)
    (steady : ∀ v ∈ settings, v.kind.Steady) (shaped : ∀ v ∈ settings, form.at v.path = v.kind.form)
    {x y : Yaml.Node} (edit : Edit form x y) {s : S} (h : read document x = some s) :
    ∃ s', read document y = some s' ∧ ∀ v ∈ settings, v.kind.Same (v.get s) (v.get s') := by
  obtain ⟨fits, shown⟩ := layout.shows h
  refine layout.exists_read (edit.fits fits) fun v among => ?_
  have related := Setting.value?_edited (steady v among) (shaped v among) edit fits
  rw [shown v among] at related
  exact Yaml.rel_some_iff.mp related

/-- A reading does not depend on the document around it where nothing is an alias. -/
theorem moved (layout : Layout form read default? settings) (steady : ∀ v ∈ settings, v.kind.Steady)
    (tree : node.IsTree) (other : Yaml.Node) {s : S} (h : read document node = some s) :
    ∃ s', read other node = some s' ∧ ∀ v ∈ settings, v.get s' = v.get s := by
  obtain ⟨fits, shown⟩ := layout.shows h
  refine layout.exists_read (P := fun v a => a = v.get s)
    ((tree.fits_congr document other).mp fits) ?_
  intro v among
  rw [← Setting.value?_moved (steady v among) tree document other]
  exact ⟨_, shown v among, rfl⟩

/-- What is left when a setting is taken out: its default, and all other settings. -/
theorem cut (layout : Layout form read default? settings) (tree : node.IsTree)
    (optional : ∀ v ∈ settings, v.default?.isSome)
    (apart : ∀ v ∈ settings, ∀ w ∈ settings, v.path <+: w.path → v.path = w.path)
    {v : Setting S} (among : v ∈ settings) {rest : Yaml.Node} (left : node.cut v.path = some rest)
    {s : S} (h : read document node = some s) :
    ∃ s', read document rest = some s' ∧ some (v.get s') = v.default? ∧
      ∀ w ∈ settings, w.path ≠ v.path → w.get s' = w.get s := by
  obtain ⟨fits, shown⟩ := layout.shows h
  have value_left : ∀ w ∈ settings, ∃ a, w.value? document (some rest) = some a ∧
      if w.path = v.path then w.default? = some a else a = w.get s := by
    intro w listed
    by_cases same : w.path = v.path
    · have gone : at? document (v.path ++ []) (node.cut v.path) = none :=
        tree.at?_cut_append v.path []
      rw [List.append_nil, ← same] at gone
      obtain ⟨a, given⟩ := Option.isSome_iff_exists.mp (optional w listed)
      rw [Setting.value?, ← left, ← same, gone]
      exact ⟨a, given, by rwa [if_pos rfl]⟩
    · have kept : at? document w.path (node.cut v.path) = at? document w.path (some node) :=
        tree.at?_cut (fun above => same (apart v among w listed above).symm)
          (fun below => same (apart w listed v among below))
      refine ⟨w.get s, ?_, by rw [if_neg same]⟩
      rw [Setting.value?, ← left, kept]
      exact shown w listed
  obtain ⟨s', read_rest, held⟩ := layout.exists_read (tree.fits_cut fits left) value_left
  refine ⟨s', read_rest, ?_, fun w listed other => ?_⟩
  · have own := held v among
    rw [if_pos rfl] at own
    exact own.symm
  · have own := held w listed
    rwa [if_neg other] at own

end Layout

end OrderCluster.Config
