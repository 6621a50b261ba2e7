import Mathlib
import OrderCluster.Yaml.Value

/-!
# Paths in a document

What a document says under the keys that lead to a place, whether the place is there or one of the
sections around it is missing, empty or without the next key. What a section reads of its known
entries depends on these places alone.
-/

namespace OrderCluster.Yaml

variable {α β : Type} {document node : Node} {field : String → Form} {key : String}

/-- A list is read as a whole if each of its items is. -/
theorem mapM_eq_some_iff {f : α → Option β} {items : List α} {read : List β} :
    items.mapM f = some read ↔ List.Forall₂ (fun item b => f item = some b) items read := by
  induction items generalizing read with
  | nil => simp [eq_comm]
  | cons item rest ih =>
    simp only [List.mapM_cons, Option.bind_eq_bind, Option.bind_eq_some_iff, Option.pure_def,
      Option.some.injEq, List.forall₂_cons_left_iff, ← ih]
    grind

theorem mapM_congr_mem {f g : α → Option β} {items : List α}
    (same : ∀ item ∈ items, f item = g item) :
    items.mapM f = items.mapM g := by
  induction items with
  | nil => rfl
  | cons item rest ih =>
    simp only [List.forall_mem_cons] at same
    simp only [List.mapM_cons, same.1, ih same.2]

theorem forall_of_mapM {f : α → Option β} {items : List α} {read : List β} {P : β → Prop}
    (all : ∀ item ∈ items, ∀ b, f item = some b → P b) (h : items.mapM f = some read) :
    ∀ b ∈ read, P b := by
  have pairs := mapM_eq_some_iff.mp h
  clear h
  induction pairs with
  | nil => simp
  | cons first _ ih =>
    simp only [List.forall_mem_cons] at all ⊢
    exact ⟨all.1 _ first, ih all.2⟩

theorem lookup_filter {entries : List (String × α)} {known : String → Bool} (h : known key = true) :
    (entries.filter fun (name, _) => known name).lookup key = entries.lookup key := by
  induction entries with
  | nil => rfl
  | cons entry rest ih =>
    obtain ⟨name, value⟩ := entry
    by_cases named : key = name
    · simp [← named, h]
    · have other : (key == name) = false := by simpa using named
      by_cases kept : known name
      · simpa [List.filter_cons, List.lookup_cons, kept, other] using ih
      · simpa [List.filter_cons, List.lookup_cons, kept, other] using ih

theorem foldl_fixed_mem {f : β → α → β} {b : β} {items : List α}
    (fixed : ∀ item ∈ items, f b item = b) :
    items.foldl f b = b := by
  induction items with
  | nil => rfl
  | cons item rest ih =>
    simp only [List.forall_mem_cons] at fixed
    rw [List.foldl_cons, fixed.1, ih fixed.2]

/-! ## Places -/

/-- The value of an entry, if there is such an entry. -/
def child? (document : Node) (key : String) (node? : Option Node) : Option Node := do
  (← readNamed document (← node?)).lookup key

/-- What stands at the end of a path of keys. -/
def at? (document : Node) : List String → Option Node → Option Node
  | [], node? => node?
  | key :: path, node? => at? document path (child? document key node?)

@[simp] theorem child?_none : child? document key none = none := rfl

/-- Nothing stands below what is missing. -/
@[simp] theorem at?_none (path : List String) : at? document path none = none := by
  induction path with
  | nil => rfl
  | cons key path ih => exact ih

theorem child?_eq {rows : List (String × Node)} (h : readNamed document node = some rows) :
    child? document key (some node) = rows.lookup key := by
  simp [child?, h]

/-! ## Sections -/

/-- A section: its entries are named by texts, and the known ones are there at most once. -/
def IsSection (document : Node) (form : Form) (node : Node) : Prop :=
  ∃ rows, readNamed document node = some rows ∧
    ((rows.map Prod.fst).filter form.knows).Nodup

/-- Whether a node is made of sections as its form asks. -/
def Form.Fits (document : Node) : Form → Node → Prop
  | .keyed field, node =>
    IsSection document (.keyed field) node ∧ ∀ key, (field key).isRead →
      ∀ part, child? document key (some node) = some part → (field key).Fits document part
  | _, _ => True

theorem readSection_eq_some_iff {form : Form} {s : Section} :
    readSection form document node = some s ↔
      IsSection document form node ∧ ∃ rows, readNamed document node = some rows ∧
        s = ⟨document, rows.filter fun (name, _) => form.knows name⟩ := by
  simp only [readSection, IsSection, Option.bind_eq_bind, Option.bind_eq_some_iff, List.filter_map]
  constructor
  · rintro ⟨rows, named, read⟩
    by_cases once : ((rows.filter fun (name, _) => form.knows name).map Prod.fst).Nodup
    · rw [if_pos once] at read
      exact ⟨⟨rows, named, once⟩, rows, named, (Option.some.inj read).symm⟩
    · rw [if_neg once] at read
      cases read
  · rintro ⟨⟨rows, named, once⟩, others, same, rfl⟩
    obtain rfl := Option.some.inj (named.symm.trans same)
    exact ⟨rows, named, if_pos once⟩

theorem isSome_readSection_iff {form : Form} :
    (readSection form document node).isSome ↔ IsSection document form node := by
  simp only [Option.isSome_iff_exists, readSection_eq_some_iff]
  constructor
  · rintro ⟨_, isSection, _⟩
    exact isSection
  · rintro ⟨rows, named, once⟩
    exact ⟨_, ⟨rows, named, once⟩, rows, named, rfl⟩

/-- The known entries of a section are those of its node. -/
theorem lookup_of_readSection {form : Form} {s : Section}
    (h : readSection form document node = some s) (known : form.knows key = true) :
    s.document = document ∧ s.entries.lookup key = child? document key (some node) := by
  obtain ⟨-, rows, named, rfl⟩ := readSection_eq_some_iff.mp h
  exact ⟨rfl, (lookup_filter known).trans (child?_eq named).symm⟩

/-! ## Documents without aliases -/

/-- A node in which nothing is an alias. -/
inductive Node.IsTree : Node → Prop
  | scalar {anchor : Option Nat} {tag : Option String} {style : Style} {text : String} :
    IsTree (.scalar anchor tag style text)
  | sequence {anchor : Option Nat} {items : List Node} (parts : ∀ item ∈ items, IsTree item) :
    IsTree (.sequence anchor items)
  | mapping {anchor : Option Nat} {entries : List (Node × Node)}
    (keys : ∀ entry ∈ entries, IsTree entry.1) (values : ∀ entry ∈ entries, IsTree entry.2) :
    IsTree (.mapping anchor entries)

theorem Node.isTree_sequence_iff {anchor : Option Nat} {items : List Node} :
    (Node.sequence anchor items).IsTree ↔ ∀ item ∈ items, item.IsTree := by
  constructor
  · rintro (_ | parts)
    exact parts
  · exact .sequence

theorem Node.isTree_mapping_iff {anchor : Option Nat} {entries : List (Node × Node)} :
    (Node.mapping anchor entries).IsTree ↔ ∀ entry ∈ entries, entry.1.IsTree ∧ entry.2.IsTree := by
  constructor
  · rintro (_ | _ | ⟨keys, values⟩) entry among
    exact ⟨keys entry among, values entry among⟩
  · exact fun both => .mapping (fun entry among => (both entry among).1)
      fun entry among => (both entry among).2

/-- An entry with the text of its key. -/
def row? (entry : Node × Node) : Option (String × Node) := entry.1.text?.map (·, entry.2)

namespace Node.IsTree

theorem resolve? (tree : node.IsTree) (document : Node) : document.resolve? node = some node := by
  cases tree <;> rfl

theorem aliasCount (tree : node.IsTree) : node.aliasCount = 0 := by
  cases tree <;> rfl

theorem of_mem_items {items : List Node} {item : Node} (tree : node.IsTree)
    (h : node.items? = some items) (among : item ∈ items) : item.IsTree := by
  cases tree with
  | scalar =>
    simp only [Node.items?] at h
    split at h
    · rename_i other
      cases other
    · obtain rfl := Option.some.inj h
      cases among
    · cases h
  | sequence parts =>
    obtain rfl := Option.some.inj h
    exact parts item among
  | mapping _ _ => cases h

theorem of_mem_entries {entries : List (Node × Node)} {entry : Node × Node} (tree : node.IsTree)
    (h : node.entries? = some entries) (among : entry ∈ entries) :
    entry.1.IsTree ∧ entry.2.IsTree := by
  cases tree with
  | scalar =>
    simp only [Node.entries?] at h
    split at h
    · rename_i other
      cases other
    · obtain rfl := Option.some.inj h
      cases among
    · cases h
  | sequence _ => cases h
  | mapping keys values =>
    obtain rfl := Option.some.inj h
    exact ⟨keys entry among, values entry among⟩

theorem readText (tree : node.IsTree) (document : Node) : readText document node = node.text? := by
  simp [Yaml.readText, tree.resolve?]

/-- Without aliases it does not matter in which document a mapping stands. -/
theorem readNamed (tree : node.IsTree) (document : Node) :
    readNamed document node = node.entries?.bind (List.mapM row?) := by
  simp only [Yaml.readNamed, tree.resolve?, Option.bind_eq_bind, Option.bind_some]
  cases h : node.entries? with
  | none => rfl
  | some entries =>
    refine mapM_congr_mem fun entry among => ?_
    rw [(tree.of_mem_entries h among).1.readText, row?, Option.map_eq_bind]
    rfl

theorem of_mem_readNamed {rows : List (String × Node)} {row : String × Node} (tree : node.IsTree)
    (h : Yaml.readNamed document node = some rows) (among : row ∈ rows) : row.2.IsTree := by
  rw [tree.readNamed, Option.bind_eq_some_iff] at h
  obtain ⟨entries, listed, read⟩ := h
  refine forall_of_mapM (P := fun row => row.2.IsTree) (fun entry entry_among named same => ?_)
    read row
    among
  obtain ⟨name, _, rfl⟩ := Option.map_eq_some_iff.mp same
  exact (tree.of_mem_entries listed entry_among).2

theorem child? {part : Node} (tree : node.IsTree)
    (h : child? document key (some node) = some part) :
    part.IsTree := by
  simp only [Yaml.child?, Option.bind_eq_bind, Option.bind_some, Option.bind_eq_some_iff,
    List.lookup_eq_some_iff] at h
  obtain ⟨rows, named, before, after, rfl, -⟩ := h
  have among : (key, part) ∈ before ++ (key, part) :: after := by simp
  exact tree.of_mem_readNamed named among

theorem child?_congr (tree : node.IsTree) (document other : Node) :
    Yaml.child? document key (some node) = Yaml.child? other key (some node) := by
  simp [Yaml.child?, tree.readNamed]

theorem at? {path : List String} {part : Node} (tree : node.IsTree)
    (h : at? document path (some node) = some part) : part.IsTree := by
  induction path generalizing node with
  | nil => exact Option.some.inj h ▸ tree
  | cons key path ih =>
    simp only [Yaml.at?] at h
    cases below : Yaml.child? document key (some node) with
    | none => simp [below] at h
    | some next =>
      rw [below] at h
      exact ih (tree.child? below) h

theorem at?_congr (tree : node.IsTree) (document other : Node) (path : List String) :
    Yaml.at? document path (some node) = Yaml.at? other path (some node) := by
  induction path generalizing node with
  | nil => rfl
  | cons key path ih =>
    simp only [Yaml.at?, tree.child?_congr document other]
    cases below : Yaml.child? other key (some node) with
    | none => simp
    | some next => exact ih (tree.child? below)

theorem fits_congr {form : Form} (tree : node.IsTree) (document other : Node) :
    form.Fits document node ↔ form.Fits other node := by
  induction form generalizing node with
  | keyed field ih =>
    simp only [Form.Fits, IsSection, tree.readNamed, tree.child?_congr document other]
    refine and_congr_right fun _ => forall_congr' fun key => imp_congr_right fun _ =>
      forall_congr' fun part => imp_congr_right fun below => ih key (tree.child? below)
  | ignored | scalar | list | map => exact Iff.rfl

/-- No alias is followed where there is none. -/
theorem follows (tree : node.IsTree) (form : Form) (document : Node) :
    form.follows document node = 0 := by
  induction form generalizing node with
  | ignored => rfl
  | scalar => exact tree.aliasCount
  | list item ih =>
    simp only [Form.follows, tree.resolve?, Option.bind_some, tree.aliasCount]
    refine foldl_fixed_mem fun part among => ?_
    cases listed : node.items? with
    | none => simp [listed] at among
    | some items =>
      rw [listed] at among
      simp [ih (tree.of_mem_items listed among)]
  | map value ih =>
    simp only [Form.follows, tree.resolve?, Option.bind_some, tree.aliasCount]
    refine foldl_fixed_mem fun entry among => ?_
    cases listed : node.entries? with
    | none => simp [listed] at among
    | some entries =>
      rw [listed] at among
      have trees := tree.of_mem_entries listed among
      simp [trees.1.aliasCount, ih trees.2]
  | keyed field ih =>
    simp only [Form.follows, tree.resolve?, Option.bind_some, tree.aliasCount]
    refine foldl_fixed_mem fun entry among => ?_
    cases listed : node.entries? with
    | none => simp [listed] at among
    | some entries =>
      rw [listed] at among
      have trees := tree.of_mem_entries listed among
      simp only [trees.1.aliasCount, trees.1.resolve?, Option.bind_some]
      cases entry.1.text? with
      | none => rfl
      | some name => simp [ih name trees.2]

theorem not_isOvergrown (tree : node.IsTree) (form : Form) : form.isOvergrown node = false := by
  simp [Form.isOvergrown, tree.follows]

end Node.IsTree

end OrderCluster.Yaml
