import OrderCluster.Proofs.Yaml.Path

/-!
# Edits of a document

What a reader notices of an edit. Sections may be written in another order, filled with entries that
are not known or left blank, and every known entry still says the same; where an entry is taken out,
all places that do not lie on its path stay as they are.
-/

namespace OrderCluster.Yaml

variable {document node part : Node} {form : Form} {field : String → Form} {key : String}

/-! ## Taking something out -/

/-- A node without what stands at the end of a path. -/
def Node.cut : List String → Node → Option Node
  | [], _ => none
  | key :: path, .mapping anchor entries =>
    some (.mapping anchor (entries.filterMap fun entry =>
      if entry.1.text? = some key then (entry.2.cut path).map (entry.1, ·) else some entry))
  | _, node => some node

theorem Node.exists_cut (key : String) (path : List String) (node : Node) :
    ∃ part, node.cut (key :: path) = some part := by
  cases node <;> exact ⟨_, rfl⟩

/-- The rows of a section without what stands at the end of a path below one of them. -/
def cutRows (key : String) (path : List String) (rows : List (String × Node)) :
    List (String × Node) :=
  rows.filterMap fun (name, value) =>
    if name = key then (value.cut path).map (name, ·) else some (name, value)

theorem lookup_cutRows (path : List String) (rows : List (String × Node)) (name : String) :
    (cutRows key path rows).lookup name =
      if name = key then (rows.lookup key).bind (Node.cut path) else rows.lookup name := by
  induction rows with
  | nil => simp [cutRows]
  | cons row rest ih =>
    obtain ⟨first, value⟩ := row
    simp only [cutRows] at ih ⊢
    by_cases here : first = key
    · subst here
      cases path with
      | nil => grind [Node.cut]
      | cons next path =>
        obtain ⟨other, left⟩ := value.exists_cut next path
        simp [List.lookup_cons, left, ih]
        grind
    · simp [here, List.lookup_cons, ih]
      grind

theorem map_fst_cutRows (path : List String) (rows : List (String × Node)) :
    ((cutRows key path rows).map Prod.fst).Sublist (rows.map Prod.fst) := by
  induction rows with
  | nil => exact .slnil
  | cons row rest ih =>
    obtain ⟨first, value⟩ := row
    simp only [cutRows] at ih ⊢
    by_cases here : first = key
    · cases left : value.cut path with
      | none => simpa [here, left] using ih.cons key
      | some other => simpa [here, left] using ih
    · simpa [here] using ih

/-- The rows of what is left of a mapping. -/
theorem mapM_cut (path : List String) (entries : List (Node × Node)) :
    (entries.filterMap fun entry =>
        if entry.1.text? = some key then (entry.2.cut path).map (entry.1, ·)
        else some entry).mapM row? =
      (entries.mapM row?).map (cutRows key path) := by
  induction entries with
  | nil => rfl
  | cons entry rest ih =>
    obtain ⟨name, value⟩ := entry
    cases named : name.text? with
    | none => simp [List.mapM_cons, row?, named]
    | some text =>
      have first : row? (name, value) = some (text, value) := by simp [row?, named]
      by_cases here : text = key
      · cases left : value.cut path with
        | none =>
          simp only [List.filterMap_cons, named, here, if_pos, left, Option.map_none, ih,
            List.mapM_cons, first]
          cases rest.mapM row? with
          | none => rfl
          | some rows => simp [cutRows, left]
        | some other =>
          have kept : row? (name, other) = some (text, other) := by simp [row?, named]
          simp only [List.filterMap_cons, named, here, if_pos, left, Option.map_some, ih,
            List.mapM_cons, first, kept]
          cases rest.mapM row? with
          | none => rfl
          | some rows => simp [cutRows, left]
      · simp only [List.filterMap_cons, named, Option.some.injEq, here, if_neg, not_false_eq_true,
          List.mapM_cons, ih, first]
        cases rest.mapM row? with
        | none => rfl
        | some rows => simp [cutRows, here]

namespace Node.IsTree

theorem cut {path : List String} (tree : node.IsTree) (h : node.cut path = some part) :
    part.IsTree := by
  induction path generalizing node part with
  | nil => cases h
  | cons key path ih =>
    cases tree with
    | scalar => exact Option.some.inj h ▸ .scalar
    | sequence parts => exact Option.some.inj h ▸ .sequence parts
    | @mapping anchor entries keys values =>
      obtain rfl := Option.some.inj h
      have both : ∀ entry ∈ entries.filterMap fun entry =>
          if entry.1.text? = some key then (entry.2.cut path).map (entry.1, ·) else some entry,
          entry.1.IsTree ∧ entry.2.IsTree := by
        simp only [List.mem_filterMap]
        rintro entry ⟨whole, among, left⟩
        split at left
        · obtain ⟨rest, below, rfl⟩ := Option.map_eq_some_iff.mp left
          exact ⟨keys whole among, ih (values whole among) below⟩
        · obtain rfl := Option.some.inj left
          exact ⟨keys _ among, values _ among⟩
      exact .mapping (fun entry among => (both entry among).1) fun entry among =>
        (both entry among).2

theorem readNamed_cut {path : List String} (tree : node.IsTree)
    (h : node.cut (key :: path) = some part) :
    Yaml.readNamed document part = (Yaml.readNamed document node).map (cutRows key path) := by
  have tree_part := tree.cut h
  simp only [tree.readNamed, tree_part.readNamed]
  cases tree with
  | scalar =>
    obtain rfl := Option.some.inj h
    simp only [Node.entries?]
    split
    · rename_i other
      cases other
    · rfl
    · rfl
  | sequence parts => exact Option.some.inj h ▸ rfl
  | mapping keys values =>
    obtain rfl := Option.some.inj h
    exact mapM_cut path _

theorem child?_cut {path : List String} (tree : node.IsTree) (name : String) :
    Yaml.child? document name (node.cut (key :: path)) =
      if name = key then (Yaml.child? document key (some node)).bind (Node.cut path)
      else Yaml.child? document name (some node) := by
  obtain ⟨part, left⟩ := node.exists_cut key path
  rw [left]
  simp only [Yaml.child?, Option.bind_eq_bind, Option.bind_some, tree.readNamed_cut left]
  cases Yaml.readNamed document node with
  | none => simp
  | some rows => simp [lookup_cutRows]

/-- What is taken out is gone, with everything below it. -/
theorem at?_cut_append (tree : node.IsTree) (path rest : List String) :
    Yaml.at? document (path ++ rest) (node.cut path) = none := by
  induction path generalizing node with
  | nil => exact at?_none rest
  | cons key path ih =>
    simp only [List.cons_append, Yaml.at?, tree.child?_cut, if_pos]
    cases below : Yaml.child? document key (some node) with
    | none => exact at?_none _
    | some next => exact ih (tree.child? below)

/-- Places that do not lie on one path do not matter to each other. -/
theorem at?_cut {path other : List String} (tree : node.IsTree) (above : ¬ path <+: other)
    (below : ¬ other <+: path) :
    Yaml.at? document other (node.cut path) = Yaml.at? document other (some node) := by
  induction path generalizing node other with
  | nil => exact absurd List.nil_prefix above
  | cons key path ih =>
    cases other with
    | nil => exact absurd List.nil_prefix below
    | cons name other =>
      simp only [Yaml.at?, tree.child?_cut]
      split
      · rename_i same
        subst same
        simp only [List.prefix_cons_inj] at above below
        cases next : Yaml.child? document name (some node) with
        | none => rfl
        | some next_node => exact ih (tree.child? next) above below
      · rfl

/-- What is left of a document has sections where its form asks for them. -/
theorem fits_cut {path : List String} (tree : node.IsTree) (fits : form.Fits document node)
    (h : node.cut path = some part) : form.Fits document part := by
  induction path generalizing node form part with
  | nil => cases h
  | cons key path ih =>
    cases form with
    | ignored | scalar | list | map => trivial
    | keyed field =>
      obtain ⟨⟨rows, named, once⟩, below⟩ := fits
      refine ⟨⟨cutRows key path rows, ?_, ?_⟩, fun name known next there => ?_⟩
      · rw [tree.readNamed_cut h, named, Option.map_some]
      · exact ((map_fst_cutRows path rows).filter _).nodup once
      · rw [← h, tree.child?_cut] at there
        split at there
        · rename_i same
          subst same
          obtain ⟨whole, found, left⟩ := Option.bind_eq_some_iff.mp there
          exact ih (tree.child? found) (below name known whole found) left
        · exact below name known next there

end Node.IsTree

/-! ## Edits that are not noticed -/

/-- Nodes that say the same to whoever reads them in a form: the entries of a section may come in
any order, there may be entries with unknown names, and an empty section may be left blank; an edit
may be made in any known entry and in any item of a list. Entries of a mapping in which every name
counts may change places unless they have one name. -/
inductive Edit : Form → Node → Node → Prop
  | refl (form : Form) (node : Node) : Edit form node node
  | symm {form : Form} {x y : Node} (edit : Edit form x y) : Edit form y x
  | trans {form : Form} {x y z : Node} (first : Edit form x y) (second : Edit form y z) :
    Edit form x z
  | order {field : String → Form} {anchor : Option Nat} {entries others : List (Node × Node)}
    (perm : entries.Perm others) :
    Edit (.keyed field) (.mapping anchor entries) (.mapping anchor others)
  | stranger {field : String → Form} {anchor : Option Nat} {entries : List (Node × Node)}
    {name value : Node} {text : String} (named : name.text? = some text)
    (unknown : (field text).isRead = false) (tree : value.IsTree) :
    Edit (.keyed field) (.mapping anchor entries) (.mapping anchor ((name, value) :: entries))
  | blank {field : String → Form} {anchor other : Option Nat} {tag : Option String} :
    Edit (.keyed field) (.scalar anchor tag .plain "") (.mapping other [])
  | entry {field : String → Form} {anchor : Option Nat} {entries : List (Node × Node)}
    {name x y : Node} {text : String} (named : name.text? = some text)
    (edit : Edit (field text) x y) :
    Edit (.keyed field) (.mapping anchor ((name, x) :: entries))
      (.mapping anchor ((name, y) :: entries))
  | item {form : Form} {anchor : Option Nat} {before after : List Node} {x y : Node}
    (edit : Edit form x y) :
    Edit (.list form) (.sequence anchor (before ++ x :: after))
      (.sequence anchor (before ++ y :: after))
  | swap {form : Form} {anchor : Option Nat} {before after : List (Node × Node)}
    {name other x y : Node} {text other_text : String} (named : name.text? = some text)
    (other_named : other.text? = some other_text) (differs : text ≠ other_text) :
    Edit (.map form) (.mapping anchor (before ++ (name, x) :: (other, y) :: after))
      (.mapping anchor (before ++ (other, y) :: (name, x) :: after))

section Related

variable {α : Type} {R : α → α → Prop} {a b c : Option α}

theorem rel_refl (refl : ∀ x, R x x) : Option.Rel R a a := by
  cases a with
  | none => exact .none
  | some x => exact .some (refl x)

theorem rel_none_iff : Option.Rel R none b ↔ b = none := by
  constructor
  · rintro (_ | _)
    rfl
  · rintro rfl
    exact .none

theorem rel_some_iff {x : α} : Option.Rel R (some x) b ↔ ∃ y, b = some y ∧ R x y := by
  constructor
  · rintro (related | _)
    exact ⟨_, rfl, related⟩
  · rintro ⟨y, rfl, related⟩
    exact .some related

theorem rel_symm (symm : ∀ {x y}, R x y → R y x) : Option.Rel R a b → Option.Rel R b a
  | .none => .none
  | .some related => .some (symm related)

theorem rel_trans (trans : ∀ {x y z}, R x y → R y z → R x z) :
    Option.Rel R a b → Option.Rel R b c → Option.Rel R a c
  | .none, .none => .none
  | .some first, .some second => .some (trans first second)

end Related

/-- Where a key is there at most once, it is found wherever it stands. -/
theorem lookup_perm {α : Type} {known : String → Bool} (h : known key = true)
    {rows moved : List (String × α)} (once : ((rows.map Prod.fst).filter known).Nodup)
    (perm : rows.Perm moved) : rows.lookup key = moved.lookup key := by
  induction perm with
  | nil => rfl
  | cons row _ ih =>
    obtain ⟨name, value⟩ := row
    have rest := once.sublist (((List.sublist_cons_self (name, value) _).map Prod.fst).filter known)
    simp only [List.lookup_cons, ih rest]
  | swap row other rest =>
    obtain ⟨name, value⟩ := row
    obtain ⟨other_name, other_value⟩ := other
    by_cases here : key = name
    · subst here
      have apart : (key == other_name) = false := by
        rw [beq_eq_false_iff_ne]
        rintro rfl
        simp [h] at once
      simp [List.lookup_cons, apart]
    · have passed : (key == name) = false := by simpa using here
      simp [List.lookup_cons, passed]
  | trans first _ ih_first ih_second =>
    exact (ih_first once).trans (ih_second (((first.map Prod.fst).filter known).nodup_iff.mp once))

section Mapping

variable {anchor : Option Nat} {entries others : List (Node × Node)} {name value : Node}
  {text : String}

theorem Node.IsTree.of_text? : {name : Node} → name.text? = some text → name.IsTree
  | .scalar .., _ => .scalar

theorem readNamed_cons (named : name.text? = some text) :
    readNamed document (.mapping anchor ((name, value) :: entries)) =
      (readNamed document (.mapping anchor entries)).map ((text, value) :: ·) := by
  have key : readText document name = some text :=
    ((Node.IsTree.of_text? named).readText document).trans named
  simp only [readNamed, Node.resolve?, Node.entries?, Option.bind_eq_bind, Option.bind_some,
    List.mapM_cons, key]
  generalize (entries.mapM _ : Option (List (String × Node))) = rows?
  cases rows? <;> rfl

/-- A row more leaves a section what it was unless it is named as a known one. -/
theorem isSection_cons (named : name.text? = some text) :
    IsSection document form (.mapping anchor ((name, value) :: entries)) ↔
      IsSection document form (.mapping anchor entries) ∧
        (form.knows text = true →
          child? document text (some (.mapping anchor entries)) = none) := by
  simp only [IsSection, readNamed_cons named, Option.map_eq_some_iff, child?]
  constructor
  · rintro ⟨_, ⟨rows, read, rfl⟩, once⟩
    rw [List.map_cons, List.filter_cons] at once
    split at once
    · rw [List.nodup_cons] at once
      refine ⟨⟨rows, read, once.2⟩, fun known => ?_⟩
      simp only [read, Option.bind_eq_bind, Option.bind_some, List.lookup_eq_none_iff, bne_iff_ne]
      rintro row among rfl
      exact once.1 (List.mem_filter.mpr ⟨List.mem_map.mpr ⟨row, among, rfl⟩, known⟩)
    · rename_i unknown
      exact ⟨⟨rows, read, once⟩, fun known => absurd known unknown⟩
  · rintro ⟨⟨rows, read, once⟩, fresh⟩
    refine ⟨_, ⟨rows, read, rfl⟩, ?_⟩
    rw [List.map_cons, List.filter_cons]
    split
    · rename_i known
      have missing := fresh known
      simp only [read, Option.bind_eq_bind, Option.bind_some, List.lookup_eq_none_iff,
        bne_iff_ne] at missing
      refine List.nodup_cons.mpr ⟨fun among => ?_, once⟩
      obtain ⟨row, row_among, same⟩ := List.mem_map.mp (List.mem_filter.mp among).1
      exact missing row row_among same.symm
    · exact once

theorem child?_cons (named : name.text? = some text)
    (isSection : IsSection document form (.mapping anchor entries)) (key : String) :
    child? document key (some (.mapping anchor ((name, value) :: entries))) =
      if key = text then some value else child? document key (some (.mapping anchor entries)) := by
  obtain ⟨rows, read, -⟩ := isSection
  rw [child?_eq read, child?_eq ((readNamed_cons named).trans (congrArg _ read)), List.lookup_cons]
  grind

theorem exists_readNamed_perm {rows : List (String × Node)} (perm : entries.Perm others)
    (h : readNamed document (.mapping anchor entries) = some rows) :
    ∃ moved, readNamed document (.mapping anchor others) = some moved ∧ rows.Perm moved := by
  simp only [readNamed, Node.resolve?, Node.entries?, Option.bind_eq_bind, Option.bind_some,
    mapM_eq_some_iff] at h ⊢
  obtain ⟨moved, read, moved_perm⟩ := List.perm_comp_forall₂ perm.symm h
  exact ⟨moved, read, moved_perm.symm⟩

theorem isSection_of_perm (perm : entries.Perm others)
    (isSection : IsSection document form (.mapping anchor entries)) :
    IsSection document form (.mapping anchor others) := by
  obtain ⟨rows, read, once⟩ := isSection
  obtain ⟨moved, read_moved, rows_perm⟩ := exists_readNamed_perm perm read
  exact ⟨moved, read_moved, ((rows_perm.map Prod.fst).filter form.knows).nodup_iff.mp once⟩

/-- The known entries of a section are found wherever they stand. -/
theorem child?_of_perm (perm : entries.Perm others)
    (isSection : IsSection document form (.mapping anchor entries))
    (known : form.knows key = true) :
    child? document key (some (.mapping anchor entries)) =
      child? document key (some (.mapping anchor others)) := by
  obtain ⟨rows, read, once⟩ := isSection
  obtain ⟨moved, read_moved, rows_perm⟩ := exists_readNamed_perm perm read
  rw [child?_eq read, child?_eq read_moved]
  exact lookup_perm known once rows_perm

end Mapping

namespace Edit

variable {x y : Node} {item : Form}

/-- A form whose entries are not read is left alone. -/
theorem eq_of_scalar (edit : Edit .scalar x y) : x = y := by
  generalize same : Form.scalar = form at edit
  induction edit with
  | refl => rfl
  | symm _ ih => exact (ih same).symm
  | trans _ _ ih_first ih_second => exact (ih_first same).trans (ih_second same)
  | order | stranger | blank | entry | item | swap => cases same

theorem isTree_iff (edit : Edit form x y) : x.IsTree ↔ y.IsTree := by
  induction edit with
  | refl => rfl
  | symm _ ih => exact ih.symm
  | trans _ _ ih_first ih_second => exact ih_first.trans ih_second
  | order perm => simp only [Node.isTree_mapping_iff, perm.mem_iff]
  | stranger named _ tree =>
    simp [Node.isTree_mapping_iff, Node.IsTree.of_text? named, tree]
  | blank => simp [Node.isTree_mapping_iff, Node.IsTree.scalar]
  | entry _ _ ih => simp [Node.isTree_mapping_iff, ih]
  | item _ ih => simp [Node.isTree_sequence_iff, or_imp, forall_and, ih]
  | swap => simp [Node.isTree_mapping_iff, or_imp, forall_and, and_left_comm]

theorem isSection_iff (edit : Edit (.keyed field) x y) :
    IsSection document (.keyed field) x ↔ IsSection document (.keyed field) y := by
  generalize same : Form.keyed field = form at edit
  induction edit with
  | refl => rfl
  | symm _ ih => exact (ih same).symm
  | trans _ _ ih_first ih_second => exact (ih_first same).trans (ih_second same)
  | order perm => exact ⟨isSection_of_perm perm, isSection_of_perm perm.symm⟩
  | stranger named unknown =>
    cases same
    rw [isSection_cons named, and_iff_left]
    intro known
    simp [Form.knows, unknown] at known
  | blank => exact Iff.rfl
  | entry named => rw [isSection_cons named, isSection_cons named]
  | item | swap => cases same

/-- Each known entry is there still, and says the same. -/
theorem child? (edit : Edit (.keyed field) x y) (isSection : IsSection document (.keyed field) x)
    (known : (field key).isRead = true) :
    Option.Rel (Edit (field key)) (Yaml.child? document key (some x))
      (Yaml.child? document key (some y)) := by
  generalize same : Form.keyed field = form at edit
  induction edit with
  | refl => exact rel_refl (Edit.refl _)
  | symm edit ih =>
    subst same
    exact rel_symm .symm (ih (edit.isSection_iff.mpr isSection) rfl)
  | trans first second ih_first ih_second =>
    subst same
    exact rel_trans .trans (ih_first isSection rfl)
      (ih_second (first.isSection_iff.mp isSection) rfl)
  | order perm =>
    rw [child?_of_perm perm isSection known]
    exact rel_refl (Edit.refl _)
  | @stranger _ _ _ name value text named unknown =>
    cases same
    have other : key ≠ text := by
      rintro rfl
      simp [known] at unknown
    rw [child?_cons named isSection, if_neg other]
    exact rel_refl (Edit.refl _)
  | blank => exact .none
  | entry named edit =>
    cases same
    have rest := ((isSection_cons named).mp isSection).1
    rw [child?_cons named rest, child?_cons named rest]
    split
    · rename_i here
      exact .some (here ▸ edit)
    · exact rel_refl (Edit.refl _)
  | item | swap => cases same

/-- An edit leaves sections where a form asks for them. -/
theorem fits (edit : Edit form x y) (fits : form.Fits document x) : form.Fits document y := by
  induction form generalizing x y with
  | ignored | scalar | list | map => trivial
  | keyed field ih =>
    obtain ⟨isSection, below⟩ := fits
    refine ⟨edit.isSection_iff.mp isSection, fun key known part there => ?_⟩
    have related := rel_symm .symm (edit.child? isSection known)
    rw [there] at related
    obtain ⟨whole, before, edit⟩ := rel_some_iff.mp related
    exact ih key edit.symm (below key known whole before)

end Edit

/-- The form of an entry of a section. -/
def Form.entry : Form → String → Form
  | .keyed field, key => field key
  | _, _ => .ignored

theorem Form.fits_iff (keyed : form = .keyed form.entry) :
    form.Fits document node ↔ IsSection document form node ∧ ∀ key, form.knows key = true →
      ∀ part, Yaml.child? document key (some node) = some part →
        (form.entry key).Fits document part := by
  cases form with
  | keyed field => rfl
  | ignored | scalar | list | map => cases keyed

/-- The form of what stands at the end of a path. -/
def Form.at (form : Form) : List String → Form
  | [] => form
  | key :: path => (form.entry key).at path

theorem Form.isRead_of_at {path : List String} (read : (form.at path).isRead = true) :
    form.isRead = true := by
  induction path generalizing form with
  | nil => exact read
  | cons key path ih =>
    cases form with
    | keyed field => rfl
    | ignored | scalar | list | map => exact absurd (ih read) nofun

/-- What stands at the end of a path is there still, and says the same. -/
theorem Edit.at? {x? y? : Option Node} {path : List String} (edit : Option.Rel (Edit form) x? y?)
    (fits : ∀ x ∈ x?, form.Fits document x) (read : (form.at path).isRead) :
    Option.Rel (Edit (form.at path)) (Yaml.at? document path x?) (Yaml.at? document path y?) := by
  induction path generalizing form x? y? with
  | nil => simpa only [Form.at, Yaml.at?] using edit
  | cons key path ih =>
    cases edit with
    | none =>
      rw [at?_none]
      exact .none
    | @some x y edit =>
      have known : (form.entry key).isRead = true := Form.isRead_of_at read
      cases form with
      | ignored | scalar | list | map => cases known
      | keyed field =>
        obtain ⟨isSection, below⟩ := fits x rfl
        exact ih (edit.child? isSection known) (fun part there => below key known part there) read

namespace Edit

/-- A list reads the same if its items do. -/
theorem readList {α : Type} {read : Reader α} {item : Form} {x y : Node}
    (same : ∀ x y, Edit item x y → read document x = read document y)
    (edit : Edit (.list item) x y) :
    Yaml.readList read document x = Yaml.readList read document y := by
  generalize list : Form.list item = form at edit
  induction edit with
  | refl => rfl
  | symm _ ih => exact (ih list).symm
  | trans _ _ ih_first ih_second => exact (ih_first list).trans (ih_second list)
  | item edit =>
    cases list
    simp only [Yaml.readList, Node.resolve?, Node.items?, Option.bind_eq_bind, Option.bind_some,
      List.mapM_append, List.mapM_cons, same _ _ edit]
  | order | stranger | blank | entry | swap => cases list

end Edit

end OrderCluster.Yaml
