import OrderCluster.Proofs.Json.Grammar

/-!
# Skipping takes exactly one value

Whatever follows it, a value that nobody asked for is skipped to its end and not a byte further, and
only values are skipped. So the skipper decides where a value ends, and a text has at most one value
in front of what cannot continue it.
-/

namespace OrderCluster.Json

/-! ## Words -/

theorem expect_eq_ok_iff {word s rest : Bytes} : expect word s = .ok rest ↔ s = word ++ rest := by
  induction word generalizing s with
  | nil =>
    constructor
    · exact Except.ok.inj
    · exact congrArg Except.ok
  | cons b word ih =>
    cases s with
    | nil =>
      constructor
      · rintro ⟨⟩
      · rintro ⟨⟩
    | cons c s =>
      rw [expect]
      split
      · rename_i same
        rw [ih, same, List.cons_append, List.cons.injEq, eq_self, true_and]
      · rename_i differ
        constructor
        · rintro ⟨⟩
        · intro eq
          exact absurd (List.cons.inj eq).1.symm differ

theorem expect_append (word rest : Bytes) : expect word (word ++ rest) = .ok rest :=
  expect_eq_ok_iff.mpr rfl

/-! ## What stands behind an item or a member -/

theorem Blank.stops_close {a : Bytes} (blank : Blank a) {b : UInt8}
    (close : isDigit b = false ∧ b ≠ 0x2e ∧ b ≠ 0x65 ∧ b ≠ 0x45) (rest : Bytes) :
    Stops (a ++ b :: rest) :=
  blank.stops_append (stops_cons close)

theorem commas_cons_cons (text next : Bytes) (texts : List Bytes) :
    commas (text :: next :: texts) = text ++ 0x2c :: commas (next :: texts) := by
  rw [commas]
  exact List.cons_ne_nil _ _

/-! ## Every value is skipped -/

/-- Skipping a value with enough fuel leads behind it. -/
def Skips (t : Bytes) : Prop :=
  ∀ rest, Meets t rest → ∀ fuel, 2 * t.length ≤ fuel → skipValueWith fuel (t ++ rest) = .ok rest

theorem skipValueWith_blank (fuel : Nat) {a : Bytes} (blank : Blank a) (s : Bytes) :
    skipValueWith fuel (a ++ s) = skipValueWith fuel s := by
  cases fuel with
  | zero => simp only [skipValueWith]
  | succ fuel => simp only [skipValueWith, blank.skipBlanks_append]

theorem skipItemsWith_blank (fuel : Nat) {a : Bytes} (blank : Blank a) (s : Bytes) :
    skipItemsWith fuel (a ++ s) = skipItemsWith fuel s := by
  cases fuel with
  | zero => simp only [skipItemsWith]
  | succ fuel => simp only [skipItemsWith, skipValueWith_blank fuel blank]

theorem skipMembersWith_blank (fuel : Nat) {a : Bytes} (blank : Blank a) (s : Bytes) :
    skipMembersWith fuel (a ++ s) = skipMembersWith fuel s := by
  cases fuel with
  | zero => simp only [skipMembersWith]
  | succ fuel => simp only [skipMembersWith, blank.skipBlanks_append]

theorem skipItemsWith_of_items {inner : Bytes} (rest : Bytes) (inner_blank : Blank inner)
    {items : List Item} (some : items ≠ []) (skips : ∀ i ∈ items, Skips i.value) (blank : ∀ i ∈ items, Blank i.after)
    {fuel : Nat} (enough : 2 * (commas (items.map Item.text)).length < fuel) :
    skipItemsWith fuel (commas (items.map Item.text) ++ (inner ++ 0x5d :: rest)) = .ok rest := by
  induction items generalizing fuel with
  | nil => exact absurd rfl some
  | cons i items ih =>
    obtain ⟨fuel, rfl⟩ := Nat.exists_eq_succ_of_ne_zero (Nat.ne_zero_of_lt enough)
    have after := blank i List.mem_cons_self
    have skip := skips i List.mem_cons_self
    cases items with
    | nil =>
      have value := skip (i.after ++ (inner ++ 0x5d :: rest))
        (fun _ => after.stops_append (inner_blank.stops_close (by decide) rest)) fuel (by
          simp only [List.map_cons, List.map_nil, commas, Item.text, List.length_append] at enough
          omega)
      simp only [List.map_cons, List.map_nil, commas, Item.text, List.append_assoc, skipItemsWith,
        value, ok_bind, after.skipBlanks_append]
      rw [inner_blank.skipBlanks_cons (by decide)]
      rfl
    | cons j items =>
      rw [List.map_cons, List.map_cons, commas_cons_cons, ← List.map_cons] at enough ⊢
      simp only [Item.text, List.length_append, List.length_cons] at enough
      have value := skip
        (i.after ++ 0x2c :: (commas ((j :: items).map Item.text) ++ (inner ++ 0x5d :: rest)))
        (fun _ => after.stops_close (by decide) _) fuel (by omega)
      have others := ih (List.cons_ne_nil _ _) (List.forall_mem_cons.mp skips).2
        (List.forall_mem_cons.mp blank).2 (show _ < fuel by omega)
      simp only [Item.text, List.append_assoc, List.cons_append, skipItemsWith, value, ok_bind]
      rw [after.skipBlanks_cons (by decide)]
      exact others

/-- One member is skipped up to what stands behind it. -/
theorem skipMembersWith_entry {e : Entry} (whole : e.WellFormed) (skips : Skips e.value)
    {fuel : Nat} (enough : 2 * e.text.length ≤ fuel) {rest : Bytes}
    (stops : Stops (e.after ++ rest)) :
    skipMembersWith (fuel + 1) (e.text ++ rest) =
      match skipBlanks (e.after ++ rest) with
      | [] => .error .truncated
      | 0x2c :: rest => skipMembersWith fuel rest
      | 0x7d :: rest => .ok rest
      | _ => .error .malformed := by
  simp only [Entry.text, List.length_append, List.length_cons] at enough
  have value := skips (e.after ++ rest) (fun _ => stops) fuel (by omega)
  simp only [Entry.text, List.append_assoc, List.cons_append, skipMembersWith]
  rw [whole.before.skipBlanks_cons (by decide)]
  simp only [skipText_of_isSpelling whole.key, ok_bind]
  rw [whole.gap.skipBlanks_cons (by decide)]
  simp only [value, ok_bind]
  rfl

theorem skipMembersWith_of_entries {inner : Bytes} (rest : Bytes) (inner_blank : Blank inner)
    {entries : List Entry} (some : entries ≠ []) (each : ∀ e ∈ entries, e.WellFormed)
    (skips : ∀ e ∈ entries, Skips e.value) {fuel : Nat}
    (enough : 2 * (commas (entries.map Entry.text)).length < fuel) :
    skipMembersWith fuel (commas (entries.map Entry.text) ++ (inner ++ 0x7d :: rest)) =
      .ok rest := by
  induction entries generalizing fuel with
  | nil => exact absurd rfl some
  | cons e entries ih =>
    obtain ⟨fuel, rfl⟩ := Nat.exists_eq_succ_of_ne_zero (Nat.ne_zero_of_lt enough)
    simp only [List.forall_mem_cons] at each skips
    have after := each.1.after
    cases entries with
    | nil =>
      simp only [List.map_cons, List.map_nil, commas] at enough ⊢
      rw [skipMembersWith_entry each.1 skips.1 (by omega)
        (after.stops_append (inner_blank.stops_close (by decide) rest)),
        after.skipBlanks_append, inner_blank.skipBlanks_cons (by decide)]
      rfl
    | cons j entries =>
      rw [List.map_cons, List.map_cons, commas_cons_cons, ← List.map_cons] at enough ⊢
      simp only [List.length_append, List.length_cons] at enough
      rw [List.append_assoc, List.cons_append,
        skipMembersWith_entry each.1 skips.1 (by omega) (after.stops_close (by decide) _),
        after.skipBlanks_cons (by decide)]
      exact ih (List.cons_ne_nil _ _) each.2 skips.2 (by omega)

/-- The first byte behind the blanks decides what is skipped. -/
theorem skipValueWith_cons {lead : Bytes} (blank : Blank lead) {b : UInt8}
    (solid : isBlank b = false) (fuel : Nat) (rest : Bytes) :
    skipValueWith (fuel + 1) (lead ++ b :: rest) =
      if b = 0x6e then expect (ascii "ull") rest
      else if b = 0x74 then expect (ascii "rue") rest
      else if b = 0x66 then expect (ascii "alse") rest
      else if b = 0x2d then skipNumber rest
      else if isDigit b then skipNumber (b :: rest)
      else if b = 0x22 then skipText rest
      else if b = 0x5b then
        match skipBlanks rest with
        | [] => .error .truncated
        | 0x5d :: rest => .ok rest
        | rest => skipItemsWith fuel rest
      else if b = 0x7b then
        match skipBlanks rest with
        | [] => .error .truncated
        | 0x7d :: rest => .ok rest
        | rest => skipMembersWith fuel rest
      else .error .malformed := by
  simp only [skipValueWith]
  rewrite [blank.skipBlanks_cons solid]
  rfl

theorem skipValueWith_bracket {lead : Bytes} (blank : Blank lead) (fuel : Nat) (rest : Bytes) :
    skipValueWith (fuel + 1) (lead ++ 0x5b :: rest) =
      match skipBlanks rest with
      | [] => .error .truncated
      | 0x5d :: rest => .ok rest
      | rest => skipItemsWith fuel rest :=
  skipValueWith_cons blank (by decide) fuel rest

theorem skipValueWith_brace {lead : Bytes} (blank : Blank lead) (fuel : Nat) (rest : Bytes) :
    skipValueWith (fuel + 1) (lead ++ 0x7b :: rest) =
      match skipBlanks rest with
      | [] => .error .truncated
      | 0x7d :: rest => .ok rest
      | rest => skipMembersWith fuel rest :=
  skipValueWith_cons blank (by decide) fuel rest

theorem skips_word {lead word : Bytes} (blank : Blank lead)
    (known : word ∈ [ascii "null", ascii "true", ascii "false"]) : Skips (lead ++ word) := by
  intro rest _ fuel enough
  simp only [List.mem_cons, List.not_mem_nil, or_false] at known
  cases fuel with
  | zero =>
    rcases known with rfl | rfl | rfl <;> simp [ascii] at enough
  | succ fuel =>
    rw [List.append_assoc]
    rcases known with rfl | rfl | rfl
    · exact (skipValueWith_cons blank (by decide) fuel _).trans (expect_append _ rest)
    · exact (skipValueWith_cons blank (by decide) fuel _).trans (expect_append _ rest)
    · exact (skipValueWith_cons blank (by decide) fuel _).trans (expect_append _ rest)

theorem skips_number {lead sign s : Bytes} (blank : Blank lead)
    (signed : sign = [] ∨ sign = [0x2d]) (number : IsNumber s) : Skips (lead ++ (sign ++ s)) := by
  intro rest meets fuel enough
  obtain ⟨b, more, rfl, digit⟩ := number.exists_cons
  obtain ⟨fuel, rfl⟩ := Nat.exists_eq_succ_of_ne_zero (n := fuel) (by
    rintro rfl
    simp at enough)
  rcases signed with rfl | rfl
  · rw [List.nil_append] at meets ⊢
    have signed := isSigned_append blank b (isBlank_of_isDigit digit) more
    have stops := meets (signed.trans (by simp [digit]))
    have skipped := skipNumber_of_isNumber number stops
    rw [List.append_assoc, List.cons_append, skipValueWith_cons blank (isBlank_of_isDigit digit),
      if_neg (ne_of_isDigit digit (by decide)), if_neg (ne_of_isDigit digit (by decide)),
      if_neg (ne_of_isDigit digit (by decide)), if_neg (ne_of_isDigit digit (by decide)),
      if_pos digit]
    exact skipped
  · have stops := meets (isSigned_append blank 0x2d (by decide) _)
    have skipped := skipNumber_of_isNumber number stops
    rw [List.append_assoc, List.singleton_append, List.cons_append]
    exact (skipValueWith_cons blank (by decide) fuel _).trans skipped

/-- An array is skipped if its items are. -/
theorem skips_array {lead inner : Bytes} {items : List Item} (blank : Blank lead)
    (each : ∀ i ∈ items, i.WellFormed) (skips : ∀ i ∈ items, Skips i.value)
    (inner_blank : Blank inner) : Skips (arrayText lead items inner) := by
  intro rest _ fuel enough
  simp only [arrayText, List.length_append, List.length_cons] at enough
  obtain ⟨fuel, rfl⟩ := Nat.exists_eq_succ_of_ne_zero (n := fuel) (by omega)
  simp only [arrayText, List.append_assoc, List.cons_append, List.nil_append]
  rw [skipValueWith_bracket blank]
  cases items with
  | nil =>
    simp only [List.map_nil, commas, List.nil_append]
    rw [inner_blank.skipBlanks_cons (by decide)]
    rfl
  | cons i items =>
    have all := skipItemsWith_of_items rest inner_blank (List.cons_ne_nil i items) skips
      (fun i among => (each i among).after) (show _ < fuel by omega)
    -- Behind the bracket stands an item, and no item begins like the closing bracket.
    obtain ⟨front, b, more, split, front_blank, solid, no_end⟩ :=
      (each i List.mem_cons_self).value.opens
    simp only [List.map_cons, commas_cons, Item.text, split, List.append_assoc, List.cons_append]
      at all ⊢
    rw [skipItemsWith_blank fuel front_blank] at all
    rw [front_blank.skipBlanks_cons solid]
    split
    · rename_i eq
      cases eq
    · rename_i eq
      exact absurd (List.cons.inj eq).1 no_end
    · exact all

/-- An object is skipped if the values of its members are. -/
theorem skips_object {lead inner : Bytes} {entries : List Entry} (blank : Blank lead)
    (each : ∀ e ∈ entries, e.WellFormed) (skips : ∀ e ∈ entries, Skips e.value)
    (inner_blank : Blank inner) : Skips (objectText lead entries inner) := by
  intro rest _ fuel enough
  simp only [objectText, List.length_append, List.length_cons] at enough
  obtain ⟨fuel, rfl⟩ := Nat.exists_eq_succ_of_ne_zero (n := fuel) (by omega)
  simp only [objectText, List.append_assoc, List.cons_append, List.nil_append]
  rw [skipValueWith_brace blank]
  cases entries with
  | nil =>
    simp only [List.map_nil, commas, List.nil_append]
    rw [inner_blank.skipBlanks_cons (by decide)]
    rfl
  | cons e entries =>
    have all := skipMembersWith_of_entries rest inner_blank (List.cons_ne_nil e entries)
      each skips (show _ < fuel by omega)
    have front_blank := (each e List.mem_cons_self).before
    simp only [List.map_cons, commas_cons, Entry.text, List.append_assoc, List.cons_append] at all ⊢
    rw [skipMembersWith_blank fuel front_blank] at all
    rw [front_blank.skipBlanks_cons (by decide)]
    exact all

/-- A value is skipped to its end, however much stands behind it. -/
theorem skips_of_isValue {t : Bytes} (value : IsValue t) : Skips t := by
  induction value with
  | word blank known => exact skips_word blank known
  | number blank signed number => exact skips_number blank signed number
  | @string lead s blank spelling =>
    intro rest _ fuel enough
    obtain ⟨fuel, rfl⟩ := Nat.exists_eq_succ_of_ne_zero (n := fuel) (by
      rintro rfl
      simp at enough)
    rw [List.append_assoc, List.cons_append, List.append_assoc]
    exact (skipValueWith_cons blank (by decide) fuel _).trans (skipText_of_isSpelling spelling rest)
  | array blank value after inner_blank ih =>
    exact skips_array blank (fun i among => ⟨value i among, after i among⟩) ih inner_blank
  | object blank before key gap value after inner_blank ih =>
    exact skips_object blank (fun e among =>
      ⟨before e among, key e among, gap e among, value e among, after e among⟩) ih inner_blank

/-- What follows one value. -/
theorem skipValue_of_isValue {t rest : Bytes} (value : IsValue t) (meets : Meets t rest) :
    skipValue (t ++ rest) = .ok rest := by
  refine skips_of_isValue value rest meets _ ?_
  rw [List.length_append]
  omega

/-! ## Only values are skipped -/

/-- With some fuel, only values are skipped. -/
structure Sound (fuel : Nat) : Prop where
  value : ∀ {s rest}, skipValueWith fuel s = .ok rest → ∃ t, IsValue t ∧ s = t ++ rest
  items : ∀ {s rest}, skipItemsWith fuel s = .ok rest → ∃ i items,
    (∀ j ∈ i :: items, j.WellFormed) ∧ s = commas ((i :: items).map Item.text) ++ 0x5d :: rest
  members : ∀ {s rest}, skipMembersWith fuel s = .ok rest → ∃ e entries,
    (∀ f ∈ e :: entries, f.WellFormed) ∧ s = commas ((e :: entries).map Entry.text) ++ 0x7d :: rest

theorem Sound.next_items {fuel : Nat} (sound : Sound fuel) {s rest : Bytes}
    (h : skipItemsWith (fuel + 1) s = .ok rest) : ∃ i items,
    (∀ j ∈ i :: items, j.WellFormed) ∧ s = commas ((i :: items).map Item.text) ++ 0x5d :: rest := by
  simp only [skipItemsWith] at h
  obtain ⟨behind, skipped, made⟩ := bind_eq_ok_iff.mp h
  obtain ⟨t, value, rfl⟩ := sound.value skipped
  split at made
  · cases made
  · rename_i more eq
    obtain ⟨after, blank, rfl⟩ := exists_of_skipBlanks eq
    obtain ⟨i, items, each, rfl⟩ := sound.items made
    refine ⟨⟨t, after⟩, i :: items, List.forall_mem_cons.mpr ⟨⟨value, blank⟩, each⟩, ?_⟩
    simp only [List.map_cons, commas_cons_cons, Item.text, List.append_assoc, List.cons_append]
  · rename_i more eq
    obtain ⟨after, blank, rfl⟩ := exists_of_skipBlanks eq
    obtain rfl := Except.ok.inj made
    refine ⟨⟨t, after⟩, [], by simpa using ⟨value, blank⟩, ?_⟩
    simp only [List.map_cons, List.map_nil, commas, Item.text, List.append_assoc]
  · cases made

theorem Sound.next_members {fuel : Nat} (sound : Sound fuel) {s rest : Bytes}
    (h : skipMembersWith (fuel + 1) s = .ok rest) : ∃ e entries,
    (∀ f ∈ e :: entries, f.WellFormed) ∧
      s = commas ((e :: entries).map Entry.text) ++ 0x7d :: rest := by
  simp only [skipMembersWith] at h
  split at h
  · cases h
  · rename_i inside eq
    obtain ⟨before, before_blank, rfl⟩ := exists_of_skipBlanks eq
    obtain ⟨behind, keyed, inner⟩ := bind_eq_ok_iff.mp h
    obtain ⟨key, spelling, rfl⟩ := isSpelling_of_skipText keyed
    split at inner
    · cases inner
    · rename_i inside eq
      obtain ⟨gap, gap_blank, rfl⟩ := exists_of_skipBlanks eq
      obtain ⟨behind, skipped, made⟩ := bind_eq_ok_iff.mp inner
      obtain ⟨t, value, rfl⟩ := sound.value skipped
      split at made
      · cases made
      · rename_i more eq
        obtain ⟨after, blank, rfl⟩ := exists_of_skipBlanks eq
        obtain ⟨e, entries, each, rfl⟩ := sound.members made
        refine ⟨⟨before, key, gap, t, after⟩, e :: entries,
          List.forall_mem_cons.mpr ⟨⟨before_blank, spelling, gap_blank, value, blank⟩, each⟩, ?_⟩
        simp only [List.map_cons, commas_cons_cons, Entry.text, List.append_assoc, List.cons_append]
      · rename_i more eq
        obtain ⟨after, blank, rfl⟩ := exists_of_skipBlanks eq
        obtain rfl := Except.ok.inj made
        refine ⟨⟨before, key, gap, t, after⟩, [],
          by simpa using ⟨before_blank, spelling, gap_blank, value, blank⟩, ?_⟩
        simp only [List.map_cons, List.map_nil, commas, Entry.text, List.append_assoc,
          List.cons_append]
      · cases made
    · cases inner
  · cases h

theorem Sound.next_value {fuel : Nat} (sound : Sound fuel) {s rest : Bytes}
    (h : skipValueWith (fuel + 1) s = .ok rest) : ∃ t, IsValue t ∧ s = t ++ rest := by
  obtain ⟨lead, blank, split⟩ := exists_blank s
  cases eq : skipBlanks s with
  | nil =>
    simp only [skipValueWith, eq] at h
    cases h
  | cons b more =>
    have solid := isBlank_of_skipBlanks eq
    rw [eq] at split
    subst split
    rw [skipValueWith_cons blank solid] at h
    split at h
    · rename_i null
      subst null
      refine ⟨lead ++ ascii "null", .word blank (by simp), ?_⟩
      rw [expect_eq_ok_iff.mp h, List.append_assoc]
      rfl
    split at h
    · rename_i true_word
      subst true_word
      refine ⟨lead ++ ascii "true", .word blank (by simp), ?_⟩
      rw [expect_eq_ok_iff.mp h, List.append_assoc]
      rfl
    split at h
    · rename_i false_word
      subst false_word
      refine ⟨lead ++ ascii "false", .word blank (by simp), ?_⟩
      rw [expect_eq_ok_iff.mp h, List.append_assoc]
      rfl
    split at h
    · rename_i minus
      obtain ⟨number, is_number, rfl⟩ := isNumber_of_skipNumber h
      refine ⟨_, .number blank (.inr rfl) is_number, ?_⟩
      rw [minus, List.append_assoc, List.append_assoc]
      rfl
    split at h
    · obtain ⟨number, is_number, eq⟩ := isNumber_of_skipNumber h
      refine ⟨_, .number blank (.inl rfl) is_number, ?_⟩
      rw [eq, List.append_assoc, List.nil_append]
    split at h
    · rename_i quote
      obtain ⟨t, spelling, rfl⟩ := isSpelling_of_skipText h
      refine ⟨_, .string blank spelling, ?_⟩
      rw [quote, List.append_assoc, List.cons_append, List.append_assoc, List.singleton_append]
    split at h
    · rename_i bracket
      subst bracket
      split at h
      · cases h
      · rename_i tail eq
        obtain ⟨inner, inner_blank, rfl⟩ := exists_of_skipBlanks eq
        obtain rfl := Except.ok.inj h
        refine ⟨arrayText lead [] inner,
          isValue_arrayText blank (List.forall_mem_nil _) inner_blank, ?_⟩
        simp only [arrayText, List.map_nil, commas, List.nil_append, List.append_assoc,
          List.cons_append]
      · obtain ⟨front, front_blank, split⟩ := exists_blank more
        rw [← skipItemsWith_blank fuel front_blank, ← split] at h
        obtain ⟨i, items, each, rfl⟩ := sound.items h
        refine ⟨_, isValue_arrayText blank each blank_nil, ?_⟩
        simp only [arrayText, List.nil_append, List.append_assoc, List.cons_append]
    split at h
    · rename_i brace
      subst brace
      split at h
      · cases h
      · rename_i tail eq
        obtain ⟨inner, inner_blank, rfl⟩ := exists_of_skipBlanks eq
        obtain rfl := Except.ok.inj h
        refine ⟨objectText lead [] inner,
          isValue_objectText blank (List.forall_mem_nil _) inner_blank, ?_⟩
        simp only [objectText, List.map_nil, commas, List.nil_append, List.append_assoc,
          List.cons_append]
      · obtain ⟨front, front_blank, split⟩ := exists_blank more
        rw [← skipMembersWith_blank fuel front_blank, ← split] at h
        obtain ⟨e, entries, each, rfl⟩ := sound.members h
        refine ⟨_, isValue_objectText blank each blank_nil, ?_⟩
        simp only [objectText, List.nil_append, List.append_assoc, List.cons_append]
    · cases h

theorem sound (fuel : Nat) : Sound fuel := by
  induction fuel with
  | zero =>
    constructor
    all_goals
      intro s rest h
      simp only [skipValueWith, skipItemsWith, skipMembersWith] at h
      cases h
  | succ fuel ih => exact ⟨ih.next_value, ih.next_items, ih.next_members⟩

/-- What is skipped is a value. -/
theorem isValue_of_skipValue {s rest : Bytes} (h : skipValue s = .ok rest) :
    ∃ t, IsValue t ∧ s = t ++ rest :=
  (sound _).value h

/-! ## Whether a text is a value -/

/-- Whether a text is a value can be told by skipping it. -/
theorem isValue_iff {t : Bytes} : IsValue t ↔ skipValue t = .ok [] := by
  constructor
  · intro value
    have skipped := skipValue_of_isValue value fun _ => stops_nil
    rwa [List.append_nil] at skipped
  · intro skipped
    obtain ⟨t', value, rfl⟩ := isValue_of_skipValue skipped
    rwa [List.append_nil]

instance : DecidablePred IsValue := fun _ => decidable_of_iff _ isValue_iff.symm

theorem Entry.wellFormed_iff {e : Entry} :
    e.WellFormed ↔
      Blank e.before ∧ IsSpelling e.key ∧ Blank e.gap ∧ IsValue e.value ∧ Blank e.after := by
  constructor
  · exact fun formed => ⟨formed.before, formed.key, formed.gap, formed.value, formed.after⟩
  · rintro ⟨before, key, gap, value, after⟩
    exact ⟨before, key, gap, value, after⟩

instance (e : Entry) : Decidable e.WellFormed := decidable_of_iff _ Entry.wellFormed_iff.symm

end OrderCluster.Json
