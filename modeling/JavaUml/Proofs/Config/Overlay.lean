import JavaUml.Proofs.Config.Correspondence

/-!
# Values of merged mappings

Merging writes one mapping over another.  A value of the second wins, unless it
is null; where both hold a mapping, these are merged in turn.  So what a path
leads to in the merged mapping depends only on what it leads to in the two: the
law of one level is the law of every level.
-/

namespace JavaUml.Config

/-! ## One level -/

@[simp]
theorem Setting.over_none (setting : Setting) : setting.over none = setting := by
  cases setting with
  | scalar value => cases value <;> rfl
  | _ => rfl

/-- A key that both mappings have gets the one value written over the other. -/
theorem getBy?_mergeEntries {added : Entries}
    (distinct : (Ordered.forms Scalar.keyForm added).Nodup) (known : Entries) (key : Scalar) :
    Ordered.getBy? Scalar.keyForm key (mergeEntries known added) =
      ((Ordered.getBy? Scalar.keyForm key added).map
        (Setting.over (Ordered.getBy? Scalar.keyForm key known))).or
        (Ordered.getBy? Scalar.keyForm key known) := by
  induction added generalizing known with
  | nil => rfl
  | cons entry rest ih =>
      obtain ⟨first, value⟩ := entry
      rw [Ordered.forms, List.map_cons, List.nodup_cons] at distinct
      rw [mergeEntries, ih distinct.2, Ordered.getBy?_putBy, Ordered.getBy?]
      by_cases hit : first.keyForm = key.keyForm
      · have missing : Ordered.getBy? Scalar.keyForm key rest = none :=
          Ordered.getBy?_eq_none_iff.2 (hit ▸ distinct.1)
        simp [hit, missing, Ordered.getBy?_congr hit]
      · simp [hit]

/-- Known keys stay in their positions, and new ones come last in their order. -/
theorem map_fst_mergeEntries {added : Entries}
    (distinct : (Ordered.forms Scalar.keyForm added).Nodup) (known : Entries) :
    (mergeEntries known added).map Prod.fst =
      known.map Prod.fst ++ (added.map Prod.fst).filter fun key =>
        key.keyForm ∉ (known.map Prod.fst).map Scalar.keyForm := by
  induction added generalizing known with
  | nil => simp [mergeEntries]
  | cons entry rest ih =>
      obtain ⟨first, value⟩ := entry
      rw [Ordered.forms, List.map_cons, List.nodup_cons] at distinct
      rw [mergeEntries, ih distinct.2, Ordered.map_fst_putBy, Ordered.forms_eq, List.map_cons]
      by_cases mem : first.keyForm ∈ (known.map Prod.fst).map Scalar.keyForm
      · rw [if_pos mem, List.filter_cons_of_neg (by simpa using mem)]
      · rw [if_neg mem, List.filter_cons_of_pos (by simpa using mem), List.append_assoc,
          List.singleton_append]
        congr 2
        apply List.filter_congr
        intro key key_mem
        have differ : key.keyForm ≠ first.keyForm := by
          obtain ⟨other, other_mem, rfl⟩ := List.mem_map.1 key_mem
          exact fun same => distinct.1 (List.mem_map.2 ⟨other, other_mem, same⟩)
        simp [differ]

/-- Whether a setting is a mapping. -/
def Setting.isMapping : Setting → Bool
  | .mapping _ => true
  | _ => false

/-- In a mapping, and in the mappings that are its values, no two keys have one form. -/
inductive Setting.HasDistinctForms : Setting → Prop
  | other {setting : Setting} (other : setting.isMapping = false) : HasDistinctForms setting
  | mapping {entries : Entries} (distinct : (Ordered.forms Scalar.keyForm entries).Nodup)
      (each : ∀ entry ∈ entries, HasDistinctForms entry.2) : HasDistinctForms (.mapping entries)

theorem Setting.HasDistinctForms.entries {entries : Entries}
    (distinct : (Setting.mapping entries).HasDistinctForms) :
    (Ordered.forms Scalar.keyForm entries).Nodup ∧
      ∀ entry ∈ entries, entry.2.HasDistinctForms := by
  cases distinct with
  | other other => cases other
  | mapping distinct each => exact ⟨distinct, each⟩

theorem Setting.HasDistinctForms.of_getBy? {entries : Entries} {key : Scalar} {value : Setting}
    (distinct : (Setting.mapping entries).HasDistinctForms)
    (found : Ordered.getBy? Scalar.keyForm key entries = some value) : value.HasDistinctForms := by
  obtain ⟨known, -, mem⟩ := Ordered.mem_of_getBy? found
  exact distinct.entries.2 _ mem

/-! ## Merging again -/

/-- Entries change nothing where their values, written over what is there, give
what is there. -/
theorem mergeEntries_of_absorbed {known added : Entries}
    (absorbed : ∀ entry ∈ added, ∃ value, Ordered.getBy? Scalar.keyForm entry.1 known = some value ∧
      entry.2.over (some value) = value) : mergeEntries known added = known := by
  induction added with
  | nil => rfl
  | cons entry rest ih =>
      obtain ⟨value, found, same⟩ := absorbed entry List.mem_cons_self
      rw [mergeEntries, found, same, Ordered.putBy_of_getBy? found]
      exact ih fun other mem => absorbed other (List.mem_cons_of_mem _ mem)

/-- Writing a setting a second time changes nothing. -/
theorem Setting.over_over {setting : Setting} (distinct : setting.HasDistinctForms)
    (old : Option Setting) : setting.over (some (setting.over old)) = setting.over old := by
  induction setting using Setting.tree_induction generalizing old with
  | text value => rfl
  | fixed setting isFixed =>
      cases setting with
      | scalar value => cases value <;> rfl
      | sequence => simp [Setting.isFixed] at isFixed
      | mapping => simp [Setting.isFixed] at isFixed
      | _ => rfl
  | sequence items => rfl
  | mapping entries ih =>
      obtain ⟨nodup, each⟩ := distinct.entries
      -- Each entry was written over what its key had, so writing it again is the same case.
      have again (known : Entries) (met : ∀ entry ∈ entries, ∃ before,
          Ordered.getBy? Scalar.keyForm entry.1 known = some (entry.2.over before)) :
          mergeEntries known entries = known := by
        apply mergeEntries_of_absorbed
        intro entry mem
        obtain ⟨before, found⟩ := met entry mem
        exact ⟨_, found, ih entry mem (each entry mem) before⟩
      have merged_again (known : Entries) :
          mergeEntries (mergeEntries known entries) entries = mergeEntries known entries := by
        apply again
        intro entry mem
        have found := Ordered.getBy?_of_mem nodup mem
        exact ⟨_, by rw [getBy?_mergeEntries nodup, found]; rfl⟩
      have merged_self : mergeEntries entries entries = entries := by
        apply again
        intro entry mem
        exact ⟨none, by rw [Setting.over_none]; exact Ordered.getBy?_of_mem nodup mem⟩
      cases old with
      | none => simp [Setting.over, merged_self]
      | some old =>
          cases old with
          | mapping known => simp [Setting.over, merged_again]
          | _ => simp [Setting.over, merged_self]

/-! ## Every level -/

/-- The keys of a mapping in their order.  Other settings have none. -/
def Setting.keys : Setting → List Scalar
  | .mapping entries => entries.map Prod.fst
  | _ => []

/-- What keys of any kind lead to, one after the other. -/
def Setting.below? : List Scalar → Setting → Option Setting
  | [], setting => some setting
  | key :: path, .mapping entries => (Ordered.getBy? Scalar.keyForm key entries).bind (below? path)
  | _ :: _, _ => none

theorem Setting.at?_eq_below? (path : List String) (setting : Setting) :
    setting.at? path = setting.below? (path.map .text) := by
  induction path generalizing setting with
  | nil => rfl
  | cons key path ih =>
      cases setting with
      | mapping entries =>
          rw [Setting.at?, List.map_cons, Setting.below?, Scalar.getBy?_text]
          congr 1
          funext inner
          exact ih inner
      | _ => rfl

theorem Setting.HasDistinctForms.of_below? {setting value : Setting} {path : List Scalar}
    (distinct : setting.HasDistinctForms) (found : setting.below? path = some value) :
    value.HasDistinctForms := by
  induction path generalizing setting with
  | nil =>
      cases found
      exact distinct
  | cons key path ih =>
      cases setting with
      | mapping entries =>
          rcases Option.bind_eq_some_iff.1 found with ⟨inner, inner_eq, found⟩
          exact ih (distinct.of_getBy? inner_eq) found
      | _ => simp [Setting.below?] at found

/-- A mapping is merged into a mapping.  It takes the place of anything else, and
into that no path leads. -/
theorem Setting.over_mapping_cases (old : Option Setting) :
    (∃ known, old = some (.mapping known)) ∨
      ((∀ entries, (Setting.mapping entries).over old = .mapping entries) ∧
        old.elim [] Setting.keys = [] ∧
        ∀ key path, old.bind (Setting.below? (key :: path)) = none) := by
  cases old with
  | none => exact .inr ⟨fun _ => rfl, rfl, fun _ _ => rfl⟩
  | some old =>
      cases old with
      | mapping known => exact .inl ⟨known, rfl⟩
      | _ => exact .inr ⟨fun _ => rfl, rfl, fun _ _ => rfl⟩

theorem Setting.keys_over {entries : Entries}
    (distinct : (Ordered.forms Scalar.keyForm entries).Nodup) (old : Option Setting) :
    ((Setting.mapping entries).over old).keys = old.elim [] Setting.keys ++
      (entries.map Prod.fst).filter fun key =>
        key.keyForm ∉ (old.elim [] Setting.keys).map Scalar.keyForm := by
  rcases Setting.over_mapping_cases old with ⟨known, rfl⟩ | ⟨replaced, no_keys, -⟩
  · exact map_fst_mergeEntries distinct known
  · rw [replaced, no_keys]
    simp [Setting.keys]

theorem Setting.isMapping_over (entries : Entries) (old : Option Setting) :
    ((Setting.mapping entries).over old).isMapping := by
  rcases Setting.over_mapping_cases old with ⟨known, rfl⟩ | ⟨replaced, -⟩
  · rfl
  · rw [replaced]
    rfl

/-- What a path leads to in the setting on top lies over what the path leads to
below it. -/
theorem Setting.below?_over {setting value : Setting} {path : List Scalar}
    (distinct : setting.HasDistinctForms) (found : setting.below? path = some value)
    (old : Option Setting) :
    (setting.over old).below? path = some (value.over (old.bind (Setting.below? path))) := by
  induction path generalizing setting old with
  | nil =>
      cases found
      cases old <;> rfl
  | cons key path ih =>
      cases setting with
      | mapping entries =>
          rcases Option.bind_eq_some_iff.1 found with ⟨inner, inner_eq, inner_found⟩
          rcases Setting.over_mapping_cases old with ⟨known, rfl⟩ | ⟨replaced, -, closed⟩
          · rw [Setting.over, Setting.below?, getBy?_mergeEntries distinct.entries.1, inner_eq]
            exact ih (distinct.of_getBy? inner_eq) inner_found
                (Ordered.getBy? Scalar.keyForm key known)
          · rw [replaced, closed, Setting.over_none]
            exact found
      | _ => simp [Setting.below?] at found

theorem Setting.over_of_wins {setting : Setting} (notNull : setting ≠ .null)
    (notMapping : setting.isMapping = false) (old : Option Setting) :
    setting.over old = setting := by
  cases setting with
  | scalar value =>
      cases value with
      | null => exact absurd rfl notNull
      | _ => rfl
  | mapping => simp [Setting.isMapping] at notMapping
  | _ => rfl

/-- A setting lets a path through to what lies below it: before its end the path
leads to mappings and nulls only. -/
def Setting.LetsThrough (setting : Setting) (path : List Scalar) : Prop :=
  ∀ front, front <+: path → front ≠ path →
    ∀ value, setting.below? front = some value → value = .null ∨ value.isMapping

/-- Where a path leads nowhere in the setting on top, it leads to what lies below. -/
theorem Setting.below?_over_of_missing {setting : Setting} {path : List Scalar}
    (distinct : setting.HasDistinctForms) (missing : setting.below? path = none)
    (through : setting.LetsThrough path) (old : Option Setting) :
    (setting.over old).below? path = old.bind (Setting.below? path) := by
  induction path generalizing setting old with
  | nil => simp [Setting.below?] at missing
  | cons key path ih =>
      have front : setting = .null ∨ setting.isMapping :=
        through [] List.nil_prefix (by simp) setting rfl
      rcases front with rfl | isMapping
      · cases old <;> rfl
      · cases setting with
        | mapping entries =>
            rcases Setting.over_mapping_cases old with ⟨known, rfl⟩ | ⟨replaced, -, closed⟩
            · rw [Setting.over, Setting.below?, getBy?_mergeEntries distinct.entries.1]
              cases inner_eq : Ordered.getBy? Scalar.keyForm key entries with
              | none => rfl
              | some inner =>
                  have inner_missing : inner.below? path = none := by
                    rw [Setting.below?, inner_eq] at missing
                    exact missing
                  apply ih (distinct.of_getBy? inner_eq) inner_missing
                  intro front is_front differ value value_eq
                  apply through (key :: front) (List.cons_prefix_cons.2 ⟨rfl, is_front⟩)
                  · simpa using differ
                  · rw [Setting.below?, inner_eq]
                    exact value_eq
            · rw [replaced, closed]
              exact missing
        | _ => simp [Setting.isMapping] at isMapping

/-! ## Dotted keys -/

section Merged

variable {added : Entries} (distinct : (Setting.mapping added).HasDistinctForms) (known : Entries)
include distinct

theorem lookup?_mergeEntries {key : String} {value : Setting}
    (found : lookup? (.mapping added) key = some value) :
    lookup? (.mapping (mergeEntries known added)) key =
      some (value.over (lookup? (.mapping known) key)) := by
  rw [lookup?, Setting.at?_eq_below?] at found
  rw [lookup?, lookup?, Setting.at?_eq_below?, Setting.at?_eq_below?]
  exact Setting.below?_over distinct found (some (.mapping known))

theorem lookup?_mergeEntries_of_missing {key : String}
    (missing : lookup? (.mapping added) key = none)
    (through : ∀ front, front <+: dottedPath key → front ≠ dottedPath key →
      ∀ value, (Setting.mapping added).at? front = some value → value = .null ∨ value.isMapping) :
    lookup? (.mapping (mergeEntries known added)) key = lookup? (.mapping known) key := by
  rw [lookup?, Setting.at?_eq_below?] at missing
  rw [lookup?, lookup?, Setting.at?_eq_below?, Setting.at?_eq_below?]
  apply Setting.below?_over_of_missing distinct missing _ (some (.mapping known))
  intro front is_front differ value value_eq
  -- The front of a path of texts is one of texts.
  rw [List.prefix_iff_eq_take, ← List.map_take] at is_front
  apply through ((dottedPath key).take front.length) (List.take_prefix _ _)
  · intro same
    rw [same] at is_front
    exact differ is_front
  · rw [Setting.at?_eq_below?, ← is_front]
    exact value_eq

theorem keys_below?_mergeEntries {path : List Scalar} {value : Setting}
    (found : (Setting.mapping added).below? path = some value) (isMapping : value.isMapping) :
    ∃ result, (Setting.mapping (mergeEntries known added)).below? path = some result ∧
      result.isMapping ∧
      result.keys = ((Setting.mapping known).below? path).elim [] Setting.keys ++
        value.keys.filter fun key => key.keyForm ∉
          (((Setting.mapping known).below? path).elim [] Setting.keys).map Scalar.keyForm := by
  have merged := Setting.below?_over distinct found (some (.mapping known))
  cases value with
  | mapping entries =>
      have nodup := (distinct.of_below? found).entries.1
      exact ⟨_, merged, Setting.isMapping_over entries _, Setting.keys_over nodup _⟩
  | _ => simp [Setting.isMapping] at isMapping

theorem mergeEntries_mergeEntries :
    mergeEntries (mergeEntries known added) added = mergeEntries known added := by
  have again := Setting.over_over distinct (some (.mapping known))
  simpa [Setting.over] using again

end Merged

/-- Sections of which one is replaced, one gives way and one is merged, and a number as a key. -/
def savedSections : Entries :=
  [(.text "output", .fields [("path", .text "a"), ("depth", .whole 3)]),
    (.text "level", .text "INFO"), (.number (.whole 1), .text "first")]

/-- Sections with a null, a mapping in the place of a number and a new key, and with a truth
value that is the same key as a number. -/
def givenSections : Entries :=
  [(.text "level", .null), (.bool true, .text "yes"),
    (.text "output", .fields [("names", .sequence [.null]), ("path", .null),
      ("depth", .fields [("least", .whole 1)])])]

theorem hasDistinctForms_givenSections : (Setting.mapping givenSections).HasDistinctForms := by
  apply Setting.HasDistinctForms.mapping (by decide)
  simp only [givenSections, List.forall_mem_cons]
  refine ⟨.other rfl, .other rfl, .mapping (by decide) ?_, by simp⟩
  simp only [List.map_cons, List.map_nil, List.forall_mem_cons]
  refine ⟨.other rfl, .other rfl, .mapping (by decide) ?_, by simp⟩
  simp only [List.map_cons, List.map_nil, List.forall_mem_cons]
  exact ⟨.other rfl, by simp⟩

end JavaUml.Config
