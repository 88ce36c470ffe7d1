import JavaUml.Config.Document
import JavaUml.Proofs.Config.Correspondence
import JavaUml.Proofs.Lists
import Mathlib.Data.Finset.Card
import Mathlib.Order.Monotone.Basic

/-!
# The tree that a place holds

A place holds the tree that one gets by following the numbers of parts.  A part
that stands inside itself holds none, so that a place holds a tree is to say that
the document has an end there.

The parts on a path downwards are of ever smaller height and hence distinct.  So
no tree is higher than there are parts, and the depth to which a document is
followed is enough.
-/

namespace JavaUml.Config

/-! ## Height -/

mutual

/-- How many sequences, mappings, pairs and sets are nested in a setting. -/
def Setting.height : Setting → Nat
  | .scalar _ => 0
  | .sequence items => heightOfItems items + 1
  | .mapping entries => heightOfEntries entries + 1
  | .pair first second => max first.height second.height + 1
  | .set _ => 1

/-- The greatest height of an item. -/
def heightOfItems : List Setting → Nat
  | [] => 0
  | item :: rest => max item.height (heightOfItems rest)

/-- The greatest height of a value. -/
def heightOfEntries : List (Scalar × Setting) → Nat
  | [] => 0
  | (_, value) :: rest => max value.height (heightOfEntries rest)

end

theorem heightOfItems_le_iff {items : List Setting} {bound : Nat} :
    heightOfItems items ≤ bound ↔ ∀ item ∈ items, item.height ≤ bound := by
  induction items with
  | nil => simp [heightOfItems]
  | cons item rest ih => simp [heightOfItems, ih]

theorem heightOfEntries_le_iff {entries : Entries} {bound : Nat} :
    heightOfEntries entries ≤ bound ↔ ∀ entry ∈ entries, entry.2.height ≤ bound := by
  induction entries with
  | nil => simp [heightOfEntries]
  | cons entry rest ih => simp [heightOfEntries, ih]

@[simp]
theorem Setting.height_scalar (value : Scalar) : (Setting.scalar value).height = 0 := by
  rw [height]

@[simp]
theorem Setting.height_sequence_le_iff {items : List Setting} {bound : Nat} :
    (Setting.sequence items).height ≤ bound + 1 ↔ ∀ item ∈ items, item.height ≤ bound := by
  rw [height, Nat.add_le_add_iff_right, heightOfItems_le_iff]

@[simp]
theorem Setting.height_mapping_le_iff {entries : Entries} {bound : Nat} :
    (Setting.mapping entries).height ≤ bound + 1 ↔ ∀ entry ∈ entries, entry.2.height ≤ bound := by
  rw [height, Nat.add_le_add_iff_right, heightOfEntries_le_iff]

@[simp]
theorem Setting.height_pair_le_iff {first second : Setting} {bound : Nat} :
    (Setting.pair first second).height ≤ bound + 1 ↔
      first.height ≤ bound ∧ second.height ≤ bound := by
  rw [height, Nat.add_le_add_iff_right, Nat.max_le]

@[simp]
theorem Setting.height_set (members : List Scalar) : (Setting.set members).height = 1 := by
  rw [height]

/-! ## What a place holds -/

namespace Parts

/-- A place holds a tree. -/
inductive Holds (parts : Parts) : Item → Setting → Prop
  | scalar (value : Scalar) : Holds parts (.scalar value) (.scalar value)
  | sequence {number : Nat} {items : List Item} {settings : List Setting}
      (found : parts[number]? = some (.sequence items))
      (each : List.Forall₂ (Holds parts) items settings) :
      Holds parts (.part number) (.sequence settings)
  | mapping {number : Nat} {entries : List (Scalar × Item)} {settings : Entries}
      (found : parts[number]? = some (.mapping entries))
      (keys : entries.map Prod.fst = settings.map Prod.fst)
      (each : List.Forall₂ (Holds parts) (entries.map Prod.snd) (settings.map Prod.snd)) :
      Holds parts (.part number) (.mapping settings)
  | pair {number : Nat} {first second : Item} {one other : Setting}
      (found : parts[number]? = some (.pair first second))
      (first_holds : Holds parts first one) (second_holds : Holds parts second other) :
      Holds parts (.part number) (.pair one other)
  | members {number : Nat} {keys : List Scalar}
      (found : parts[number]? = some (.members keys)) : Holds parts (.part number) (.set keys)

variable {parts : Parts}

theorem holds_scalar_iff {item : Item} {value : Scalar} :
    parts.Holds item (.scalar value) ↔ item = .scalar value := by
  constructor
  · rintro ⟨⟩
    rfl
  · rintro rfl
    exact .scalar value

theorem holds_sequence_iff {item : Item} {settings : List Setting} :
    parts.Holds item (.sequence settings) ↔
      ∃ number items, item = .part number ∧ parts[number]? = some (.sequence items) ∧
        List.Forall₂ parts.Holds items settings := by
  constructor
  · intro holds
    cases holds with
    | sequence found each => exact ⟨_, _, rfl, found, each⟩
  · rintro ⟨number, items, rfl, found, each⟩
    exact .sequence found each

theorem holds_mapping_iff {item : Item} {settings : Entries} :
    parts.Holds item (.mapping settings) ↔
      ∃ number entries, item = .part number ∧ parts[number]? = some (.mapping entries) ∧
        EntriesRel parts.Holds entries settings := by
  constructor
  · intro holds
    cases holds with
    | mapping found keys each => exact ⟨_, _, rfl, found, entriesRel_iff.2 ⟨keys, each⟩⟩
  · rintro ⟨number, entries, rfl, found, each⟩
    exact .mapping found (entriesRel_iff.1 each).1 (entriesRel_iff.1 each).2

theorem holds_pair_iff {item : Item} {one other : Setting} :
    parts.Holds item (.pair one other) ↔
      ∃ number first second, item = .part number ∧
        parts[number]? = some (.pair first second) ∧
          parts.Holds first one ∧ parts.Holds second other := by
  constructor
  · intro holds
    cases holds with
    | pair found first_holds second_holds =>
        exact ⟨_, _, _, rfl, found, first_holds, second_holds⟩
  · rintro ⟨number, first, second, rfl, found, first_holds, second_holds⟩
    exact .pair found first_holds second_holds

theorem holds_set_iff {item : Item} {keys : List Scalar} :
    parts.Holds item (.set keys) ↔
      ∃ number, item = .part number ∧ parts[number]? = some (.members keys) := by
  constructor
  · intro holds
    cases holds with
    | members found => exact ⟨_, rfl, found⟩
  · rintro ⟨number, rfl, found⟩
    exact .members found

theorem Holds.exists_content {number : Nat} {setting : Setting}
    (holds : parts.Holds (.part number) setting) :
    ∃ content, parts[number]? = some content := by
  cases holds with
  | sequence found | mapping found | pair found | members found => exact ⟨_, found⟩

/-- A place is followed to the tree that it holds. -/
theorem Holds.unfold {item : Item} {setting : Setting} (holds : parts.Holds item setting)
    {depth : Nat} (enough : setting.height ≤ depth) : parts.unfold depth item = setting := by
  induction depth generalizing item setting with
  | zero =>
      cases holds with
      | scalar value => rfl
      | _ => simp [Setting.height] at enough
  | succ depth ih =>
      cases holds with
      | scalar value => rfl
      | @sequence number items settings found each =>
          rw [Setting.height_sequence_le_iff] at enough
          have same : items.map (parts.unfold depth) = settings := by
            rw [← List.forall₂_eq_eq_eq, List.forall₂_map_left_iff]
            exact forall₂_imp_mem each fun item _ setting mem below => ih below (enough setting mem)
          simp only [Parts.unfold, found, same]
      | @mapping number entries settings found keys each =>
          rw [Setting.height_mapping_le_iff] at enough
          have same : entries.map (fun entry => (entry.1, parts.unfold depth entry.2)) =
              settings := by
            rw [← List.forall₂_eq_eq_eq, List.forall₂_map_left_iff]
            exact forall₂_imp_mem (entriesRel_iff.2 ⟨keys, each⟩) fun entry _ setting mem below =>
              Prod.ext below.1 (ih below.2 (enough setting mem))
          simp only [Parts.unfold, found, same]
      | pair found first_holds second_holds =>
          rw [Setting.height_pair_le_iff] at enough
          simp only [Parts.unfold, found, ih first_holds enough.1, ih second_holds enough.2]
      | members found => simp only [Parts.unfold, found]

/-- A place holds one tree. -/
theorem Holds.unique {item : Item} {setting other : Setting} (holds : parts.Holds item setting)
    (again : parts.Holds item other) : setting = other := by
  have followed := holds.unfold (le_max_left _ other.height)
  rw [← followed, again.unfold (le_max_right _ _)]

/-! ## The depth of a document -/

open scoped Classical in
/-- The parts that hold a tree of at most the given height. -/
noncomputable def low (parts : Parts) (height : Nat) : Finset Nat :=
  (Finset.range parts.size).filter fun number =>
    ∃ setting, parts.Holds (.part number) setting ∧ setting.height ≤ height

theorem mem_low_iff {height number : Nat} :
    number ∈ parts.low height ↔
      ∃ setting, parts.Holds (.part number) setting ∧ setting.height ≤ height := by
  classical
  rw [low, Finset.mem_filter, Finset.mem_range, and_iff_right_iff_imp]
  rintro ⟨setting, holds, _⟩
  obtain ⟨content, found⟩ := holds.exists_content
  exact (Array.getElem?_eq_some_iff.1 found).1

theorem card_low_le (parts : Parts) (height : Nat) : (parts.low height).card ≤ parts.size := by
  classical
  rw [low]
  exact (Finset.card_filter_le _ _).trans_eq (Finset.card_range _)

theorem low_mono (parts : Parts) : Monotone parts.low := by
  intro height higher le number mem
  obtain ⟨setting, holds, low⟩ := mem_low_iff.1 mem
  exact mem_low_iff.2 ⟨setting, holds, low.trans le⟩

/-- If no part has a height, then none is higher. -/
theorem low_stays {height : Nat} (same : parts.low height = parts.low (height + 1)) :
    parts.low (height + 1) = parts.low (height + 2) := by
  -- What is no higher than `height + 1` is then no higher than `height`.
  have lower {item : Item} {setting : Setting} (holds : parts.Holds item setting)
      (bound : setting.height ≤ height + 1) : setting.height ≤ height := by
    cases item with
    | scalar value =>
        cases holds
        simp
    | part number =>
        have mem : number ∈ parts.low height := same ▸ mem_low_iff.2 ⟨setting, holds, bound⟩
        obtain ⟨other, again, low⟩ := mem_low_iff.1 mem
        rwa [holds.unique again]
  refine le_antisymm (low_mono parts (Nat.le_succ _)) fun number mem => ?_
  obtain ⟨setting, holds, bound⟩ := mem_low_iff.1 mem
  refine mem_low_iff.2 ⟨setting, holds, ?_⟩
  cases holds with
  | sequence found each =>
      rw [Setting.height_sequence_le_iff] at bound ⊢
      intro setting mem
      obtain ⟨item, _, below⟩ := exists_mem_of_forall₂ each mem
      exact lower below (bound setting mem)
  | mapping found keys each =>
      rw [Setting.height_mapping_le_iff] at bound ⊢
      intro entry mem
      obtain ⟨item, _, below⟩ := exists_mem_of_forall₂ each (List.mem_map_of_mem mem)
      exact lower below (bound entry mem)
  | pair found first_holds second_holds =>
      rw [Setting.height_pair_le_iff] at bound ⊢
      exact ⟨lower first_holds bound.1, lower second_holds bound.2⟩
  | members => simp

/-- No tree is higher than there are parts. -/
theorem Holds.height_le {item : Item} {setting : Setting} (holds : parts.Holds item setting) :
    setting.height ≤ parts.size := by
  rcases Nat.le_total setting.height parts.size with bound | high
  · exact bound
  cases item with
  | scalar value =>
      cases holds
      simp
  | part number =>
      have sizes : (parts.low setting.height).card = (parts.low parts.size).card := by
        refine Nat.stabilises_of_monotone (f := fun height => (parts.low height).card) ?_
          parts.card_low_le ?_ high
        · intro height higher le
          exact Finset.card_le_card (low_mono parts le)
        · intro height same
          have stays := Finset.eq_of_subset_of_card_le (low_mono parts (Nat.le_succ height)) same.ge
          exact congrArg Finset.card (low_stays stays)
      have same := Finset.eq_of_subset_of_card_le (low_mono parts high) sizes.le
      have mem : number ∈ parts.low parts.size := same ▸ mem_low_iff.2 ⟨setting, holds, le_rfl⟩
      obtain ⟨other, again, low⟩ := mem_low_iff.1 mem
      rwa [holds.unique again]

/-! ## Names -/

/-- A key of a mapping leads to a place that holds the value of the key. -/
theorem Holds.value? {number : Nat} {settings : Entries}
    (holds : parts.Holds (.part number) (.mapping settings)) (key : Scalar) :
    Option.Rel parts.Holds (parts.value? number key)
      (Ordered.getBy? Scalar.keyForm key settings) := by
  obtain ⟨_, entries, ⟨⟩, found, each⟩ := holds_mapping_iff.1 holds
  rw [Parts.value?, entries?, found]
  exact each.getBy? Scalar.keyForm key

/-- A path of keys leads to places that hold what it leads to in the tree. -/
theorem Holds.at? {item : Item} {setting : Setting} (holds : parts.Holds item setting)
    (path : List String) : Option.Rel parts.Holds (parts.at? path item) (setting.at? path) := by
  induction path generalizing item setting with
  | nil => exact .some holds
  | cons key path ih =>
      cases holds with
      | scalar => exact .none
      | @mapping number entries settings found keys each =>
          have values := (Holds.mapping found keys each).value? (.text key)
          rw [Scalar.getBy?_text] at values
          rw [Parts.at?, Setting.at?]
          generalize parts.value? number (.text key) = value at values ⊢
          generalize Ordered.get? (.text key) settings = other at values ⊢
          cases values with
          | none => exact .none
          | some below => exact ih below
      | sequence found | pair found | members found =>
          rw [Parts.at?, Setting.at?, Parts.value?, entries?, found]
          · exact .none
          · simp

end Parts

/-- The setting that a reference to a setting stands for.  Mappings and sequences
have none. -/
def Setting.referred? : Setting → Option Setting
  | .mapping _ => none
  | .sequence _ => none
  | setting => some setting

/-- The setting that a name stands for in a configuration. -/
def Setting.named? (config : Setting) (name : String) : Option Setting :=
  (lookup? config name).bind Setting.referred?

theorem Setting.display_named? (config : Setting) (name : String) :
    (config.named? name).map Setting.display = Config.referenceText? config name := by
  rw [named?, Config.referenceText?]
  cases lookup? config name with
  | none => rfl
  | some setting => cases setting <;> rfl

namespace Parts

variable {parts : Parts}

theorem Holds.referred? {item : Item} {setting : Setting} (holds : parts.Holds item setting) :
    parts.referred? item = setting.referred? := by
  cases holds with
  | scalar => rfl
  | sequence found | mapping found | members found =>
      simp only [Parts.referred?, found, Setting.referred?]
  | pair found first_holds second_holds =>
      have all := Holds.pair found first_holds second_holds
      simp only [Parts.referred?, found, Setting.referred?]
      rw [all.unfold (all.height_le.trans (Nat.le_succ _))]

/-- A name stands for what it stands for in the tree that the root holds. -/
theorem Holds.named? {root : Item} {config : Setting} (holds : parts.Holds root config)
    (name : String) : parts.named? root name = config.named? name := by
  have places := holds.at? (dottedPath name)
  rw [Parts.named?, Setting.named?, lookup?]
  generalize parts.at? (dottedPath name) root = item at places ⊢
  generalize config.at? (dottedPath name) = setting at places ⊢
  cases places with
  | none => rfl
  | some below => exact below.referred?

end Parts

/-- A document holds a tree. -/
def Document.Holds (document : Document) (setting : Setting) : Prop :=
  document.parts.Holds document.root setting

theorem Document.Holds.unfold {document : Document} {setting : Setting}
    (holds : document.Holds setting) : document.unfold = setting :=
  Parts.Holds.unfold holds (holds.height_le.trans (Nat.le_succ _))

end JavaUml.Config
