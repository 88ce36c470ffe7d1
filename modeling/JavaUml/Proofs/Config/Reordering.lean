import JavaUml.Proofs.Config.Expansion
import JavaUml.Proofs.Lists

/-!
# The order of the keys

A mapping with distinct keys means the same in every order of its entries: names
stand for the same values, so texts have the same expansions.
-/

namespace JavaUml.Config

/-- Each mapping in a setting has distinct keys. -/
inductive Setting.HasDistinctKeys : Setting → Prop
  | text (value : String) : HasDistinctKeys (.scalar (.text value))
  | fixed {setting : Setting} (isFixed : setting.isFixed) : HasDistinctKeys setting
  | sequence {items : List Setting} (each : ∀ item ∈ items, HasDistinctKeys item) :
      HasDistinctKeys (.sequence items)
  | mapping {entries : Entries} (distinct : (entries.map Prod.fst).Nodup)
      (each : ∀ entry ∈ entries, HasDistinctKeys entry.2) : HasDistinctKeys (.mapping entries)

/-- Settings that differ in the order of entries only. -/
inductive Reordered : Setting → Setting → Prop
  | text (value : String) : Reordered (.scalar (.text value)) (.scalar (.text value))
  | fixed {setting : Setting} (isFixed : setting.isFixed) : Reordered setting setting
  | sequence {items others : List Setting} (each : List.Forall₂ Reordered items others) :
      Reordered (.sequence items) (.sequence others)
  | mapping {entries middle others : Entries} (moved : entries.Perm middle)
      (keys : middle.map Prod.fst = others.map Prod.fst)
      (each : List.Forall₂ Reordered (middle.map Prod.snd) (others.map Prod.snd)) :
      Reordered (.mapping entries) (.mapping others)

theorem reordered_text_iff {value : String} {other : Setting} :
    Reordered (.scalar (.text value)) other ↔ other = .scalar (.text value) := by
  constructor
  · intro reordered
    cases reordered <;> rfl
  · rintro rfl
    exact .text value

theorem reordered_fixed_iff {setting other : Setting} (isFixed : setting.isFixed) :
    Reordered setting other ↔ other = setting := by
  constructor
  · intro reordered
    cases reordered with
    | sequence => simp [Setting.isFixed] at isFixed
    | mapping => simp [Setting.isFixed] at isFixed
    | _ => rfl
  · rintro rfl
    exact .fixed isFixed

theorem reordered_sequence_iff {items : List Setting} {other : Setting} :
    Reordered (.sequence items) other ↔
      ∃ others, other = .sequence others ∧ List.Forall₂ Reordered items others := by
  constructor
  · intro reordered
    cases reordered with
    | fixed isFixed => simp [Setting.isFixed] at isFixed
    | sequence each => exact ⟨_, rfl, each⟩
  · rintro ⟨others, rfl, each⟩
    exact .sequence each

theorem reordered_mapping_iff {entries : Entries} {other : Setting} :
    Reordered (.mapping entries) other ↔
      ∃ middle others, other = .mapping others ∧ entries.Perm middle ∧
        EntriesRel Reordered middle others := by
  constructor
  · intro reordered
    cases reordered with
    | fixed isFixed => simp [Setting.isFixed] at isFixed
    | mapping moved keys each => exact ⟨_, _, rfl, moved, entriesRel_iff.2 ⟨keys, each⟩⟩
  · rintro ⟨middle, others, rfl, moved, each⟩
    exact .mapping moved (entriesRel_iff.1 each).1 (entriesRel_iff.1 each).2

/-! ## Names and leaves -/

theorem Reordered.at? {setting other : Setting} (reordered : Reordered setting other)
    (distinct : setting.HasDistinctKeys) (path : List String) :
    Option.Rel Reordered (setting.at? path) (other.at? path) := by
  induction path generalizing setting other with
  | nil => exact .some reordered
  | cons key path ih =>
      cases reordered with
      | @mapping entries middle others moved keys each =>
          cases distinct with
          | fixed isFixed => simp [Setting.isFixed] at isFixed
          | mapping distinct below =>
              have found := EntriesRel.get? (entriesRel_iff.2 ⟨keys, each⟩) (.text key)
              rw [Ordered.get?_perm _ distinct moved] at found
              rw [Setting.at?, Setting.at?]
              generalize value_eq : Ordered.get? (.text key) entries = value at found ⊢
              generalize Ordered.get? (.text key) others = other at found ⊢
              cases found with
              | none => exact .none
              | some related => exact ih related (below _ (Ordered.mem_of_get? value_eq))
      | text => exact .none
      | sequence => exact .none
      | fixed isFixed =>
          cases setting with
          | mapping => simp [Setting.isFixed] at isFixed
          | _ => exact .none

theorem Reordered.meaning_eq {setting other : Setting} (reordered : Reordered setting other) :
    other.meaning = setting.meaning := by
  cases reordered <;> rfl

/-- Names stand for the same in every order of the keys. -/
theorem meaning_eq_of_reordered {config other : Setting} (reordered : Reordered config other)
    (distinct : config.HasDistinctKeys) : meaning other = meaning config := by
  funext name
  have found := reordered.at? distinct (dottedPath (String.ofList name))
  rw [meaning, meaning, lookup?, lookup?]
  generalize config.at? (dottedPath (String.ofList name)) = first at found ⊢
  generalize other.at? (dottedPath (String.ofList name)) = second at found ⊢
  cases found with
  | none => rfl
  | some below => exact below.meaning_eq

theorem Reordered.hasLeaf {setting other : Setting} (reordered : Reordered setting other)
    {leaf : String} (isLeaf : other.HasLeaf leaf) : setting.HasLeaf leaf := by
  induction setting using Setting.tree_induction generalizing other with
  | text value =>
      rw [reordered_text_iff.1 reordered] at isLeaf
      exact isLeaf
  | fixed setting isFixed =>
      rw [(reordered_fixed_iff isFixed).1 reordered] at isLeaf
      exact isLeaf
  | sequence items ih =>
      obtain ⟨others, rfl, each⟩ := reordered_sequence_iff.1 reordered
      cases isLeaf with
      | item mem below =>
          obtain ⟨item, item_mem, item_reordered⟩ := exists_mem_of_forall₂ each mem
          exact .item item_mem (ih item item_mem item_reordered below)
  | mapping entries ih =>
      obtain ⟨middle, others, rfl, moved, each⟩ := reordered_mapping_iff.1 reordered
      cases isLeaf with
      | entry mem below =>
          obtain ⟨entry, entry_mem, pair⟩ := exists_mem_of_forall₂ each mem
          have mem_entries := moved.mem_iff.2 entry_mem
          exact .entry mem_entries (ih entry mem_entries pair.2 below)

/-! ## Expanded settings -/

/-- If each text has one related text, then what corresponds to settings in
different orders differs in its order only. -/
theorem Reordered.of_corresponds {related : String → String → Prop} {setting other : Setting}
    (reordered : Reordered setting other) {current currentOther : Setting}
    (here : Corresponds related setting current) (there : Corresponds related other currentOther)
    (one : ∀ leaf, setting.HasLeaf leaf → ∀ text another,
      related leaf text → related leaf another → text = another) :
    Reordered current currentOther := by
  induction setting using Setting.tree_induction generalizing other current currentOther with
  | text value =>
      rw [reordered_text_iff.1 reordered] at there
      obtain ⟨text, rfl, texts⟩ := corresponds_text_iff.1 here
      obtain ⟨another, rfl, others⟩ := corresponds_text_iff.1 there
      rw [one value (.text value) text another texts others]
      exact .text another
  | fixed setting isFixed =>
      rw [(reordered_fixed_iff isFixed).1 reordered] at there
      rw [(corresponds_fixed_iff isFixed).1 here, (corresponds_fixed_iff isFixed).1 there]
      exact .fixed isFixed
  | sequence items ih =>
      obtain ⟨others, rfl, each⟩ := reordered_sequence_iff.1 reordered
      obtain ⟨currents, rfl, firsts⟩ := corresponds_sequence_iff.1 here
      obtain ⟨currentOthers, rfl, seconds⟩ := corresponds_sequence_iff.1 there
      exact .sequence (forall₂_of_forall₂ each firsts seconds
        fun item mem other current currentOther item_reordered first second =>
          ih item mem item_reordered first second fun leaf below => one leaf (.item mem below))
  | mapping entries ih =>
      obtain ⟨middle, others, rfl, moved, each⟩ := reordered_mapping_iff.1 reordered
      obtain ⟨currents, rfl, firsts⟩ := corresponds_mapping_iff.1 here
      obtain ⟨currentOthers, rfl, seconds⟩ := corresponds_mapping_iff.1 there
      obtain ⟨moved_currents, moved_firsts, moved_perm⟩ := List.perm_comp_forall₂ moved.symm firsts
      refine reordered_mapping_iff.2 ⟨moved_currents, currentOthers, rfl, moved_perm.symm, ?_⟩
      refine forall₂_of_forall₂ each moved_firsts seconds ?_
      intro entry mem other current currentOther pair first second
      have mem_entries := moved.mem_iff.2 mem
      exact ⟨first.1.symm.trans (pair.1.trans second.1),
        ih entry mem_entries pair.2 first.2 second.2 fun leaf below =>
          one leaf (.entry mem_entries below)⟩

end JavaUml.Config
