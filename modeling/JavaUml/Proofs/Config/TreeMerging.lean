import JavaUml.Proofs.Config.Overlay
import JavaUml.Proofs.Config.Ownership

/-!
# Merging parts that stand in one place

Merging writes into the mappings of a document.  Where they own their trees and
have nothing in common with those that are written over them, it does to the
trees what merging does to trees.
-/

namespace JavaUml.Config

theorem Setting.over_of_not_both {setting old : Setting}
    (notBoth : ¬ (old.isMapping ∧ setting.isMapping)) (notNull : setting ≠ .null) :
    setting.over (some old) = setting := by
  cases setting with
  | mapping entries =>
      cases old with
      | mapping => exact absurd ⟨rfl, rfl⟩ notBoth
      | _ => rfl
  | _ => exact Setting.over_of_wins notNull rfl _

namespace Parts

variable {parts : Parts} {depth : Nat}

theorem write_of_value? {number : Nat} {key : Scalar} {item : Item}
    (found : parts.value? number key = some item) : parts.write number key item = parts := by
  obtain ⟨entries, found_entries, item_found⟩ := value?_eq_some_iff.1 found
  refine Array.ext_getElem? fun other => ?_
  rw [getElem?_write found_entries, Ordered.putBy_of_getBy? item_found]
  split
  · rename_i same
    rw [← same, found_entries]
  · rfl

/-- One mapping is merged into another one with which it has no part in common. -/
def MergesInto (depth : Nat) (merge : Nat → Nat → Parts → Parts) : Prop :=
  ∀ {parts target source known added}, parts.Owns depth (.part target) (.mapping known) →
    parts.Owns depth (.part source) (.mapping added) →
      (∀ number ∈ parts.reach depth (.part source), number ∉ parts.reach depth (.part target)) →
        Renews depth (parts.reach depth (.part target) ++ parts.reach depth (.part source)) parts
          [.mapping (mergeEntries known added)] [.part target] (merge target source parts)

theorem Holds.isSome_entries? {number : Nat} {setting : Setting}
    (holds : parts.Holds (.part number) setting) :
    (parts.entries? number).isSome = setting.isMapping := by
  cases holds with
  | sequence found | mapping found | pair found | members found =>
      rw [entries?, found]
      rfl

/-- A mapping is merged into the value of a key. -/
theorem writeOver_renews_mapping {merge : Nat → Nat → Parts → Parts}
    (each : MergesInto depth merge) {target source : Nat} {settings known added : Entries}
    {key : Scalar} {old : Item}
    (owns : parts.Owns (depth + 1) (.part target) (.mapping settings))
    (place : parts.value? target key = some old) (old_owns : parts.Owns depth old (.mapping known))
    (new : parts.Owns depth (.part source) (.mapping added))
    (apart : ∀ number ∈ parts.reach depth (.part source),
      number ∉ parts.reach (depth + 1) (.part target)) :
    Renews (depth + 1) (parts.reach (depth + 1) (.part target) ++ parts.reach depth (.part source))
      parts
      [.mapping (Ordered.putBy Scalar.keyForm key (.mapping (mergeEntries known added)) settings)]
      [.part target] (writeOver merge target parts (key, .part source)) := by
  obtain ⟨number, entries, rfl, _, _⟩ := holds_mapping_iff.1 old_owns.holds
  have inside {other : Nat} (mem : other ∈ parts.reach depth (.part number)) :=
    owns.of_mem_below ((below_eq place).symm ▸ mem)
  have merged := each old_owns new fun other mem old => apart other mem (inside old).1
  have runs : writeOver merge target parts (key, .part source) = merge number source parts := by
    simp only [writeOver, place, old_owns.holds.isSome_entries?, new.holds.isSome_entries?]
    rfl
  have written := merged.write owns key fun other mem known => by
    rcases List.mem_append.1 mem with old | incoming
    · exact (below_eq place).symm ▸ old
    · exact absurd known (apart other incoming)
  -- The value is merged where it stands, so writing it again changes nothing.
  have stays : (merge number source parts).write target key (.part number) =
      merge number source parts := by
    obtain ⟨held, found, _, _⟩ := owns_mapping_iff.1 owns
    have self : target ∈ parts.reach (depth + 1) (.part target) := by simp [reach_part found]
    have same := merged.spares.same target (owns.lt_of_mem_reach self) fun mem => by
      rcases List.mem_append.1 mem with old | incoming
      · exact (inside old).2 rfl
      · exact apart target incoming self
    refine write_of_value? ?_
    rw [value?, entries?, same, ← entries?, ← value?, place]
  rw [stays] at written
  rw [runs]
  refine written.mono (List.append_subset.2 ⟨List.subset_append_left _ _, List.append_subset.2
    ⟨fun other mem => ?_, List.subset_append_right _ _⟩⟩)
  exact List.mem_append_left _ (inside mem).1

theorem writeOver_renews {merge : Nat → Nat → Parts → Parts} (each : MergesInto depth merge)
    {target : Nat} {settings : Entries} {item : Item} {value : Setting}
    (owns : parts.Owns (depth + 1) (.part target) (.mapping settings)) (key : Scalar)
    (new : parts.Owns depth item value)
    (apart : ∀ number ∈ parts.reach depth item, number ∉ parts.reach (depth + 1) (.part target)) :
    Renews (depth + 1) (parts.reach (depth + 1) (.part target) ++ parts.reach depth item) parts
      [.mapping (Ordered.putBy Scalar.keyForm key
        (value.over (Ordered.getBy? Scalar.keyForm key settings)) settings)]
      [.part target] (writeOver merge target parts (key, item)) := by
  have written := (Renews.refl new).write owns key fun number mem known =>
    absurd known (apart number mem)
  have values := owns.value? key
  generalize place : parts.value? target key = old at values
  generalize before : Ordered.getBy? Scalar.keyForm key settings = oldSetting at values
  cases values with
  | none =>
      rw [Setting.over_none]
      simpa [writeOver, place] using written
  | @some old oldSetting old_owns =>
      cases item with
      | scalar scalar =>
          cases new.holds
          by_cases isNull : scalar = .null
          · subst isNull
            have unchanged : writeOver merge target parts (key, .scalar .null) = parts := by
              cases old <;> simp [writeOver, place]
            have kept : (Setting.scalar .null).over (some oldSetting) = oldSetting := rfl
            rw [unchanged, kept, Ordered.putBy_of_getBy? before]
            exact (Renews.refl owns).mono (List.subset_append_left _ _)
          · have writes : writeOver merge target parts (key, .scalar scalar) =
                parts.write target key (.scalar scalar) := by
              cases old <;> cases scalar <;> simp_all [writeOver]
            have wins : (Setting.scalar scalar).over (some oldSetting) = .scalar scalar :=
              Setting.over_of_wins (by simpa [Setting.null] using isNull) rfl _
            rw [writes, wins]
            exact written
      | part source =>
          by_cases both : oldSetting.isMapping ∧ value.isMapping
          · cases oldSetting <;> cases value <;> simp [Setting.isMapping] at both
            exact writeOver_renews_mapping each owns place old_owns new apart
          · have wins := Setting.over_of_not_both both (by rintro rfl; cases new.holds)
            have writes : writeOver merge target parts (key, .part source) =
                parts.write target key (.part source) := by
              cases old with
              | scalar => simp [writeOver, place]
              | part number =>
                  simp only [writeOver, place, old_owns.holds.isSome_entries?,
                    new.holds.isSome_entries?, ← Bool.and_eq_true] at both ⊢
                  rw [if_neg both]
            rw [writes, wins]
            exact written

theorem foldl_writeOver_renews {merge : Nat → Nat → Parts → Parts} (each : MergesInto depth merge)
    {target : Nat} {entries : List (Scalar × Item)} {known added : Entries}
    (owns : parts.Owns (depth + 1) (.part target) (.mapping known))
    (new : EntriesRel (parts.Owns depth) entries added)
    (unshared : (entries.flatMap fun entry => parts.reach depth entry.2).Nodup)
    (apart : ∀ number ∈ entries.flatMap fun entry => parts.reach depth entry.2,
      number ∉ parts.reach (depth + 1) (.part target)) :
    Renews (depth + 1) (parts.reach (depth + 1) (.part target) ++
        entries.flatMap fun entry => parts.reach depth entry.2)
      parts [.mapping (mergeEntries known added)] [.part target]
      (entries.foldl (writeOver merge target) parts) := by
  induction entries generalizing parts known added with
  | nil =>
      cases new
      exact (Renews.refl owns).mono (List.subset_append_left _ _)
  | cons entry entries ih =>
      cases new with
      | @cons _ addition _ added pair new =>
      obtain ⟨key, item⟩ := entry
      obtain ⟨_, value⟩ := addition
      obtain ⟨rfl, value_owns⟩ := pair
      rw [List.flatMap_cons, List.nodup_append'] at unshared
      rw [List.flatMap_cons, List.forall_mem_append] at apart
      have first := writeOver_renews each owns key value_owns apart.1
      have bound : ∀ number ∈ entries.flatMap fun entry => parts.reach depth entry.2,
          number < parts.size := by
        intro number mem
        rw [← List.flatMap_map] at mem
        exact lt_of_mem_items (entriesRel_iff.1 new).2 mem
      have outside : ∀ number ∈ entries.flatMap fun entry => parts.reach depth entry.2,
          number ∉ parts.reach (depth + 1) (.part target) ++ parts.reach depth item := by
        intro number mem known
        rcases List.mem_append.1 known with old | incoming
        · exact apart.2 number mem old
        · exact unshared.2.2 incoming mem
      -- The entries behind are not written into.
      obtain ⟨new_after, reach_after⟩ := entries_transport new fun number mem =>
        first.spares.same number (bound number mem) (outside number mem)
      have rest := ih first.single_owns new_after (reach_after ▸ unshared.2.1) fun number mem
          known => by
        rw [reach_after] at mem
        rcases first.single_within number known with old | newer
        · exact outside number mem old
        · exact Nat.not_lt_of_le newer (bound number mem)
      rw [reach_after] at rest
      rw [List.foldl_cons, mergeEntries, List.flatMap_cons, ← List.append_assoc]
      refine rest.after (first.spares.mono (List.subset_append_left _ _)) fun number mem => ?_
      rcases List.mem_append.1 mem with known | behind
      · exact (first.single_within number known).imp_left (List.mem_append_left _)
      · exact .inl (List.mem_append_right _ behind)

/-- Merging parts merges trees. -/
theorem mergeInto_renews (depth : Nat) : MergesInto depth (mergeInto depth) := by
  induction depth with
  | zero =>
      intro parts target source known added owns
      have low := owns.low
      simp [Setting.height] at low
  | succ depth ih =>
      intro parts target source known added owns new apart
      obtain ⟨entries, found, each, unshared⟩ := owns_mapping_iff.1 new
      have reached : parts.reach (depth + 1) (.part source) =
          source :: entries.flatMap fun entry => parts.reach depth entry.2 := by
        rw [reach_part found, Content.items, List.flatMap_map]
      rw [reached, List.forall_mem_cons] at apart
      have merged := foldl_writeOver_renews ih owns each unshared.of_cons apart.2
      have runs : mergeInto (depth + 1) target source parts =
          entries.foldl (writeOver (mergeInto depth) target) parts := by
        rw [mergeInto, entries?, found]
        rfl
      rw [runs, reached]
      exact merged.mono (List.append_subset.2 ⟨List.subset_append_left _ _, fun number mem =>
        List.mem_append_right _ (List.mem_cons_of_mem _ mem)⟩)

/-! ## Merging as far as it goes -/

theorem Adds.not_mem_of_lt {before after : Parts} {setting : Setting} {item : Item}
    (adds : Adds depth before setting item after) {number : Nat} (less : number < before.size) :
    number ∉ after.reach depth item := by
  intro mem
  rcases adds.single_within number mem with none | new
  · cases none
  · exact Nat.not_lt_of_le new less

theorem Adds.keeps {before after : Parts} {setting added : Setting} {item new : Item}
    (adds : Adds depth before added new after) {other : Nat}
    (owns : before.Owns other item setting) :
    after.Owns other item setting ∧ after.reach other item = before.reach other item := by
  have same : ∀ number ∈ before.reach other item, after[number]? = before[number]? :=
    fun number mem => adds.spares.same number (owns.lt_of_mem_reach mem) List.not_mem_nil
  exact ⟨owns.transport same, reach_congr same⟩

/-- As many levels as there are parts are enough to merge all. -/
theorem mergeInto_owns {target source other : Nat} {known added : Entries}
    (owns : parts.Owns depth (.part target) (.mapping known))
    (new : parts.Owns other (.part source) (.mapping added))
    (apart : ∀ number ∈ parts.reach other (.part source),
      number ∉ parts.reach depth (.part target)) :
    (parts.mergeInto (parts.size + 1) target source).Owns (parts.size + 1) (.part target)
      (.mapping (mergeEntries known added)) := by
  have merged := mergeInto_renews (parts.size + 1) owns.at_size new.at_size
    fun number mem target_mem => by
      rw [new.holds.reach_eq new.at_size.low new.low] at mem
      rw [owns.holds.reach_eq owns.at_size.low owns.low] at target_mem
      exact apart number mem target_mem
  exact merged.single_owns

end Parts

/-! ## Documents -/

/-- A mapping that owns its tree is merged into new parts. -/
theorem Document.owns_based {document : Document} {number depth : Nat} {read : Entries}
    (owns : document.parts.Owns depth (.part number) (.mapping read)) (entries : Entries) :
    (Document.based entries document number).Owns
      (.mapping (Config.mergeEntries entries read)) := by
  have adds := Parts.addMapping_adds entries document.parts le_rfl
  rw [based]
  generalize (Parts.addMapping entries).run document.parts = added at adds
  obtain ⟨target, parts⟩ := added
  have target_owns := adds.single_owns
  obtain ⟨source_owns, source_reach⟩ := Parts.Adds.keeps adds owns
  refine (Parts.mergeInto_owns target_owns source_owns fun other mem target_mem => ?_).at_size
  rw [source_reach] at mem
  exact Parts.Adds.not_mem_of_lt adds (owns.lt_of_mem_reach mem) target_mem

/-- New parts are merged into a document that owns its tree. -/
theorem Document.owns_mergeEntries {document : Document} {number : Nat} {known : Entries}
    (root : document.root = .part number) (owns : document.Owns (.mapping known))
    (entries : Entries) :
    (document.mergeEntries entries).Owns (.mapping (Config.mergeEntries known entries)) := by
  have adds := Parts.addMapping_adds entries document.parts le_rfl
  rw [Owns, root] at owns
  rw [mergeEntries, root]
  generalize (Parts.addMapping entries).run document.parts = added at adds
  obtain ⟨source, parts⟩ := added
  have source_owns := adds.single_owns
  obtain ⟨target_owns, target_reach⟩ := Parts.Adds.keeps adds owns
  have merged := Parts.mergeInto_owns target_owns source_owns fun other mem target_mem => by
    rw [target_reach] at target_mem
    exact Parts.Adds.not_mem_of_lt adds (owns.lt_of_mem_reach target_mem) mem
  exact merged.at_size

end JavaUml.Config
