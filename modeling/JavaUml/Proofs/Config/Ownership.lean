import JavaUml.Proofs.Config.Evolution

/-!
# Parts that stand in one place

A place owns the tree that it holds if no part is reached twice on the way down.
What is done to other parts then leaves the tree alone, and what is done below
one key of a mapping leaves the values of the other keys alone.
-/

namespace JavaUml.Config

/-- The places in a content. -/
def Content.items : Content → List Item
  | .sequence items => items
  | .mapping entries => entries.map Prod.snd
  | .pair first second => [first, second]
  | .members _ => []

namespace Parts

/-- The parts that are reached from a place down to a depth, once for each way. -/
def reach (parts : Parts) : Nat → Item → List Nat
  | _, .scalar _ => []
  | 0, .part _ => []
  | depth + 1, .part number =>
      number :: ((parts[number]?.map Content.items).getD []).flatMap (parts.reach depth)

/-- A place holds a tree down to a depth, and no part is reached twice. -/
structure Owns (parts : Parts) (depth : Nat) (item : Item) (setting : Setting) : Prop where
  holds : parts.Holds item setting
  low : setting.height ≤ depth
  unshared : (parts.reach depth item).Nodup

variable {parts later : Parts} {depth : Nat}

@[simp]
theorem reach_scalar (parts : Parts) (depth : Nat) (value : Scalar) :
    parts.reach depth (.scalar value) = [] := by
  cases depth <;> rfl

theorem reach_part {number : Nat} {content : Content} (found : parts[number]? = some content) :
    parts.reach (depth + 1) (.part number) =
      number :: content.items.flatMap (parts.reach depth) := by
  simp [reach, found]

/-- Parts that agree on what is reached reach the same. -/
theorem reach_congr {item : Item}
    (same : ∀ number ∈ parts.reach depth item, later[number]? = parts[number]?) :
    later.reach depth item = parts.reach depth item := by
  induction depth generalizing item with
  | zero => cases item <;> rfl
  | succ depth ih =>
      cases item with
      | scalar value => rfl
      | part number =>
          rw [reach] at same
          rw [List.forall_mem_cons] at same
          rw [reach, reach, same.1]
          congr 1
          refine List.flatMap_congr fun item mem => ih fun below below_mem => ?_
          exact same.2 below (List.mem_flatMap.2 ⟨item, mem, below_mem⟩)

/-- Parts that agree on what is reached hold the same. -/
theorem Holds.transport {item : Item} {setting : Setting} (holds : parts.Holds item setting)
    (low : setting.height ≤ depth)
    (same : ∀ number ∈ parts.reach depth item, later[number]? = parts[number]?) :
    later.Holds item setting := by
  induction depth generalizing item setting with
  | zero =>
      cases holds with
      | scalar value => exact .scalar value
      | _ => simp [Setting.height] at low
  | succ depth ih =>
      cases holds with
      | scalar value => exact .scalar value
      | @sequence number items settings found each =>
          rw [reach_part found, List.forall_mem_cons] at same
          rw [Setting.height_sequence_le_iff] at low
          refine .sequence (same.1.trans found) ?_
          refine forall₂_imp_mem each fun item mem setting setting_mem here => ?_
          refine ih here (low setting setting_mem) fun below below_mem => ?_
          exact same.2 below (List.mem_flatMap.2 ⟨item, mem, below_mem⟩)
      | @mapping number entries settings found keys each =>
          rw [reach_part found, List.forall_mem_cons] at same
          rw [Setting.height_mapping_le_iff] at low
          refine .mapping (same.1.trans found) keys ?_
          refine forall₂_imp_mem each fun item mem setting setting_mem here => ?_
          obtain ⟨entry, entry_mem, rfl⟩ := List.mem_map.1 setting_mem
          refine ih here (low entry entry_mem) fun below below_mem => ?_
          exact same.2 below (List.mem_flatMap.2 ⟨item, mem, below_mem⟩)
      | @pair number first second one other found first_holds second_holds =>
          rw [reach_part found, List.forall_mem_cons] at same
          rw [Setting.height_pair_le_iff] at low
          refine .pair (same.1.trans found) (ih first_holds low.1 fun below mem => ?_)
            (ih second_holds low.2 fun below mem => ?_)
          · exact same.2 below (List.mem_flatMap.2 ⟨first, by simp [Content.items], mem⟩)
          · exact same.2 below (List.mem_flatMap.2 ⟨second, by simp [Content.items], mem⟩)
      | @members number keys found =>
          rw [reach_part found, List.forall_mem_cons] at same
          exact .members (same.1.trans found)

/-- The places in a part hold trees that are less high. -/
theorem Holds.of_mem_items {number : Nat} {content : Content} {setting : Setting}
    (holds : parts.Holds (.part number) setting) (found : parts[number]? = some content)
    (low : setting.height ≤ depth + 1) {item : Item} (mem : item ∈ content.items) :
    ∃ below, parts.Holds item below ∧ below.height ≤ depth := by
  cases holds with
  | sequence found_sequence each =>
      cases found.symm.trans found_sequence
      obtain ⟨setting, setting_mem, here⟩ := exists_mem_of_forall₂ each.flip mem
      exact ⟨setting, here, Setting.height_sequence_le_iff.1 low setting setting_mem⟩
  | mapping found_mapping keys each =>
      cases found.symm.trans found_mapping
      obtain ⟨setting, setting_mem, here⟩ := exists_mem_of_forall₂ each.flip mem
      obtain ⟨entry, entry_mem, rfl⟩ := List.mem_map.1 setting_mem
      exact ⟨entry.2, here, Setting.height_mapping_le_iff.1 low entry entry_mem⟩
  | pair found_pair first_holds second_holds =>
      cases found.symm.trans found_pair
      rw [Setting.height_pair_le_iff] at low
      rcases List.mem_cons.1 mem with rfl | mem
      · exact ⟨_, first_holds, low.1⟩
      · obtain rfl := List.mem_singleton.1 mem
        exact ⟨_, second_holds, low.2⟩
  | members found_members =>
      cases found.symm.trans found_members
      cases mem

theorem Holds.lt_of_mem_reach {item : Item} {setting : Setting} (holds : parts.Holds item setting)
    (low : setting.height ≤ depth) {number : Nat} (mem : number ∈ parts.reach depth item) :
    number < parts.size := by
  induction depth generalizing item setting with
  | zero => cases item <;> cases mem
  | succ depth ih =>
      cases item with
      | scalar value => cases mem
      | part here =>
          obtain ⟨content, found⟩ := holds.exists_content
          rw [reach_part found, List.mem_cons, List.mem_flatMap] at mem
          rcases mem with rfl | ⟨item, item_mem, mem⟩
          · exact (Array.getElem?_eq_some_iff.1 found).1
          · obtain ⟨below, below_holds, below_low⟩ := holds.of_mem_items found low item_mem
            exact ih below_holds below_low mem

/-- Below its height a tree reaches nothing. -/
theorem Holds.reach_eq {item : Item} {setting : Setting} (holds : parts.Holds item setting)
    {depth other : Nat} (low : setting.height ≤ depth) (low_other : setting.height ≤ other) :
    parts.reach depth item = parts.reach other item := by
  induction depth generalizing item setting other with
  | zero =>
      cases holds with
      | scalar => simp
      | _ => simp [Setting.height] at low
  | succ depth ih =>
      cases item with
      | scalar value => simp
      | part number =>
          obtain ⟨content, found⟩ := holds.exists_content
          cases other with
          | zero => cases holds <;> simp [Setting.height] at low_other
          | succ other =>
              rw [reach_part found, reach_part found]
              congr 1
              refine List.flatMap_congr fun item mem => ?_
              obtain ⟨below, below_holds, below_low⟩ := holds.of_mem_items found low mem
              obtain ⟨again, again_holds, again_low⟩ := holds.of_mem_items found low_other mem
              rw [again_holds.unique below_holds] at again_low
              exact ih below_holds below_low again_low

/-! ## Owned trees -/

theorem Owns.deepen {item : Item} {setting : Setting} (owns : parts.Owns depth item setting)
    {other : Nat} (low : setting.height ≤ other) : parts.Owns other item setting :=
  ⟨owns.holds, low, owns.holds.reach_eq owns.low low ▸ owns.unshared⟩

/-- Down to the number of parts a tree is owned as well. -/
theorem Owns.at_size {item : Item} {setting : Setting} (owns : parts.Owns depth item setting) :
    parts.Owns (parts.size + 1) item setting :=
  owns.deepen (owns.holds.height_le.trans (Nat.le_succ _))

/-- Parts that agree on what is reached own the same. -/
theorem Owns.transport {item : Item} {setting : Setting} (owns : parts.Owns depth item setting)
    (same : ∀ number ∈ parts.reach depth item, later[number]? = parts[number]?) :
    later.Owns depth item setting :=
  ⟨owns.holds.transport owns.low same, owns.low, reach_congr same ▸ owns.unshared⟩

theorem Owns.lt_of_mem_reach {item : Item} {setting : Setting}
    (owns : parts.Owns depth item setting) {number : Nat}
    (mem : number ∈ parts.reach depth item) : number < parts.size :=
  owns.holds.lt_of_mem_reach owns.low mem

theorem owns_scalar (parts : Parts) (depth : Nat) (value : Scalar) :
    parts.Owns depth (.scalar value) (.scalar value) :=
  ⟨.scalar value, by simp, by simp⟩

theorem owns_sequence_iff {number : Nat} {settings : List Setting} :
    parts.Owns (depth + 1) (.part number) (.sequence settings) ↔
      ∃ items, parts[number]? = some (.sequence items) ∧
        List.Forall₂ (parts.Owns depth) items settings ∧
          (number :: items.flatMap (parts.reach depth)).Nodup := by
  constructor
  · rintro ⟨holds, low, unshared⟩
    obtain ⟨_, items, ⟨⟩, found, each⟩ := holds_sequence_iff.1 holds
    rw [reach_part found] at unshared
    refine ⟨items, found, forall₂_imp_mem each fun item mem setting setting_mem here => ?_,
      unshared⟩
    exact ⟨here, Setting.height_sequence_le_iff.1 low setting setting_mem,
      (List.nodup_flatMap.1 unshared.of_cons).1 item mem⟩
  · rintro ⟨items, found, each, unshared⟩
    refine ⟨.sequence found (each.imp fun _ _ owns => owns.holds), ?_, ?_⟩
    · rw [Setting.height_sequence_le_iff]
      intro setting mem
      obtain ⟨item, _, owns⟩ := exists_mem_of_forall₂ each mem
      exact owns.low
    · rwa [reach_part found]

theorem owns_mapping_iff {number : Nat} {settings : Entries} :
    parts.Owns (depth + 1) (.part number) (.mapping settings) ↔
      ∃ entries, parts[number]? = some (.mapping entries) ∧
        EntriesRel (parts.Owns depth) entries settings ∧
          (number :: entries.flatMap fun entry => parts.reach depth entry.2).Nodup := by
  constructor
  · rintro ⟨holds, low, unshared⟩
    obtain ⟨_, entries, ⟨⟩, found, each⟩ := holds_mapping_iff.1 holds
    rw [reach_part found, Content.items, List.flatMap_map] at unshared
    refine ⟨entries, found, forall₂_imp_mem each fun entry mem setting setting_mem here => ?_,
      unshared⟩
    exact ⟨here.1, here.2, Setting.height_mapping_le_iff.1 low setting setting_mem,
      (List.nodup_flatMap.1 unshared.of_cons).1 entry mem⟩
  · rintro ⟨entries, found, each, unshared⟩
    refine ⟨holds_mapping_iff.2 ⟨number, entries, rfl, found,
      each.imp fun _ _ pair => ⟨pair.1, pair.2.holds⟩⟩, ?_, ?_⟩
    · rw [Setting.height_mapping_le_iff]
      intro setting mem
      obtain ⟨entry, _, pair⟩ := exists_mem_of_forall₂ each mem
      exact pair.2.low
    · rwa [reach_part found, Content.items, List.flatMap_map]

theorem lt_of_mem_items {items : List Item} {settings : List Setting}
    (each : List.Forall₂ (parts.Owns depth) items settings) {number : Nat}
    (mem : number ∈ items.flatMap (parts.reach depth)) : number < parts.size := by
  obtain ⟨item, item_mem, reached⟩ := List.mem_flatMap.1 mem
  obtain ⟨setting, _, owns⟩ := exists_mem_of_forall₂ each.flip item_mem
  exact Owns.lt_of_mem_reach owns reached

theorem items_transport {items : List Item} {settings : List Setting}
    (each : List.Forall₂ (parts.Owns depth) items settings)
    (same : ∀ number ∈ items.flatMap (parts.reach depth), later[number]? = parts[number]?) :
    List.Forall₂ (later.Owns depth) items settings ∧
      items.flatMap (later.reach depth) = items.flatMap (parts.reach depth) := by
  induction each with
  | nil => exact ⟨.nil, rfl⟩
  | @cons item setting items settings owns _ ih =>
      rw [List.flatMap_cons, List.forall_mem_append] at same
      obtain ⟨rest, rest_reach⟩ := ih same.2
      refine ⟨.cons (owns.transport same.1) rest, ?_⟩
      rw [List.flatMap_cons, List.flatMap_cons, reach_congr same.1, rest_reach]

theorem entries_transport {entries : List (Scalar × Item)} {settings : Entries}
    (each : EntriesRel (parts.Owns depth) entries settings)
    (same : ∀ number ∈ entries.flatMap (fun entry => parts.reach depth entry.2),
      later[number]? = parts[number]?) :
    EntriesRel (later.Owns depth) entries settings ∧
      entries.flatMap (fun entry => later.reach depth entry.2) =
        entries.flatMap fun entry => parts.reach depth entry.2 := by
  obtain ⟨keys, values⟩ := entriesRel_iff.1 each
  obtain ⟨kept, reach_kept⟩ := items_transport values (by rwa [List.flatMap_map])
  rw [List.flatMap_map, List.flatMap_map] at reach_kept
  exact ⟨entriesRel_iff.2 ⟨keys, kept⟩, reach_kept⟩

/-! ## Below one key -/

/-- The parts that are reached below a key of a mapping. -/
def below (parts : Parts) (depth number : Nat) (key : Scalar) : List Nat :=
  ((parts.value? number key).map (parts.reach depth)).getD []

theorem below_eq {number : Nat} {key : Scalar} {item : Item}
    (found : parts.value? number key = some item) :
    parts.below depth number key = parts.reach depth item := by
  rw [below, found]
  rfl

theorem Owns.value? {number : Nat} {settings : Entries}
    (owns : parts.Owns (depth + 1) (.part number) (.mapping settings)) (key : Scalar) :
    Option.Rel (parts.Owns depth) (parts.value? number key)
      (Ordered.getBy? Scalar.keyForm key settings) := by
  obtain ⟨entries, found, each, _⟩ := owns_mapping_iff.1 owns
  rw [Parts.value?, entries?, found]
  exact EntriesRel.getBy? Scalar.keyForm each key

/-- Below a key parts of the mapping are reached, and not the mapping itself. -/
theorem Owns.of_mem_below {number : Nat} {settings : Entries}
    (owns : parts.Owns (depth + 1) (.part number) (.mapping settings)) {key : Scalar} {other : Nat}
    (mem : other ∈ parts.below depth number key) :
    other ∈ parts.reach (depth + 1) (.part number) ∧ other ≠ number := by
  cases value : parts.value? number key with
  | none => simp [below, value] at mem
  | some item =>
      rw [below_eq value] at mem
      obtain ⟨entries, found, item_found⟩ := value?_eq_some_iff.1 value
      obtain ⟨known, _, item_mem⟩ := Ordered.mem_of_getBy? item_found
      have inside : other ∈ (Content.mapping entries).items.flatMap (parts.reach depth) :=
        List.mem_flatMap.2 ⟨item, List.mem_map_of_mem item_mem, mem⟩
      have unshared := owns.unshared
      rw [reach_part found, List.nodup_cons] at unshared
      rw [reach_part found]
      exact ⟨List.mem_cons_of_mem _ inside, fun same => unshared.1 (same ▸ inside)⟩

/-- A value that owns its tree is set in a mapping, after changes that spare the
values of the other keys. -/
theorem Owns.write {number : Nat} {settings : Entries} {item : Item} {value : Setting}
    (owns : parts.Owns (depth + 1) (.part number) (.mapping settings)) (key : Scalar)
    (spared : ∀ other ∈ parts.reach (depth + 1) (.part number),
      other ∉ parts.below depth number key → later[other]? = parts[other]?)
    (new : later.Owns depth item value)
    (apart : ∀ other ∈ later.reach depth item, other ∈ parts.reach (depth + 1) (.part number) →
      other ∈ parts.below depth number key) :
    (later.write number key item).Owns (depth + 1) (.part number)
        (.mapping (Ordered.putBy Scalar.keyForm key value settings)) ∧
      ∀ other ∈ (later.write number key item).reach (depth + 1) (.part number),
        other ∈ parts.reach (depth + 1) (.part number) ∨ other ∈ later.reach depth item := by
  obtain ⟨entries, found, each, unshared⟩ := owns_mapping_iff.1 owns
  obtain ⟨front, name, back, frontSettings, backSettings, fronts, backs, split, put,
    put_settings⟩ := EntriesRel.exists_putBy Scalar.keyForm each key
  have value_eq : parts.value? number key = Ordered.getBy? Scalar.keyForm key entries := by
    rw [Parts.value?, entries?, found, Option.bind_some]
  have reached : parts.reach (depth + 1) (.part number) =
      number :: ((front.flatMap fun entry => parts.reach depth entry.2) ++
        parts.below depth number key ++ back.flatMap fun entry => parts.reach depth entry.2) := by
    rw [reach_part found, Content.items, List.flatMap_map, split, below, value_eq]
    cases Ordered.getBy? Scalar.keyForm key entries <;> simp
  have unshared := owns.unshared
  rw [reached, List.nodup_cons, List.nodup_append', List.nodup_append', List.mem_append,
    List.mem_append, not_or, not_or] at unshared
  obtain ⟨⟨⟨number_front, number_below⟩, number_back⟩, ⟨front_nodup, _, front_below⟩, back_nodup,
    behind⟩ := unshared
  rw [List.disjoint_append_left] at behind
  simp only [reached, List.mem_cons, List.mem_append] at apart spared
  have number_new : number ∉ later.reach depth item := fun mem =>
    number_below (apart number mem (.inl rfl))
  have found_later : later[number]? = some (.mapping entries) := by
    rw [spared number (.inl rfl) number_below, found]
  have written := getElem?_write found_later key item
  rw [put] at written
  have new_same : ∀ other ∈ later.reach depth item,
      (later.write number key item)[other]? = later[other]? := by
    intro other mem
    rw [written, if_neg]
    rintro rfl
    exact number_new mem
  have kept_same (other : Nat) (elsewhere : other ≠ number)
      (same : later[other]? = parts[other]?) :
      (later.write number key item)[other]? = parts[other]? := by
    rw [written, if_neg elsewhere.symm, same]
  obtain ⟨fronts_kept, front_reach⟩ := entries_transport fronts fun other mem =>
    kept_same other (fun same => number_front (same ▸ mem))
      (spared other (.inr (.inl (.inl mem))) (front_below mem))
  obtain ⟨backs_kept, back_reach⟩ := entries_transport backs fun other mem =>
    kept_same other (fun same => number_back (same ▸ mem))
      (spared other (.inr (.inr mem)) fun away => behind.2 away mem)
  have reach_new : (front ++ (name, item) :: back).flatMap
      (fun entry => (later.write number key item).reach depth entry.2) =
        (front.flatMap fun entry => parts.reach depth entry.2) ++ (later.reach depth item ++
          back.flatMap fun entry => parts.reach depth entry.2) := by
    rw [List.flatMap_append, List.flatMap_cons, front_reach, back_reach, reach_congr new_same]
  have found_new := written number
  rw [if_pos rfl] at found_new
  constructor
  · rw [put_settings]
    refine owns_mapping_iff.2 ⟨_, found_new, List.rel_append fronts_kept
      (.cons ⟨rfl, new.transport new_same⟩ backs_kept), ?_⟩
    rw [reach_new, List.nodup_cons, List.nodup_append', List.nodup_append', List.mem_append,
      List.mem_append, not_or, not_or, List.disjoint_append_right]
    refine ⟨⟨number_front, number_new, number_back⟩, front_nodup,
      ⟨new.unshared, back_nodup, fun other mem away => ?_⟩, fun other mem away => ?_, behind.1⟩
    · exact behind.2 (apart other mem (.inr (.inr away))) away
    · exact front_below mem (apart other away (.inr (.inl (.inl mem))))
  · intro other mem
    rw [reach_part found_new, Content.items, List.flatMap_map, reach_new] at mem
    simp only [reached, List.mem_cons, List.mem_append] at mem ⊢
    tauto

/-! ## Renewed trees -/

theorem getElem?_push_of_lt {number : Nat} (bound : number < parts.size) (content : Content) :
    (parts.push content)[number]? = parts[number]? := by
  rw [Array.getElem?_push_lt bound, ← Array.getElem?_eq_getElem bound]

/-- What is reached from a new part. -/
theorem reach_push {content : Content}
    (bound : ∀ number ∈ content.items.flatMap (parts.reach depth), number < parts.size) :
    reach (parts.push content) (depth + 1) (.part parts.size) =
      parts.size :: content.items.flatMap (parts.reach depth) := by
  rw [reach_part Array.getElem?_push_size]
  congr 1
  refine List.flatMap_congr fun item mem => reach_congr fun number reached => ?_
  exact getElem?_push_of_lt (bound number (List.mem_flatMap.2 ⟨item, mem, reached⟩)) content

/-- A new part owns its tree if the places in it do, with nothing in common. -/
theorem owns_push {content : Content} {setting : Setting}
    (holds : Holds (parts.push content) (.part parts.size) setting)
    (low : setting.height ≤ depth + 1)
    (unshared : (content.items.flatMap (parts.reach depth)).Nodup)
    (bound : ∀ number ∈ content.items.flatMap (parts.reach depth), number < parts.size) :
    Owns (parts.push content) (depth + 1) (.part parts.size) setting := by
  refine ⟨holds, low, ?_⟩
  rw [reach_push bound, List.nodup_cons]
  exact ⟨fun mem => Nat.lt_irrefl _ (bound _ mem), unshared⟩

/-- At most the parts in a region have changed, and new ones have come. -/
structure Spares (region : List Nat) (before after : Parts) : Prop where
  same : ∀ number < before.size, number ∉ region → after[number]? = before[number]?
  grows : before.size ≤ after.size

theorem Spares.refl (region : List Nat) (parts : Parts) : Spares region parts parts :=
  ⟨fun _ _ _ => rfl, le_rfl⟩

theorem Spares.mono {region wider : List Nat} {before after : Parts}
    (spares : Spares region before after) (subset : region ⊆ wider) : Spares wider before after :=
  ⟨fun number less outside => spares.same number less fun mem => outside (subset mem),
    spares.grows⟩

/-- Changes in new parts do not count. -/
theorem Spares.trans {region other : List Nat} {before middle after : Parts}
    (first : Spares region before middle) (second : Spares other middle after)
    (within : ∀ number ∈ other, number ∈ region ∨ before.size ≤ number) :
    Spares region before after := by
  refine ⟨fun number less outside => ?_, first.grows.trans second.grows⟩
  rw [second.same number (less.trans_le first.grows), first.same number less outside]
  intro mem
  rcases within number mem with inside | new
  · exact outside inside
  · exact Nat.not_lt_of_le new less

/-- What is done in a region and in new parts leaves places that own trees, with
nothing in common. -/
structure Renews (depth : Nat) (region : List Nat) (before : Parts) (settings : List Setting)
    (items : List Item) (after : Parts) : Prop where
  owns : List.Forall₂ (after.Owns depth) items settings
  unshared : (items.flatMap (after.reach depth)).Nodup
  within : ∀ number ∈ items.flatMap (after.reach depth), number ∈ region ∨ before.size ≤ number
  spares : Spares region before after

/-- Trees are added as new parts. -/
abbrev AddsEach (depth : Nat) (before : Parts) (settings : List Setting) (items : List Item)
    (after : Parts) : Prop :=
  Renews depth [] before settings items after

/-- A tree is added as new parts. -/
abbrev Adds (depth : Nat) (before : Parts) (setting : Setting) (item : Item) (after : Parts) :
    Prop :=
  AddsEach depth before [setting] [item] after

theorem Renews.single {region : List Nat} {before after : Parts} {setting : Setting} {item : Item}
    (owns : after.Owns depth item setting)
    (within : ∀ number ∈ after.reach depth item, number ∈ region ∨ before.size ≤ number)
    (spares : Spares region before after) :
    Renews depth region before [setting] [item] after :=
  ⟨.cons owns .nil, by simpa using owns.unshared, by simpa using within, spares⟩

theorem Renews.single_owns {region : List Nat} {before after : Parts} {setting : Setting}
    {item : Item} (renews : Renews depth region before [setting] [item] after) :
    after.Owns depth item setting := by
  cases renews.owns with
  | cons owns => exact owns

theorem Renews.single_within {region : List Nat} {before after : Parts} {setting : Setting}
    {item : Item} (renews : Renews depth region before [setting] [item] after) :
    ∀ number ∈ after.reach depth item, number ∈ region ∨ before.size ≤ number := by
  simpa using renews.within

theorem Renews.mono {region wider : List Nat} {before after : Parts} {settings : List Setting}
    {items : List Item} (renews : Renews depth region before settings items after)
    (subset : region ⊆ wider) : Renews depth wider before settings items after :=
  ⟨renews.owns, renews.unshared, fun number mem => (renews.within number mem).imp_left fun inside =>
    subset inside, renews.spares.mono subset⟩

theorem Renews.refl {item : Item} {setting : Setting} (owns : parts.Owns depth item setting) :
    Renews depth (parts.reach depth item) parts [setting] [item] parts :=
  .single owns (fun _ mem => .inl mem) (.refl _ _)

theorem Renews.after {region other : List Nat} {before middle after : Parts}
    {settings : List Setting} {items : List Item}
    (second : Renews depth other middle settings items after) (first : Spares region before middle)
    (within : ∀ number ∈ other, number ∈ region ∨ before.size ≤ number) :
    Renews depth region before settings items after := by
  refine ⟨second.owns, second.unshared, fun number mem => ?_, first.trans second.spares within⟩
  rcases second.within number mem with inside | new
  · exact within number inside
  · exact .inr (first.grows.trans new)

/-- The value of a key is set, after changes that spare the values of the other keys. -/
theorem Renews.write {region : List Nat} {middle : Parts} {number : Nat} {settings : Entries}
    {item : Item} {value : Setting} (renews : Renews depth region parts [value] [item] middle)
    (owns : parts.Owns (depth + 1) (.part number) (.mapping settings)) (key : Scalar)
    (apart : ∀ other ∈ region, other ∈ parts.reach (depth + 1) (.part number) →
      other ∈ parts.below depth number key) :
    Renews (depth + 1) (parts.reach (depth + 1) (.part number) ++ region) parts
      [.mapping (Ordered.putBy Scalar.keyForm key value settings)] [.part number]
      (middle.write number key item) := by
  have spared : ∀ other ∈ parts.reach (depth + 1) (.part number),
      other ∉ parts.below depth number key → middle[other]? = parts[other]? := by
    intro other mem away
    exact renews.spares.same other (owns.lt_of_mem_reach mem) fun inside =>
      away (apart other inside mem)
  obtain ⟨written, within⟩ := owns.write key spared renews.single_owns fun other mem known => by
    rcases renews.single_within other mem with inside | new
    · exact apart other inside known
    · exact absurd (owns.lt_of_mem_reach known) (Nat.not_lt_of_le new)
  obtain ⟨entries, found, _, _⟩ := owns_mapping_iff.1 owns
  have self : number ∈ parts.reach (depth + 1) (.part number) := by simp [reach_part found]
  have kept := spared number self fun mem => (owns.of_mem_below mem).2 rfl
  refine .single written (fun other mem => ?_) ⟨fun other less outside => ?_, ?_⟩
  · rw [List.mem_append, or_assoc]
    exact (within other mem).imp_right (renews.single_within other)
  · rw [List.mem_append, not_or] at outside
    rw [getElem?_write (kept.trans found), if_neg, renews.spares.same other less outside.2]
    rintro rfl
    exact outside.1 self
  · exact renews.spares.grows.trans_eq (size_write _ _ _ _).symm

theorem Renews.nil (depth : Nat) (parts : Parts) : Renews depth [] parts [] [] parts :=
  ⟨.nil, .nil, by simp, .refl _ _⟩

theorem Renews.cons {region others : List Nat} {before middle after : Parts} {setting : Setting}
    {item : Item} {settings : List Setting} {items : List Item}
    (first : Renews depth region before [setting] [item] middle)
    (rest : Renews depth others middle settings items after) (apart : region.Disjoint others)
    (old : ∀ number ∈ others, number < before.size) :
    Renews depth (region ++ others) before (setting :: settings) (item :: items) after := by
  have first_owns := first.single_owns
  have same : ∀ number ∈ middle.reach depth item, after[number]? = middle[number]? := by
    intro number mem
    refine rest.spares.same number (first_owns.lt_of_mem_reach mem) fun other => ?_
    rcases first.single_within number mem with inside | new
    · exact apart inside other
    · exact Nat.not_lt_of_le new (old number other)
  have within : ∀ number ∈ items.flatMap (after.reach depth),
      number ∈ others ∨ middle.size ≤ number := rest.within
  constructor
  · exact .cons (first_owns.transport same) rest.owns
  · rw [List.flatMap_cons, List.nodup_append', reach_congr same]
    refine ⟨first_owns.unshared, rest.unshared, fun number mem behind => ?_⟩
    have bound := first_owns.lt_of_mem_reach mem
    rcases within number behind with other | newer
    · rcases first.single_within number mem with inside | new
      · exact apart inside other
      · exact Nat.not_lt_of_le new (old number other)
    · exact Nat.not_lt_of_le newer bound
  · intro number mem
    rw [List.flatMap_cons, List.mem_append, reach_congr same] at mem
    rw [List.mem_append]
    rcases mem with mem | mem
    · exact (first.single_within number mem).imp_left .inl
    · exact (within number mem).imp .inr first.spares.grows.trans
  · exact (first.spares.mono (List.subset_append_left _ _)).trans rest.spares fun number mem =>
      .inl (List.mem_append_right _ mem)

theorem addItems_adds {settings : List Setting}
    (each : ∀ setting ∈ settings, ∀ before, Adds depth before setting
      ((addSetting setting).run before).1 ((addSetting setting).run before).2) (before : Parts) :
    AddsEach depth before settings ((addItems settings).run before).1
      ((addItems settings).run before).2 := by
  induction settings generalizing before with
  | nil =>
      rw [addItems]
      exact Renews.nil depth before
  | cons setting settings ih =>
      rw [List.forall_mem_cons] at each
      rw [addItems]
      exact (each.1 before).cons (ih each.2 _) (List.disjoint_nil_left _) (by simp)

/-- The values of entries are added as items are. -/
theorem addEntries_run (entries : Entries) (parts : Parts) :
    (addEntries entries).run parts =
      ((entries.map Prod.fst).zip ((addItems (entries.map Prod.snd)).run parts).1,
        ((addItems (entries.map Prod.snd)).run parts).2) := by
  induction entries generalizing parts with
  | nil =>
      simp only [addEntries, addItems, List.map_nil]
      rfl
  | cons entry rest ih =>
      obtain ⟨key, setting⟩ := entry
      have runs : (addEntries ((key, setting) :: rest)).run parts =
          ((key, ((addSetting setting).run parts).1) ::
            ((addEntries rest).run ((addSetting setting).run parts).2).1,
          ((addEntries rest).run ((addSetting setting).run parts).2).2) := by
        rw [addEntries]
        rfl
      rw [runs, ih]
      simp only [List.map_cons, addItems]
      rfl

/-- A part is added for the places. -/
theorem Renews.push {region : List Nat} {before after : Parts} {settings : List Setting}
    (content : Content) {setting : Setting}
    (renews : Renews depth region before settings content.items after)
    (holds : Holds (after.push content) (.part after.size) setting)
    (low : setting.height ≤ depth + 1) :
    Renews (depth + 1) region before [setting] [.part after.size] (after.push content) := by
  have owns := owns_push holds low renews.unshared fun number mem => lt_of_mem_items renews.owns mem
  have reached := reach_push fun number mem => lt_of_mem_items renews.owns mem
  refine .single owns (fun number mem => ?_) ?_
  · rw [reached, List.mem_cons] at mem
    rcases mem with rfl | mem
    · exact .inr renews.spares.grows
    · exact renews.within number mem
  · refine ⟨fun number less outside => ?_, ?_⟩
    · rw [getElem?_push_of_lt (less.trans_le renews.spares.grows),
        renews.spares.same number less outside]
    · rw [Array.size_push]
      exact renews.spares.grows.trans (Nat.le_succ _)

theorem Renews.holds_push {region : List Nat} {before after : Parts} {settings : List Setting}
    {items : List Item} (renews : Renews depth region before settings items after)
    (content : Content) : List.Forall₂ (Holds (after.push content)) items settings :=
  renews.owns.imp fun _ _ owns => owns.holds.transport owns.low fun _ mem =>
    getElem?_push_of_lt (owns.lt_of_mem_reach mem) content

theorem adds_scalar (depth : Nat) (value : Scalar) (before : Parts) :
    Adds depth before (.scalar value) (.scalar value) before :=
  .single (owns_scalar _ _ _) (by simp) (.refl _ _)

/-- A setting is added as new parts. -/
theorem addSetting_adds {setting : Setting} (low : setting.height ≤ depth) (before : Parts) :
    Adds depth before setting ((addSetting setting).run before).1
      ((addSetting setting).run before).2 := by
  induction depth generalizing setting before with
  | zero =>
      cases setting with
      | scalar value =>
          rw [addSetting]
          exact adds_scalar 0 value before
      | _ => simp [Setting.height] at low
  | succ depth ih =>
      have each (settings : List Setting) (low : ∀ setting ∈ settings, setting.height ≤ depth) :=
        addItems_adds (fun setting mem => ih (low setting mem)) before
      cases setting with
      | scalar value =>
          rw [addSetting]
          exact adds_scalar (depth + 1) value before
      | sequence settings =>
          have adds := each settings (Setting.height_sequence_le_iff.1 low)
          rw [addSetting]
          exact adds.push (.sequence _) (.sequence Array.getElem?_push_size (adds.holds_push _)) low
      | mapping settings =>
          have adds := each (settings.map Prod.snd) fun value mem => by
            obtain ⟨entry, entry_mem, rfl⟩ := List.mem_map.1 mem
            exact Setting.height_mapping_le_iff.1 low entry entry_mem
          have lengths := adds.owns.length_eq
          rw [List.length_map] at lengths
          have runs : (addSetting (.mapping settings)).run before =
              (do return .part (← add (.mapping ((addEntries settings).run before).1)) :
                StateM Parts Item).run ((addEntries settings).run before).2 := by
            rw [addSetting]
            rfl
          rw [runs, addEntries_run]
          generalize (addItems (settings.map Prod.snd)).run before = added at adds lengths
          obtain ⟨items, after⟩ := added
          have values : ((settings.map Prod.fst).zip items).map Prod.snd = items := by
            simp [List.map_snd_zip, lengths]
          refine Renews.push (.mapping _) (values.symm ▸ adds) ?_ low
          refine .mapping Array.getElem?_push_size ?_ ?_
          · simp [List.map_fst_zip, lengths]
          · rw [values]
            exact adds.holds_push _
      | pair one other =>
          obtain ⟨low_one, low_other⟩ := Setting.height_pair_le_iff.1 low
          have adds := (ih low_one before).cons (ih low_other _) (List.disjoint_nil_left _)
            (by simp)
          rw [addSetting]
          refine adds.push (.pair _ _) ?_ low
          cases adds.holds_push (.pair _ _) with
          | cons first_holds rest =>
              cases rest with
              | cons second_holds => exact .pair Array.getElem?_push_size first_holds second_holds
      | set members =>
          rw [addSetting]
          exact (Renews.nil depth before).push (.members members)
            (.members Array.getElem?_push_size) low

/-- Entries are added as a mapping of new parts. -/
theorem addMapping_adds (entries : Entries) (before : Parts)
    (low : (Setting.mapping entries).height ≤ depth) :
    Adds depth before (.mapping entries) (.part ((addMapping entries).run before).1)
      ((addMapping entries).run before).2 := by
  have adds := addSetting_adds low before
  rwa [addSetting] at adds

/-! ## The tree of a document -/

/-- What is met on the way to a result: nothing that was met before, nothing
twice. -/
structure Meets (reached seen met : List Nat) : Prop where
  met_eq : met = reached.reverse ++ seen
  unshared : seen.Nodup → met.Nodup

theorem Meets.nil (seen : List Nat) : Meets [] seen seen :=
  ⟨rfl, fun nodup => nodup⟩

theorem Meets.append {first second seen middle met : List Nat} (one : Meets first seen middle)
    (other : Meets second middle met) : Meets (first ++ second) seen met := by
  refine ⟨?_, fun nodup => other.unshared (one.unshared nodup)⟩
  rw [other.met_eq, one.met_eq, List.reverse_append, List.append_assoc]

theorem Meets.cons {number : Nat} {reached seen met : List Nat} (new : number ∉ seen)
    (meets : Meets reached (number :: seen) met) : Meets (number :: reached) seen met := by
  refine ⟨?_, fun nodup => meets.unshared (List.nodup_cons.2 ⟨new, nodup⟩)⟩
  rw [meets.met_eq]
  simp

theorem mapM_meets {α β : Type} {read : α → StateT (List Nat) Option β}
    {related : α → β → Prop} {reached : α → List Nat} {items : List α}
    (each : ∀ item ∈ items, ∀ result seen met, (read item).run seen = some (result, met) →
      related item result ∧ Meets (reached item) seen met)
    {results : List β} {seen met : List Nat}
    (found : (items.mapM read).run seen = some (results, met)) :
    List.Forall₂ related items results ∧ Meets (items.flatMap reached) seen met := by
  induction items generalizing results seen with
  | nil =>
      cases found
      exact ⟨.nil, .nil _⟩
  | cons item items ih =>
      rw [List.forall_mem_cons] at each
      rw [List.mapM_cons, StateT.run_bind] at found
      obtain ⟨⟨first, middle⟩, first_found, found⟩ := Option.bind_eq_some_iff.1 found
      rw [StateT.run_bind] at found
      obtain ⟨⟨rest, last⟩, rest_found, found⟩ := Option.bind_eq_some_iff.1 found
      cases found
      obtain ⟨first_related, first_meets⟩ := each.1 _ _ _ first_found
      obtain ⟨rest_related, rest_meets⟩ := ih each.2 rest_found
      exact ⟨.cons first_related rest_related, first_meets.append rest_meets⟩

/-- A tree is found only if no part is met twice. -/
theorem tree?_meets {item : Item} {setting : Setting} {seen met : List Nat}
    (found : (parts.tree? depth item).run seen = some (setting, met)) :
    (parts.Holds item setting ∧ setting.height ≤ depth) ∧
      Meets (parts.reach depth item) seen met := by
  induction depth generalizing item setting seen met with
  | zero =>
      cases item with
      | scalar value =>
          cases found
          exact ⟨⟨.scalar value, by simp⟩, .nil _⟩
      | part number => cases found
  | succ depth ih =>
      cases item with
      | scalar value =>
          cases found
          exact ⟨⟨.scalar value, by simp⟩, .nil _⟩
      | part number =>
          have new : number ∉ seen := by
            intro mem
            simp [tree?, mem] at found
          cases held : parts[number]? with
          | none => simp [tree?, new, held] at found
          | some content =>
              rw [reach_part held]
              cases content with
              | sequence items =>
                  have runs : (parts.tree? (depth + 1) (.part number)).run seen =
                      ((items.mapM (parts.tree? depth)).run (number :: seen)).map fun result =>
                        (.sequence result.1, result.2) := by
                    simp [tree?, new, held]
                  rw [runs, Option.map_eq_some_iff] at found
                  obtain ⟨⟨settings, last⟩, each_found, same⟩ := found
                  cases same
                  obtain ⟨each, meets⟩ := mapM_meets (fun item _ _ _ _ => ih) each_found
                  refine ⟨⟨.sequence held (each.imp fun _ _ both => both.1), ?_⟩, meets.cons new⟩
                  rw [Setting.height_sequence_le_iff]
                  intro setting mem
                  obtain ⟨item, _, both⟩ := exists_mem_of_forall₂ each mem
                  exact both.2
              | mapping entries =>
                  have runs : (parts.tree? (depth + 1) (.part number)).run seen =
                      ((entries.mapM fun entry => Prod.mk entry.1 <$> parts.tree? depth entry.2).run
                        (number :: seen)).map fun result => (.mapping result.1, result.2) := by
                    simp [tree?, new, held]
                  rw [runs, Option.map_eq_some_iff] at found
                  obtain ⟨⟨settings, last⟩, each_found, same⟩ := found
                  cases same
                  have entry_meets (entry : Scalar × Item) (result : Scalar × Setting)
                      (seen met : List Nat) (found : (Prod.mk entry.1 <$>
                        parts.tree? depth entry.2).run seen = some (result, met)) :
                      (entry.1 = result.1 ∧ parts.Holds entry.2 result.2 ∧
                        result.2.height ≤ depth) ∧ Meets (parts.reach depth entry.2) seen met := by
                    rw [StateT.run_map, Option.map_eq_map, Option.map_eq_some_iff] at found
                    obtain ⟨⟨value, last⟩, value_found, same⟩ := found
                    cases same
                    exact ⟨⟨rfl, (ih value_found).1⟩, (ih value_found).2⟩
                  obtain ⟨each, meets⟩ := mapM_meets (fun entry _ => entry_meets entry) each_found
                  refine ⟨⟨holds_mapping_iff.2 ⟨number, entries, rfl, held,
                    each.imp fun _ _ both => ⟨both.1, both.2.1⟩⟩, ?_⟩, ?_⟩
                  · rw [Setting.height_mapping_le_iff]
                    intro setting mem
                    obtain ⟨entry, _, both⟩ := exists_mem_of_forall₂ each mem
                    exact both.2.2
                  · rw [Content.items, List.flatMap_map]
                    exact meets.cons new
              | pair first second =>
                  have runs : (parts.tree? (depth + 1) (.part number)).run seen =
                      ((parts.tree? depth first).run (number :: seen)).bind fun one =>
                        ((parts.tree? depth second).run one.2).map fun other =>
                          (.pair one.1 other.1, other.2) := by
                    simp [tree?, new, held]
                  rw [runs, Option.bind_eq_some_iff] at found
                  obtain ⟨⟨one, middle⟩, one_found, found⟩ := found
                  rw [Option.map_eq_some_iff] at found
                  obtain ⟨⟨other, last⟩, other_found, same⟩ := found
                  cases same
                  obtain ⟨one_holds, one_meets⟩ := ih one_found
                  obtain ⟨other_holds, other_meets⟩ := ih other_found
                  refine ⟨⟨.pair held one_holds.1 other_holds.1, ?_⟩, ?_⟩
                  · exact Setting.height_pair_le_iff.2 ⟨one_holds.2, other_holds.2⟩
                  · simpa [Content.items] using (one_meets.append other_meets).cons new
              | members keys =>
                  have runs : (parts.tree? (depth + 1) (.part number)).run seen =
                      some (.set keys, number :: seen) := by
                    simp [tree?, new, held]
                  rw [runs] at found
                  cases found
                  exact ⟨⟨.members held, by simp⟩, (Meets.nil _).cons new⟩

end Parts

/-- A document owns the tree that it holds. -/
def Document.Owns (document : Document) (setting : Setting) : Prop :=
  document.parts.Owns document.depth document.root setting

/-- A document that counts as a tree owns it. -/
theorem Document.owns_of_tree? {document : Document} {setting : Setting}
    (tree : document.tree? = some setting) :
    document.Owns setting ∧ setting.isWritable := by
  rw [tree?, Option.filter_eq_some_iff, Option.map_eq_some_iff] at tree
  obtain ⟨⟨⟨_, met⟩, found, rfl⟩, writable⟩ := tree
  obtain ⟨⟨holds, low⟩, meets⟩ := Parts.tree?_meets found
  have unshared := meets.unshared .nil
  rw [meets.met_eq, List.append_nil, List.nodup_reverse] at unshared
  exact ⟨⟨holds, low, unshared⟩, writable⟩

end JavaUml.Config
