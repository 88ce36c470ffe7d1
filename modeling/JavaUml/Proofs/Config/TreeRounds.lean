import JavaUml.Proofs.Config.Ownership
import JavaUml.Proofs.Config.Settling

/-!
# Rounds on parts that stand in one place

A round on a tree says for each text which configuration it looks into.  A round
on parts looks into them as they are by then.  Where the root owns its tree, both
find the same: an entry sees those before it as replaced, and references do not
lead into the sequences whose items are being replaced.
-/

namespace JavaUml.Config

/-! ## Keys of distinct forms -/

/-- No two keys of a mapping have one form, in all that a round meets. -/
inductive Setting.IsKeyed : Setting → Prop
  | scalar (value : Scalar) : IsKeyed (.scalar value)
  | sequence {items : List Setting} (each : ∀ item ∈ items, IsKeyed item) :
      IsKeyed (.sequence items)
  | mapping {entries : Entries} (distinct : (Ordered.forms Scalar.keyForm entries).Nodup)
      (each : ∀ entry ∈ entries, IsKeyed entry.2) : IsKeyed (.mapping entries)
  | pair (first second : Setting) : IsKeyed (.pair first second)
  | set (members : List Scalar) : IsKeyed (.set members)

/-- Settings of one shape have the same keys. -/
theorem Resembles.isKeyed {related : String → String → Prop} {setting current : Setting}
    (resembles : Resembles related setting current) (keyed : setting.IsKeyed) :
    current.IsKeyed := by
  induction setting using Setting.induction generalizing current with
  | scalar value => cases resembles <;> exact .scalar _
  | sequence items ih =>
      cases resembles with
      | sequence each =>
      cases keyed with
      | sequence keyed =>
      refine .sequence fun other mem => ?_
      obtain ⟨item, item_mem, here⟩ := exists_mem_of_forall₂ each mem
      exact ih item item_mem here (keyed item item_mem)
  | mapping entries ih =>
      cases resembles with
      | mapping keys each =>
      cases keyed with
      | mapping distinct keyed =>
      refine .mapping ?_ fun other mem => ?_
      · rwa [Ordered.forms_eq, ← keys, ← Ordered.forms_eq]
      · obtain ⟨entry, entry_mem, here⟩ := exists_mem_of_forall₂ (entriesRel_iff.2 ⟨keys, each⟩) mem
        exact ih entry entry_mem here.2 (keyed entry entry_mem)
  | pair =>
      cases resembles
      exact .pair _ _
  | set =>
      cases resembles
      exact .set _

namespace Parts

variable {parts : Parts} {depth : Nat} {root : Item}

/-! ## What references find -/

/-- References that lead through a place find what they find in a setting. -/
def Shows (parts : Parts) (item : Item) (setting : Setting) : Prop :=
  ∀ path, (parts.at? path item).bind parts.referred? = (setting.at? path).bind Setting.referred?

theorem Holds.shows {item : Item} {setting : Setting} (holds : parts.Holds item setting) :
    parts.Shows item setting := by
  intro path
  have places := holds.at? path
  generalize parts.at? path item = place at places ⊢
  generalize setting.at? path = value at places ⊢
  cases places with
  | none => rfl
  | some below => exact below.referred?

theorem shows_mapping {number : Nat} {entries : List (Scalar × Item)} {settings : Entries}
    (found : parts[number]? = some (.mapping entries))
    (each : EntriesRel parts.Shows entries settings) :
    parts.Shows (.part number) (.mapping settings) := by
  intro path
  cases path with
  | nil => simp [Parts.at?, Setting.at?, Parts.referred?, found, Setting.referred?]
  | cons key path =>
      have values := EntriesRel.get? each (.text key)
      simp only [Parts.at?, Setting.at?, Parts.value?, entries?, found, Option.bind_some,
        Scalar.getBy?_text]
      generalize Ordered.get? (.text key) entries = item at values ⊢
      generalize Ordered.get? (.text key) settings = setting at values ⊢
      cases values with
      | none => rfl
      | some shows => exact shows path

/-- References do not lead into a sequence. -/
theorem shows_sequence {number : Nat} {items : List Item} (settings : List Setting)
    (found : parts[number]? = some (.sequence items)) :
    parts.Shows (.part number) (.sequence settings) := by
  intro path
  cases path with
  | nil => simp [Parts.at?, Setting.at?, Parts.referred?, found, Setting.referred?]
  | cons key path => simp [Parts.at?, Setting.at?, Parts.value?, entries?, found]

/-- Whatever is done in a region, names stand for what they stand for in a
configuration. -/
def Sees (parts : Parts) (root : Item) (region : List Nat) (config : Setting) : Prop :=
  ∀ later, Spares region parts later → ∀ name, later.named? root name = config.named? name

/-- Whatever is done in a region, names stand for what they stand for in the
configuration with what a place then shows. -/
def SeesIn (parts : Parts) (root item : Item) (region : List Nat) (inPlace : Setting → Setting) :
    Prop :=
  ∀ later setting, Spares region parts later → later.Shows item setting →
    ∀ name, later.named? root name = (inPlace setting).named? name

theorem Sees.after {later : Parts} {region other : List Nat} {config : Setting}
    (sees : parts.Sees root region config) (spares : Spares region parts later)
    (within : ∀ number ∈ other, number ∈ region ∨ parts.size ≤ number) :
    later.Sees root other config :=
  fun last changes => sees last (spares.trans changes within)

theorem SeesIn.after {later : Parts} {item : Item} {region other : List Nat}
    {inPlace : Setting → Setting} (sees : parts.SeesIn root item region inPlace)
    (spares : Spares region parts later)
    (within : ∀ number ∈ other, number ∈ region ∨ parts.size ≤ number) :
    later.SeesIn root item other inPlace :=
  fun last setting changes => sees last setting (spares.trans changes within)

theorem Sees.seesIn {item : Item} {region part : List Nat} {config : Setting}
    (sees : parts.Sees root region config) (subset : part ⊆ region) :
    parts.SeesIn root item part fun _ => config :=
  fun later _ spares _ => sees later (spares.mono subset)

/-- While the items of a sequence are replaced, names stand for what they stood
for. -/
theorem SeesIn.sequence {number : Nat} {items : List Item} {inPlace : Setting → Setting}
    (sees : parts.SeesIn root (.part number) (parts.reach (depth + 1) (.part number)) inPlace)
    (found : parts[number]? = some (.sequence items))
    (unshared : (parts.reach (depth + 1) (.part number)).Nodup) (settings : List Setting) :
    parts.Sees root (items.flatMap (parts.reach depth)) (inPlace (.sequence settings)) := by
  rw [reach_part found] at sees unshared
  intro later spares
  have kept : later[number]? = some (.sequence items) := by
    rw [spares.same number (Array.getElem?_eq_some_iff.1 found).1 (List.nodup_cons.1 unshared).1,
      found]
  exact sees later _ (spares.mono (List.subset_cons_self _ _)) (shows_sequence settings kept)

/-- While the value of a key is replaced, names stand for what they stand for with
the value in its place. -/
theorem SeesIn.value {number : Nat} {done rest : Entries} {key : Scalar} {old : Setting}
    {item : Item} {inPlace : Setting → Setting}
    (sees : parts.SeesIn root (.part number) (parts.reach (depth + 1) (.part number)) inPlace)
    (owns : parts.Owns (depth + 1) (.part number) (.mapping (done ++ (key, old) :: rest)))
    (distinct : (Ordered.forms Scalar.keyForm (done ++ (key, old) :: rest)).Nodup)
    (value : parts.value? number key = some item) :
    parts.SeesIn root item (parts.reach depth item)
      fun setting => inPlace (.mapping (done ++ (key, setting) :: rest)) := by
  obtain ⟨entries, found, each, _⟩ := owns_mapping_iff.1 owns
  obtain ⟨front, name, back, frontSettings, backSettings, fronts, backs, split, _, put⟩ :=
    EntriesRel.exists_putBy Scalar.keyForm each key
  have value_eq : Ordered.getBy? Scalar.keyForm key entries = some item := by
    rw [← value, value?, entries?, found, Option.bind_some]
  rw [value_eq] at split
  simp only [Option.map_some, Option.toList_some, List.append_assoc, List.singleton_append] at split
  have reached : parts.reach (depth + 1) (.part number) =
      number :: ((front.flatMap fun entry => parts.reach depth entry.2) ++
        (parts.reach depth item ++ back.flatMap fun entry => parts.reach depth entry.2)) := by
    rw [reach_part found, Content.items, List.flatMap_map, split, List.flatMap_append,
      List.flatMap_cons]
  have bound : ∀ other ∈ parts.reach (depth + 1) (.part number), other < parts.size :=
    fun other => owns.lt_of_mem_reach
  have unshared := owns.unshared
  rw [reached, List.nodup_cons, List.nodup_append', List.nodup_append', List.mem_append,
    List.mem_append, not_or, not_or, List.disjoint_append_right] at unshared
  obtain ⟨⟨_, number_item, _⟩, _, ⟨_, _, item_back⟩, front_item, _⟩ := unshared
  rw [reached] at sees bound
  simp only [List.forall_mem_cons, List.forall_mem_append] at bound
  intro later setting spares shows
  obtain ⟨fronts_kept, _⟩ := entries_transport fronts fun other mem =>
    spares.same other (bound.2.1 other mem) (front_item mem)
  obtain ⟨backs_kept, _⟩ := entries_transport backs fun other mem =>
    spares.same other (bound.2.2.2 other mem) fun inside => item_back inside mem
  have kept : later[number]? = some (.mapping entries) := by
    rw [spares.same number bound.1 number_item, found]
  have shown : EntriesRel later.Shows entries (done ++ (key, setting) :: rest) := by
    rw [← Ordered.putBy_middle distinct setting, put, split]
    have own_shows (entry : Scalar × Item) (setting : Scalar × Setting)
        (pair : entry.1 = setting.1 ∧ later.Owns depth entry.2 setting.2) :
        entry.1 = setting.1 ∧ later.Shows entry.2 setting.2 := ⟨pair.1, pair.2.holds.shows⟩
    exact List.rel_append (fronts_kept.imp own_shows)
      (.cons ⟨rfl, shows⟩ (backs_kept.imp own_shows))
  refine sees later _ (spares.mono ?_) (shows_mapping kept shown)
  intro other mem
  exact List.mem_cons_of_mem _ (List.mem_append_right _ (List.mem_append_left _ mem))

/-! ## One round -/

/-- If work succeeds, then what it gives has a property. -/
def Ensures {α : Type} (work : Working α) (parts : Parts) (property : α → Parts → Prop) : Prop :=
  ∀ result after, work.run parts = .ok (result, after) → property result after

theorem Ensures.pure {α : Type} {result : α} {property : α → Parts → Prop}
    (holds : property result parts) : Ensures (pure result) parts property := by
  rintro _ _ ⟨⟩
  exact holds

theorem Ensures.bind {α β : Type} {work : Working α} {next : α → Working β}
    {middle : α → Parts → Prop} {property : β → Parts → Prop} (first : Ensures work parts middle)
    (second : ∀ result after, middle result after → Ensures (next result) after property) :
    Ensures (work >>= next) parts property := by
  intro last final ran
  rw [StateT.run_bind] at ran
  cases ran_first : work.run parts with
  | error fault =>
      rw [ran_first] at ran
      cases ran
  | ok done =>
      rw [ran_first] at ran
      exact second done.1 done.2 (first done.1 done.2 ran_first) last final ran

theorem Ensures.of_run_eq {α : Type} {work other : Working α} {property : α → Parts → Prop}
    (same : work.run parts = other.run parts) (ensures : Ensures other parts property) :
    Ensures work parts property := by
  rw [Ensures, same]
  exact ensures

theorem Ensures.modify {update : Parts → Parts} {property : Unit → Parts → Prop}
    (holds : property () (update parts)) : Ensures (modify update) parts property := by
  rintro _ _ ⟨⟩
  exact holds

theorem replace_ensures (root : Item) (text : String) :
    Ensures (replace root text) parts fun result after =>
      result = String.ofList (substitute
        (fun name => (parts.named? root name).map Setting.display) text.toList) ∧
          after = parts := by
  intro result after ran
  by_cases refers : refersTo (fun name => (parts.named? root name).any (!·.isWritable)) text.toList
  · rw [replace_run_of_refersTo refers] at ran
    cases ran
  · simp [replace, refers] at ran
    cases ran
    exact ⟨rfl, rfl⟩

/-- A round does to owned trees of at most the given height what it does to
trees. -/
def Agrees (root : Item) (depth : Nat) (expand : Item → Working (Item × Bool)) : Prop :=
  ∀ {parts item setting inPlace}, parts.Owns depth item setting → setting.IsKeyed →
    parts.SeesIn root item (parts.reach depth item) inPlace →
      Ensures (expand item) parts fun result after =>
        Renews depth (parts.reach depth item) parts [(Config.expand inPlace setting).1]
          [result.1] after ∧ result.2 = (Config.expand inPlace setting).2

theorem expandKeys_agrees {expand : Item → Working (Item × Bool)} (each : Agrees root depth expand)
    {number : Nat} (done : Entries) {rest : Entries} {inPlace : Setting → Setting}
    (owns : parts.Owns (depth + 1) (.part number) (.mapping (done ++ rest)))
    (distinct : (Ordered.forms Scalar.keyForm (done ++ rest)).Nodup)
    (keyed : ∀ entry ∈ rest, entry.2.IsKeyed)
    (sees : parts.SeesIn root (.part number) (parts.reach (depth + 1) (.part number)) inPlace) :
    Ensures (expandKeys expand number (rest.map Prod.fst)) parts fun changed after =>
      Renews (depth + 1) (parts.reach (depth + 1) (.part number)) parts
        [.mapping (expandEntries inPlace done rest).1] [.part number] after ∧
          changed = (expandEntries inPlace done rest).2 := by
  induction rest generalizing parts done with
  | nil =>
      rw [List.append_nil] at owns
      exact .pure ⟨.refl owns, rfl⟩
  | cons entry rest ih =>
      obtain ⟨key, old⟩ := entry
      rw [List.forall_mem_cons] at keyed
      have values := owns.value? key
      have known : (key, old) ∈ done ++ (key, old) :: rest := by simp
      rw [Ordered.getBy?_of_mem distinct known] at values
      generalize value : parts.value? number key = place at values
      cases values with
      | @some item _ old_owns =>
      refine .of_run_eq (run_expandKeys_cons value _)
        (.bind (each old_owns keyed.1 (sees.value owns distinct value)) ?_)
      rintro ⟨replaced, changed⟩ middle ⟨renews, change⟩
      have inside : parts.reach depth item ⊆ parts.reach (depth + 1) (.part number) :=
        fun other mem => (owns.of_mem_below ((below_eq value).symm ▸ mem)).1
      have written := (renews.write owns key fun other mem _ => (below_eq value).symm ▸ mem).mono
        (List.append_subset.2 ⟨fun _ mem => mem, inside⟩)
      rw [Ordered.putBy_middle distinct] at written
      rw [expandEntries]
      generalize Config.expand
        (fun setting => inPlace (.mapping (done ++ (key, setting) :: rest))) old = new
        at written change ⊢
      have sets : Ensures (modify (Parts.write number key replaced)) middle fun _ after =>
          after = middle.write number key replaced := .modify rfl
      refine .bind sets ?_
      rintro _ _ rfl
      rw [List.append_cons] at written
      refine .bind (ih _ written.single_owns ?_ keyed.2
        (sees.after written.spares written.single_within)) ?_
      · simpa [Ordered.forms] using distinct
      · rintro more after ⟨renews_more, rfl⟩
        refine .pure ⟨renews_more.after written.spares written.single_within, ?_⟩
        exact congrArg (· || _) change

theorem expandItems_agrees {expand : Item → Working (Item × Bool)} (each : Agrees root depth expand)
    {items : List Item} {settings : List Setting} {config : Setting}
    (owns : List.Forall₂ (parts.Owns depth) items settings)
    (unshared : (items.flatMap (parts.reach depth)).Nodup)
    (keyed : ∀ setting ∈ settings, setting.IsKeyed)
    (sees : parts.Sees root (items.flatMap (parts.reach depth)) config) :
    Ensures (expandItems expand items) parts fun result after =>
      Renews depth (items.flatMap (parts.reach depth)) parts (Config.expandItems config settings).1
        result.1 after ∧ result.2 = (Config.expandItems config settings).2 := by
  induction items generalizing parts settings with
  | nil =>
      cases owns
      exact .pure ⟨.nil _ _, rfl⟩
  | cons item items ih =>
      cases owns with
      | @cons _ setting _ settings item_owns owns =>
      rw [List.forall_mem_cons] at keyed
      rw [List.flatMap_cons, List.nodup_append'] at unshared
      rw [List.flatMap_cons] at sees ⊢
      have bound : ∀ number ∈ items.flatMap (parts.reach depth), number < parts.size :=
        fun number => lt_of_mem_items owns
      refine .bind (each item_owns keyed.1 (sees.seesIn (List.subset_append_left _ _))) ?_
      rintro ⟨replaced, changed⟩ middle ⟨renews, change⟩
      -- The items behind are as they were.
      obtain ⟨owns_after, reach_after⟩ := items_transport owns fun number mem =>
        renews.spares.same number (bound number mem) fun inside => unshared.2.2 inside mem
      have sees_after : middle.Sees root (items.flatMap (middle.reach depth)) config := by
        rw [reach_after]
        exact sees.after (renews.spares.mono (List.subset_append_left _ _)) fun number mem =>
          .inl (List.mem_append_right _ mem)
      refine .bind (ih owns_after (reach_after ▸ unshared.2.1) keyed.2 sees_after) ?_
      rintro ⟨others, more⟩ after ⟨renews_more, more_change⟩
      rw [reach_after] at renews_more
      refine .pure ⟨renews.cons renews_more unshared.2.2 bound, ?_⟩
      rw [Config.expandItems]
      exact congrArg₂ or change more_change

theorem expand_scalar_agrees (depth : Nat) {value : Scalar} {inPlace : Setting → Setting}
    (sees : parts.SeesIn root (.scalar value) [] inPlace) :
    Ensures (expand root depth (.scalar value)) parts fun result after =>
      Renews depth [] parts [(Config.expand inPlace (.scalar value)).1] [result.1] after ∧
        result.2 = (Config.expand inPlace (.scalar value)).2 := by
  cases value with
  | text value =>
      have texts : (fun name => (parts.named? root name).map Setting.display) =
          referenceText? (inPlace (.text value)) := by
        funext name
        rw [sees parts (.text value) (.refl _ _) (Holds.scalar _).shows, Setting.display_named?]
      rw [expand, Config.expand]
      refine .bind (replace_ensures root value) ?_
      rintro _ _ ⟨rfl, rfl⟩
      rw [texts]
      exact .pure ⟨adds_scalar _ _ _, rfl⟩
  | _ =>
      rw [expand]
      · exact .pure ⟨adds_scalar _ _ _, rfl⟩
      · simp

/-- A round on any place that owns its tree. -/
theorem expand_agrees (root : Item) (depth : Nat) : Agrees root depth (expand root depth) := by
  induction depth with
  | zero =>
      intro parts item setting inPlace owns keyed sees
      cases item with
      | scalar value =>
          cases owns.holds
          exact expand_scalar_agrees 0 sees
      | part number =>
          have low := owns.low
          cases owns.holds <;> simp [Setting.height] at low
  | succ depth ih =>
      intro parts item setting inPlace owns keyed sees
      cases setting with
      | scalar value =>
          obtain rfl := holds_scalar_iff.1 owns.holds
          exact expand_scalar_agrees (depth + 1) sees
      | sequence settings =>
          obtain ⟨number, _, rfl, _, _⟩ := holds_sequence_iff.1 owns.holds
          obtain ⟨items, found, each, unshared⟩ := owns_sequence_iff.1 owns
          cases keyed with
          | sequence keyed =>
          refine .of_run_eq (run_expand_sequence found) (.bind (expandItems_agrees ih each
            unshared.of_cons keyed (sees.sequence found owns.unshared settings)) ?_)
          rintro ⟨others, changed⟩ middle ⟨renews, change⟩
          rintro _ _ ⟨⟩
          rw [Config.expand, reach_part found]
          refine ⟨(renews.push (.sequence others) ?_ ?_).mono (List.subset_cons_self _ _), change⟩
          · exact .sequence Array.getElem?_push_size (renews.holds_push _)
          · rw [Setting.height_sequence_le_iff]
            intro setting mem
            obtain ⟨_, _, owns⟩ := exists_mem_of_forall₂ renews.owns mem
            exact owns.low
      | mapping settings =>
          obtain ⟨number, _, rfl, _, _⟩ := holds_mapping_iff.1 owns.holds
          obtain ⟨entries, found, each, unshared⟩ := owns_mapping_iff.1 owns
          cases keyed with
          | mapping distinct keyed =>
          refine .of_run_eq (run_expand_mapping found) ?_
          rw [(entriesRel_iff.1 each).1]
          refine .bind (expandKeys_agrees ih [] owns distinct keyed sees) ?_
          rintro changed after ⟨renews, rfl⟩
          exact .pure ⟨renews, rfl⟩
      | pair first second =>
          obtain ⟨number, _, _, rfl, _, _, _⟩ := holds_pair_iff.1 owns.holds
          exact .of_run_eq (run_expand_fixed owns.holds rfl) (.pure ⟨.refl owns, rfl⟩)
      | set members =>
          obtain ⟨number, rfl, _⟩ := holds_set_iff.1 owns.holds
          exact .of_run_eq (run_expand_fixed owns.holds rfl) (.pure ⟨.refl owns, rfl⟩)

end Parts

/-! ## All rounds -/

namespace Document

theorem round_eq {document : Document} {config : Setting} (owns : document.Owns config)
    (keyed : config.IsKeyed) (writable : NamesWritable config) :
    ∃ result, document.round = .ok (result, (Config.round config).2) ∧
      result.Owns (Config.round config).1 ∧ (Config.round config).1.IsKeyed ∧
        NamesWritable (Config.round config).1 := by
  have low := (Parts.Holds.height_le owns.holds).trans (Nat.le_succ _)
  have sees : document.parts.SeesIn document.root document.root
      (document.parts.reach document.depth document.root) id := fun later setting _ shows name =>
    shows (dottedPath name)
  rcases Parts.expand_expands document.root document.depth owns.holds low owns.holds with
    ⟨fails, _⟩ | ⟨⟨root, changed⟩, parts, ran, evolves, replaces, _⟩
  · exact absurd writable fails.1
  obtain ⟨renews, rfl⟩ := Parts.expand_agrees document.root document.depth owns keyed sees _ _ ran
  -- What the root then holds resembles what it held.
  obtain ⟨current, held, like⟩ := evolves.holds (Became.refl _) owns.holds replaces
  obtain rfl := held.unique renews.single_owns.holds
  refine ⟨⟨parts, root⟩, ?_, renews.single_owns.at_size, like.isKeyed keyed,
    writable.of_resembles like⟩
  rw [round, ran]
  rfl

theorem rounds_eq (left : Nat) {document : Document} {config : Setting}
    (owns : document.Owns config) (keyed : config.IsKeyed) (writable : NamesWritable config) :
    ∃ result, document.rounds left = .ok (result, (Config.rounds left config).2) ∧
      result.Owns (Config.rounds left config).1 := by
  induction left generalizing document config with
  | zero => exact ⟨document, rfl, owns⟩
  | succ left ih =>
      obtain ⟨middle, ran, middle_owns, middle_keyed, middle_writable⟩ :=
        round_eq owns keyed writable
      rw [rounds, Config.rounds, ran]
      generalize Config.round config = replaced at *
      obtain ⟨next, changed⟩ := replaced
      cases changed with
      | false => exact ⟨middle, rfl, middle_owns⟩
      | true => exact ih middle_owns middle_keyed middle_writable

/-- Resolving a document that owns its tree resolves the tree. -/
theorem resolve_eq {document : Document} {config : Setting} (owns : document.Owns config)
    (keyed : config.IsKeyed) (writable : NamesWritable config) :
    ∃ result, document.resolve = .ok (result, (Config.resolve config).2) ∧
      result.Owns (Config.resolve config).1 := by
  obtain ⟨result, ran, result_owns⟩ := rounds_eq greatestRounds owns keyed writable
  refine ⟨result, ?_, result_owns⟩
  rw [resolve, Config.resolve, ran]
  rfl

end Document

end JavaUml.Config
