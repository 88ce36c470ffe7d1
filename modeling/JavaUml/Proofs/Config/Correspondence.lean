import JavaUml.Config.Placeholder
import Mathlib.Data.List.Forall2
import Mathlib.Data.Option.Defs

/-!
# Settings of one shape

Two settings correspond when they differ in their texts only, and the texts that
stand in the same place are related.  A round of substitution keeps the shape of
a configuration; what it does to the texts is settled by what one substitution
does to one text, however much of the configuration has been replaced already.
-/

namespace JavaUml.Config

/-- Whether a setting stays as it is in every round: it is neither a text nor
made of settings that are replaced. -/
def Setting.isFixed : Setting → Bool
  | .scalar (.text _) => false
  | .scalar _ => true
  | .sequence _ => false
  | .mapping _ => false
  | .pair _ _ => true
  | .set _ => true

/-- Induction on a setting, with the hypothesis for everything that it is made of. -/
theorem Setting.induction {motive : Setting → Prop}
    (scalar : ∀ value, motive (.scalar value))
    (sequence : ∀ items, (∀ item ∈ items, motive item) → motive (.sequence items))
    (mapping : ∀ entries, (∀ entry ∈ entries, motive entry.2) → motive (.mapping entries))
    (pair : ∀ first second, motive first → motive second → motive (.pair first second))
    (set : ∀ members, motive (.set members)) :
    ∀ setting, motive setting
  | .scalar value => scalar value
  | .sequence items =>
      sequence items fun item _ => induction scalar sequence mapping pair set item
  | .mapping entries =>
      mapping entries fun entry _ => induction scalar sequence mapping pair set entry.2
  | .pair first second =>
      pair first second (induction scalar sequence mapping pair set first)
        (induction scalar sequence mapping pair set second)
  | .set members => set members
termination_by setting => sizeOf setting
decreasing_by
  · rename_i mem
    have smaller := List.sizeOf_lt_of_mem mem
    simp only [Setting.sequence.sizeOf_spec]
    omega
  · rename_i mem
    have smaller := List.sizeOf_lt_of_mem mem
    obtain ⟨key, value⟩ := entry
    simp only [Setting.mapping.sizeOf_spec, Prod.mk.sizeOf_spec] at *
    omega
  · simp only [Setting.pair.sizeOf_spec]
    omega
  · simp only [Setting.pair.sizeOf_spec]
    omega

/-- Induction on what a round may replace in a setting. -/
theorem Setting.tree_induction {motive : Setting → Prop}
    (text : ∀ value, motive (.scalar (.text value)))
    (fixed : ∀ setting, setting.isFixed → motive setting)
    (sequence : ∀ items, (∀ item ∈ items, motive item) → motive (.sequence items))
    (mapping : ∀ entries, (∀ entry ∈ entries, motive entry.2) → motive (.mapping entries))
    (setting : Setting) : motive setting := by
  induction setting using Setting.induction with
  | scalar value =>
      cases value with
      | text value => exact text value
      | _ => exact fixed _ rfl
  | sequence items ih => exact sequence items ih
  | mapping entries ih => exact mapping entries ih
  | pair first second => exact fixed _ rfl
  | set members => exact fixed _ rfl

/-- A text stands somewhere in a setting, below mappings and sequences. -/
inductive Setting.HasLeaf : Setting → String → Prop
  | text (value : String) : HasLeaf (.scalar (.text value)) value
  | item {items : List Setting} {item : Setting} {leaf : String} (mem : item ∈ items)
      (below : HasLeaf item leaf) : HasLeaf (.sequence items) leaf
  | entry {entries : Entries} {entry : Scalar × Setting} {leaf : String} (mem : entry ∈ entries)
      (below : HasLeaf entry.2 leaf) : HasLeaf (.mapping entries) leaf

/-- Settings of the same shape whose texts are related place by place. -/
inductive Corresponds (related : String → String → Prop) : Setting → Setting → Prop
  | text {value other : String} (texts : related value other) :
      Corresponds related (.scalar (.text value)) (.scalar (.text other))
  | fixed {setting : Setting} (isFixed : setting.isFixed) : Corresponds related setting setting
  | sequence {items others : List Setting}
      (each : List.Forall₂ (Corresponds related) items others) :
      Corresponds related (.sequence items) (.sequence others)
  | mapping {entries others : Entries} (keys : entries.map Prod.fst = others.map Prod.fst)
      (each : List.Forall₂ (Corresponds related) (entries.map Prod.snd) (others.map Prod.snd)) :
      Corresponds related (.mapping entries) (.mapping others)

/-- Entries with the same keys in the same order, and related values. -/
abbrev EntriesRel {α β : Type} (related : α → β → Prop) (entries : List (Scalar × α))
    (others : List (Scalar × β)) : Prop :=
  List.Forall₂ (fun entry other => entry.1 = other.1 ∧ related entry.2 other.2) entries others

theorem entriesRel_iff {α β : Type} {related : α → β → Prop} {entries : List (Scalar × α)}
    {others : List (Scalar × β)} :
    EntriesRel related entries others ↔
      entries.map Prod.fst = others.map Prod.fst ∧
        List.Forall₂ related (entries.map Prod.snd) (others.map Prod.snd) := by
  induction entries generalizing others with
  | nil => cases others <;> simp
  | cons entry rest ih =>
      cases others with
      | nil => simp
      | cons other others =>
          simp only [List.forall₂_cons, ih, List.map_cons, List.cons.injEq]
          tauto

section Shape

variable {related : String → String → Prop}

theorem corresponds_text_iff {value : String} {current : Setting} :
    Corresponds related (.scalar (.text value)) current ↔
      ∃ other, current = .scalar (.text other) ∧ related value other := by
  constructor
  · intro here
    cases here with
    | text texts => exact ⟨_, rfl, texts⟩
    | fixed isFixed => simp [Setting.isFixed] at isFixed
  · rintro ⟨other, rfl, texts⟩
    exact .text texts

theorem corresponds_fixed_iff {setting current : Setting} (isFixed : setting.isFixed) :
    Corresponds related setting current ↔ current = setting := by
  constructor
  · intro here
    cases here with
    | fixed => rfl
    | _ => simp [Setting.isFixed] at isFixed
  · rintro rfl
    exact .fixed isFixed

theorem corresponds_sequence_iff {items : List Setting} {current : Setting} :
    Corresponds related (.sequence items) current ↔
      ∃ others, current = .sequence others ∧ List.Forall₂ (Corresponds related) items others := by
  constructor
  · intro here
    cases here with
    | fixed isFixed => simp [Setting.isFixed] at isFixed
    | sequence each => exact ⟨_, rfl, each⟩
  · rintro ⟨others, rfl, each⟩
    exact .sequence each

theorem corresponds_mapping_iff {entries : Entries} {current : Setting} :
    Corresponds related (.mapping entries) current ↔
      ∃ others, current = .mapping others ∧ EntriesRel (Corresponds related) entries others := by
  constructor
  · intro here
    cases here with
    | fixed isFixed => simp [Setting.isFixed] at isFixed
    | mapping keys each => exact ⟨_, rfl, entriesRel_iff.2 ⟨keys, each⟩⟩
  · rintro ⟨others, rfl, each⟩
    exact .mapping (entriesRel_iff.1 each).1 (entriesRel_iff.1 each).2

/-- A relation between the texts may be replaced by one that holds as well for
the texts of the first setting. -/
theorem Corresponds.mono {other : String → String → Prop} {setting current : Setting}
    (here : Corresponds related setting current)
    (weaken : ∀ leaf, setting.HasLeaf leaf → ∀ text, related leaf text → other leaf text) :
    Corresponds other setting current := by
  induction setting using Setting.tree_induction generalizing current with
  | text value =>
      obtain ⟨text, rfl, texts⟩ := corresponds_text_iff.1 here
      exact .text (weaken value (.text value) text texts)
  | fixed setting isFixed =>
      rw [corresponds_fixed_iff isFixed] at here ⊢
      exact here
  | sequence items ih =>
      obtain ⟨others, rfl, each⟩ := corresponds_sequence_iff.1 here
      have both := (List.forall₂_and_left _ _).2 ⟨fun item mem => mem, each⟩
      exact .sequence (both.imp fun item current pair =>
        ih item pair.1 pair.2 fun leaf below => weaken leaf (.item pair.1 below))
  | mapping entries ih =>
      obtain ⟨others, rfl, each⟩ := corresponds_mapping_iff.1 here
      have both := (List.forall₂_and_left _ _).2 ⟨fun entry mem => mem, each⟩
      exact corresponds_mapping_iff.2 ⟨others, rfl, both.imp fun entry current pair =>
        ⟨pair.2.1, ih entry pair.1 pair.2.2 fun leaf below => weaken leaf (.entry pair.1 below)⟩⟩

/-- A setting corresponds to itself when each of its texts is related to itself. -/
theorem Corresponds.refl {setting : Setting}
    (same : ∀ leaf, setting.HasLeaf leaf → related leaf leaf) :
    Corresponds related setting setting := by
  induction setting using Setting.tree_induction with
  | text value => exact .text (same value (.text value))
  | fixed setting isFixed => exact .fixed isFixed
  | sequence items ih =>
      exact .sequence (List.forall₂_same.2 fun item mem =>
        ih item mem fun leaf below => same leaf (.item mem below))
  | mapping entries ih =>
      exact corresponds_mapping_iff.2 ⟨entries, rfl, List.forall₂_same.2 fun entry mem =>
        ⟨rfl, ih entry mem fun leaf below => same leaf (.entry mem below)⟩⟩

/-- There is one setting of a shape if there is one related text for each text. -/
theorem Corresponds.unique {setting current other : Setting}
    (here : Corresponds related setting current) (there : Corresponds related setting other)
    (one : ∀ leaf, setting.HasLeaf leaf → ∀ text another,
      related leaf text → related leaf another → text = another) : current = other := by
  induction setting using Setting.tree_induction generalizing current other with
  | text value =>
      obtain ⟨text, rfl, texts⟩ := corresponds_text_iff.1 here
      obtain ⟨another, rfl, others⟩ := corresponds_text_iff.1 there
      rw [one value (.text value) text another texts others]
  | fixed setting isFixed =>
      rw [corresponds_fixed_iff isFixed] at here there
      rw [here, there]
  | sequence items ih =>
      obtain ⟨currents, rfl, each⟩ := corresponds_sequence_iff.1 here
      obtain ⟨others, rfl, eachOther⟩ := corresponds_sequence_iff.1 there
      have members := fun item (mem : item ∈ items) => mem
      have functional : Relator.RightUnique fun item current =>
          item ∈ items ∧ Corresponds related item current := by
        intro item current other first second
        exact ih item first.1 first.2 second.2 fun leaf below => one leaf (.item first.1 below)
      rw [List.right_unique_forall₂' functional ((List.forall₂_and_left _ _).2 ⟨members, each⟩)
        ((List.forall₂_and_left _ _).2 ⟨members, eachOther⟩)]
  | mapping entries ih =>
      obtain ⟨currents, rfl, each⟩ := corresponds_mapping_iff.1 here
      obtain ⟨others, rfl, eachOther⟩ := corresponds_mapping_iff.1 there
      have members := fun entry (mem : entry ∈ entries) => mem
      have functional : Relator.RightUnique fun (entry current : Scalar × Setting) =>
          entry ∈ entries ∧ entry.1 = current.1 ∧ Corresponds related entry.2 current.2 := by
        intro entry current other first second
        have values := ih entry first.1 first.2.2 second.2.2
          fun leaf below => one leaf (.entry first.1 below)
        exact Prod.ext (first.2.1.symm.trans second.2.1) values
      rw [List.right_unique_forall₂' functional ((List.forall₂_and_left _ _).2 ⟨members, each⟩)
        ((List.forall₂_and_left _ _).2 ⟨members, eachOther⟩)]

/-! ## Looking up -/

/-- A key has related values, whatever form keys are told apart by. -/
theorem EntriesRel.getBy? {φ α β : Type} [DecidableEq φ] (form : Scalar → φ)
    {values : α → β → Prop} {entries : List (Scalar × α)} {others : List (Scalar × β)}
    (each : EntriesRel values entries others) (key : Scalar) :
    Option.Rel values (Ordered.getBy? form key entries) (Ordered.getBy? form key others) := by
  induction each with
  | nil => exact .none
  | @cons entry other rest others pair each ih =>
      obtain ⟨known, value⟩ := entry
      obtain ⟨same, replaced⟩ := other
      obtain ⟨rfl, related⟩ := pair
      by_cases hit : form known = form key
      · simpa [Ordered.getBy?, hit] using Option.Rel.some related
      · simpa [Ordered.getBy?, hit] using ih

/-- A related value for one key leaves entries related. -/
theorem EntriesRel.putBy {φ α β : Type} [DecidableEq φ] {form : Scalar → φ}
    {values : α → β → Prop} {entries : List (Scalar × α)} {others : List (Scalar × β)}
    (each : EntriesRel values entries others) {key : Scalar} {value : α} {other : β}
    (found : Ordered.getBy? form key entries = some value) (related : values value other) :
    EntriesRel values entries (Ordered.putBy form key other others) := by
  induction each with
  | nil => simp [Ordered.getBy?] at found
  | @cons entry first rest others pair each ih =>
      obtain ⟨known, old⟩ := entry
      obtain ⟨same, replaced⟩ := first
      obtain ⟨rfl, pair_related⟩ := pair
      by_cases hit : form known = form key
      · rw [Ordered.getBy?, if_pos hit, Option.some.injEq] at found
        rw [Ordered.putBy, if_pos hit]
        exact .cons ⟨rfl, found ▸ related⟩ each
      · rw [Ordered.getBy?, if_neg hit] at found
        rw [Ordered.putBy, if_neg hit]
        exact .cons ⟨rfl, pair_related⟩ (ih found)

/-- A value is set between the same entries in related ones, in the place of the
value that the key may have. -/
theorem EntriesRel.exists_putBy {φ α β : Type} [DecidableEq φ] (form : Scalar → φ)
    {values : α → β → Prop} {entries : List (Scalar × α)} {others : List (Scalar × β)}
    (each : EntriesRel values entries others) (key : Scalar) :
    ∃ front known back frontOthers backOthers,
      EntriesRel values front frontOthers ∧ EntriesRel values back backOthers ∧
      entries = front ++ ((Ordered.getBy? form key entries).map (Prod.mk known)).toList ++ back ∧
      (∀ value, Ordered.putBy form key value entries = front ++ (known, value) :: back) ∧
      ∀ value, Ordered.putBy form key value others =
        frontOthers ++ (known, value) :: backOthers := by
  induction each with
  | nil => exact ⟨[], key, [], [], [], .nil, .nil, rfl, fun _ => rfl, fun _ => rfl⟩
  | @cons entry other rest others pair each ih =>
      obtain ⟨known, value⟩ := entry
      obtain ⟨same, replaced⟩ := other
      obtain ⟨rfl, related⟩ := pair
      by_cases hit : form known = form key
      · refine ⟨[], known, rest, [], others, .nil, each, ?_⟩
        simp [Ordered.getBy?, Ordered.putBy, hit]
      · obtain ⟨front, name, back, frontOthers, backOthers, fronts, backs, split, put, put_other⟩ :=
          ih
        refine ⟨(known, value) :: front, name, back, (known, replaced) :: frontOthers, backOthers,
          .cons ⟨rfl, related⟩ fronts, backs, ?_⟩
        simpa [Ordered.getBy?, Ordered.putBy, hit, put, put_other] using split

theorem EntriesRel.get? {α β : Type} {values : α → β → Prop} {entries : List (Scalar × α)}
    {others : List (Scalar × β)} (each : EntriesRel values entries others) (key : Scalar) :
    Option.Rel values (Ordered.get? key entries) (Ordered.get? key others) :=
  each.getBy? id key

/-- A path of keys leads to corresponding places. -/
theorem Corresponds.at? {setting current : Setting} (here : Corresponds related setting current)
    (path : List String) :
    Option.Rel (Corresponds related) (setting.at? path) (current.at? path) := by
  induction path generalizing setting current with
  | nil => exact .some here
  | cons key path ih =>
      cases here with
      | @mapping entries others keys each =>
          have found := EntriesRel.get? (entriesRel_iff.2 ⟨keys, each⟩) (.text key)
          rw [Setting.at?, Setting.at?]
          generalize Ordered.get? (.text key) entries = value at found ⊢
          generalize Ordered.get? (.text key) others = other at found ⊢
          cases found with
          | none => exact .none
          | some below => exact ih below
      | text => exact .none
      | sequence => exact .none
      | fixed isFixed =>
          cases setting with
          | mapping => simp [Setting.isFixed] at isFixed
          | _ => exact .none

end Shape

/-! ## One round -/

theorem expand_of_isFixed (inPlace : Setting → Setting) {setting : Setting}
    (isFixed : setting.isFixed) : expand inPlace setting = (setting, false) := by
  cases setting with
  | scalar value =>
      cases value with
      | text => simp [Setting.isFixed] at isFixed
      | _ => rfl
  | sequence => simp [Setting.isFixed] at isFixed
  | mapping => simp [Setting.isFixed] at isFixed
  | pair => rfl
  | set => rfl

section Round

/-- A round turns texts that are `before` related to those of the configuration
into texts that are `after` related to them, if one substitution does, whatever
corresponding configuration it looks into. -/
structure Advances (config : Setting) (before after : String → String → Prop) : Prop where
  weaken : ∀ leaf text, after leaf text → before leaf text
  substitute : ∀ whole, Corresponds before config whole → ∀ leaf text, before leaf text →
    after leaf (String.ofList (substitute (referenceText? whole) text.toList))

variable {config : Setting} {before after : String → String → Prop}

/-- What a round makes of one part, in a configuration that may already be partly
replaced. -/
def PartAdvances (config : Setting) (before after : String → String → Prop) (part : Setting) :
    Prop :=
  ∀ inPlace current,
    (∀ setting, Corresponds before part setting → Corresponds before config (inPlace setting)) →
      Corresponds before part current → Corresponds after part (expand inPlace current).1

theorem expandItems_advances {items : List Setting} {whole : Setting}
    (each : ∀ item ∈ items, PartAdvances config before after item)
    (here : Corresponds before config whole) {current : List Setting}
    (items_here : List.Forall₂ (Corresponds before) items current) :
    List.Forall₂ (Corresponds after) items (expandItems whole current).1 := by
  induction items_here with
  | nil => exact .nil
  | cons item_here _ ih =>
      refine .cons ?_ (ih fun item mem => each item (List.mem_cons_of_mem _ mem))
      exact each _ List.mem_cons_self _ _ (fun _ _ => here) item_here

theorem expandEntries_advances (advances : Advances config before after)
    {inPlace : Setting → Setting} {entries current : Entries}
    (each : ∀ entry ∈ entries, PartAdvances config before after entry.2)
    (entries_here : EntriesRel (Corresponds before) entries current) (earlier done : Entries)
    (whole : ∀ all, EntriesRel (Corresponds before) (earlier ++ entries) all →
      Corresponds before config (inPlace (.mapping all)))
    (done_here : EntriesRel (Corresponds after) earlier done) :
    EntriesRel (Corresponds after) (earlier ++ entries) (expandEntries inPlace done current).1 := by
  induction entries_here generalizing earlier done with
  | nil => simpa [expandEntries] using done_here
  | @cons entry other rest others pair rest_here ih =>
      obtain ⟨key, value⟩ := other
      obtain ⟨key_eq, value_here⟩ : entry.1 = key ∧ Corresponds before entry.2 value := pair
      have done_before : EntriesRel (Corresponds before) earlier done :=
        done_here.imp fun _ _ pair => ⟨pair.1, pair.2.mono fun leaf _ => advances.weaken leaf⟩
      -- The entry sees the earlier ones as replaced, and those behind it as they were.
      have replaced := each entry List.mem_cons_self
        (fun setting => inPlace (.mapping (done ++ (key, setting) :: others))) value
        (fun setting setting_here => whole _
          (List.rel_append done_before (.cons ⟨key_eq, setting_here⟩ rest_here))) value_here
      have done_next : EntriesRel (Corresponds after) (earlier ++ [entry]) (done ++ [(key, _)]) :=
        List.rel_append done_here (.cons ⟨key_eq, replaced⟩ .nil)
      have all := ih (fun entry mem => each entry (List.mem_cons_of_mem _ mem)) _ _
        (fun all all_here => whole all (by simpa using all_here)) done_next
      simpa [expandEntries] using all

theorem expand_advances (advances : Advances config before after) (part : Setting) :
    PartAdvances config before after part := by
  induction part using Setting.tree_induction with
  | text value =>
      intro inPlace current whole here
      obtain ⟨other, rfl, texts⟩ := corresponds_text_iff.1 here
      exact .text (advances.substitute _ (whole _ here) value other texts)
  | fixed part isFixed =>
      intro inPlace current _ here
      obtain rfl := (corresponds_fixed_iff isFixed).1 here
      rw [expand_of_isFixed inPlace isFixed]
      exact .fixed isFixed
  | sequence items ih =>
      intro inPlace current whole here
      obtain ⟨others, rfl, items_here⟩ := corresponds_sequence_iff.1 here
      exact .sequence (expandItems_advances ih (whole _ here) items_here)
  | mapping entries ih =>
      intro inPlace current whole here
      obtain ⟨others, rfl, entries_here⟩ := corresponds_mapping_iff.1 here
      refine corresponds_mapping_iff.2 ⟨_, rfl, ?_⟩
      exact expandEntries_advances advances ih entries_here [] []
        (fun all all_here => whole _ (corresponds_mapping_iff.2 ⟨all, rfl, all_here⟩)) .nil

theorem round_advances (advances : Advances config before after) {current : Setting}
    (here : Corresponds before config current) : Corresponds after config (round current).1 :=
  expand_advances advances config id current (fun _ setting_here => setting_here) here

end Round

/-! ## Rounds that change nothing -/

theorem prefix_expandEntries (inPlace : Setting → Setting) (done entries : Entries) :
    done <+: (expandEntries inPlace done entries).1 := by
  induction entries generalizing done with
  | nil => exact List.prefix_rfl
  | cons entry rest ih => exact (List.prefix_append done _).trans (ih _)

/-- A part reports no change exactly when it stays as it is. -/
def ReportsChange (part : Setting) : Prop :=
  ∀ inPlace, (expand inPlace part).2 = false ↔ (expand inPlace part).1 = part

theorem expandItems_unchanged_iff {items : List Setting} (each : ∀ item ∈ items, ReportsChange item)
    (whole : Setting) :
    (expandItems whole items).2 = false ↔ (expandItems whole items).1 = items := by
  induction items with
  | nil => simp [expandItems]
  | cons item rest ih =>
      have first := each item List.mem_cons_self fun _ => whole
      have others := ih fun item mem => each item (List.mem_cons_of_mem _ mem)
      simp only [expandItems, Bool.or_eq_false_iff, List.cons.injEq, first, others]

theorem expandEntries_unchanged_iff {entries : Entries}
    (each : ∀ entry ∈ entries, ReportsChange entry.2) (inPlace : Setting → Setting)
    (done : Entries) :
    (expandEntries inPlace done entries).2 = false ↔
      (expandEntries inPlace done entries).1 = done ++ entries := by
  induction entries generalizing done with
  | nil => simp [expandEntries]
  | cons entry rest ih =>
      obtain ⟨key, value⟩ := entry
      have first := each (key, value) List.mem_cons_self
        fun setting => inPlace (.mapping (done ++ (key, setting) :: rest))
      have others := ih fun entry mem => each entry (List.mem_cons_of_mem _ mem)
      simp only [expandEntries, Bool.or_eq_false_iff, others]
      generalize expand (fun setting => inPlace (.mapping (done ++ (key, setting) :: rest))) value =
        replaced at first ⊢
      constructor
      · rintro ⟨unchanged, same⟩
        rw [same, first.1 unchanged, List.append_assoc, List.singleton_append]
      · intro same
        have keeps := prefix_expandEntries inPlace (done ++ [(key, replaced.1)]) rest
        rw [same, List.prefix_append_right_inj, List.cons_prefix_cons] at keeps
        have value_eq : replaced.1 = value := congrArg Prod.snd keeps.1
        refine ⟨first.2 value_eq, ?_⟩
        rw [same, value_eq, List.append_assoc, List.singleton_append]

/-- A round reports no change exactly when it leaves everything as it is. -/
theorem expand_unchanged_iff (part : Setting) : ReportsChange part := by
  induction part using Setting.tree_induction with
  | text value =>
      intro inPlace
      rw [expand]
      generalize String.ofList (substitute _ _) = replaced
      simp [Setting.text]
  | fixed part isFixed =>
      intro inPlace
      simp [expand_of_isFixed inPlace isFixed]
  | sequence items ih =>
      intro inPlace
      simpa [expand] using expandItems_unchanged_iff ih (inPlace (.sequence items))
  | mapping entries ih =>
      intro inPlace
      simpa [expand] using expandEntries_unchanged_iff ih inPlace []

end JavaUml.Config
