import JavaUml.Config.Load
import JavaUml.Proofs.Config.TreeMerging
import JavaUml.Proofs.Config.TreeRounds
import JavaUml.Proofs.Yaml.Keys

/-!
# Documents that are trees

Where each part of a document stands in one place, merging and resolving its
parts gives what merging and resolving the tree gives.
-/

namespace JavaUml.Config

/-! ## What merging keeps -/

/-- A property of settings that for a mapping is one of its keys and that of its
values.  Setting the value of a key that may stand in such a mapping keeps it. -/
structure IsHereditary (property : Setting → Prop) (keysProperty : List Scalar → Prop) : Prop where
  mapping_iff : ∀ entries, property (.mapping entries) ↔
    keysProperty (entries.map Prod.fst) ∧ ∀ entry ∈ entries, property entry.2
  tail : ∀ key keys, keysProperty (key :: keys) → keysProperty keys
  add : ∀ (known : Entries) key keys (value : Setting), keysProperty (known.map Prod.fst) →
    keysProperty (key :: keys) →
      keysProperty ((Ordered.putBy Scalar.keyForm key value known).map Prod.fst)

namespace IsHereditary

variable {property : Setting → Prop} {keysProperty : List Scalar → Prop}

theorem putBy (hereditary : IsHereditary property keysProperty) {known : Entries}
    (has : property (.mapping known)) {key : Scalar} {keys : List Scalar}
    (new : keysProperty (key :: keys)) {value : Setting} (has_value : property value) :
    property (.mapping (Ordered.putBy Scalar.keyForm key value known)) := by
  rw [hereditary.mapping_iff] at has ⊢
  refine ⟨?_, fun entry mem => ?_⟩
  · exact hereditary.add known key keys value has.1 new
  · rcases Ordered.mem_of_mem_putBy mem with old | rfl
    · exact has.2 entry old
    · exact has_value

theorem mergeEntries_of_over (hereditary : IsHereditary property keysProperty)
    {known added : Entries} (has : property (.mapping known)) (new : property (.mapping added))
    (each : ∀ entry ∈ added, ∀ old : Option Setting, (∀ value ∈ old, property value) →
      property (entry.2.over old)) :
    property (.mapping (mergeEntries known added)) := by
  induction added generalizing known with
  | nil => exact has
  | cons entry rest ih =>
      obtain ⟨keys, values⟩ := (hereditary.mapping_iff _).1 new
      rw [List.forall_mem_cons] at each values
      have rest_has : property (.mapping rest) :=
        (hereditary.mapping_iff _).2 ⟨hereditary.tail _ _ keys, values.2⟩
      refine ih (hereditary.putBy has keys (each.1 _ fun value found => ?_)) rest_has each.2
      obtain ⟨_, _, mem⟩ := Ordered.mem_of_getBy? found
      exact ((hereditary.mapping_iff known).1 has).2 _ mem

theorem setting_over (hereditary : IsHereditary property keysProperty) {setting : Setting}
    (has : property setting) {old : Option Setting} (has_old : ∀ value ∈ old, property value) :
    property (setting.over old) := by
  induction setting using Setting.induction generalizing old with
  | scalar value =>
      cases value with
      | null =>
          cases old with
          | none => exact has
          | some value => exact has_old value rfl
      | _ => exact has
  | mapping entries ih =>
      rcases Setting.over_mapping_cases old with ⟨known, rfl⟩ | ⟨stays, _⟩
      · refine hereditary.mergeEntries_of_over (has_old _ rfl) has fun entry mem old has_old => ?_
        exact ih entry mem (((hereditary.mapping_iff entries).1 has).2 entry mem) has_old
      · rw [stays]
        exact has
  | sequence | pair | set => exact has

theorem mergeEntries (hereditary : IsHereditary property keysProperty) {known added : Entries}
    (has : property (.mapping known)) (new : property (.mapping added)) :
    property (.mapping (Config.mergeEntries known added)) :=
  hereditary.mergeEntries_of_over has new fun entry mem _ has_old =>
    hereditary.setting_over (((hereditary.mapping_iff added).1 new).2 entry mem) has_old

end IsHereditary

theorem isHereditary_isKeyed :
    IsHereditary Setting.IsKeyed fun keys => (keys.map Scalar.keyForm).Nodup where
  mapping_iff entries := by
    rw [← Ordered.forms_eq]
    constructor
    · intro keyed
      cases keyed with
      | mapping distinct each => exact ⟨distinct, each⟩
    · rintro ⟨distinct, each⟩
      exact .mapping distinct each
  tail _ _ distinct := distinct.of_cons
  add known key _ value distinct _ := by
    rw [← Ordered.forms_eq] at distinct ⊢
    exact Ordered.nodup_forms_putBy distinct key value

theorem isHereditary_isWritable :
    IsHereditary (·.isWritable) fun keys => keys.all (!·.isUnwritable) where
  mapping_iff entries := by
    rw [Setting.isWritable, Setting.haveWritable_eq_all, Bool.and_eq_true, List.all_map]
    simp
  tail _ _ writable := by
    rw [List.all_cons, Bool.and_eq_true] at writable
    exact writable.2
  add _ _ _ _ known new := by
    rw [List.all_cons, Bool.and_eq_true] at new
    rw [Ordered.map_fst_putBy]
    split
    · exact known
    · rw [List.all_append, known, List.all_cons, new.1]
      rfl

/-! ## Loading -/

theorem Setting.IsKeyed.fields {fields : List (String × Setting)}
    (distinct : (fields.map Prod.fst).Nodup) (each : ∀ field ∈ fields, field.2.IsKeyed) :
    (Setting.fields fields).IsKeyed := by
  refine .mapping ?_ fun entry mem => ?_
  · have forms : Ordered.forms Scalar.keyForm (fields.map fun field =>
        (Scalar.text field.1, field.2)) = (fields.map Prod.fst).map Scalar.text := by
      simp [Ordered.forms, Scalar.keyForm]
    rw [forms]
    exact distinct.map fun _ _ => Scalar.text.inj
  · obtain ⟨field, field_mem, rfl⟩ := List.mem_map.1 mem
    exact each field field_mem

theorem isKeyed_defaultSections : (Setting.mapping defaultSections).IsKeyed := by
  have texts (values : List String) : (Setting.sequence (values.map .text)).IsKeyed := by
    refine .sequence fun item mem => ?_
    obtain ⟨value, _, rfl⟩ := List.mem_map.1 mem
    exact .scalar _
  refine .mapping (by decide) ?_
  simp only [defaultSections, List.forall_mem_cons]
  refine ⟨.fields (by decide) ?_, .fields (by decide) ?_,
    .fields (by decide) ?_, .fields (by decide) ?_,
    .fields (by decide) ?_, by simp⟩
  all_goals simp only [List.forall_mem_cons, List.not_mem_nil, false_implies, implies_true,
    and_true]
  · exact ⟨.scalar _, .scalar _, .scalar _⟩
  · exact ⟨.scalar _, texts ["java.lang.", "java.util."], .scalar _⟩
  · exact ⟨.scalar _, .scalar _⟩
  · exact ⟨.scalar _, .scalar _, .scalar _, texts ["png", "svg"]⟩
  · exact ⟨.scalar _, .scalar _⟩

theorem Document.root_of_mapping? {document : Document} {number : Nat}
    (mapping : document.mapping? = some number) : document.root = .part number := by
  rw [mapping?] at mapping
  split at mapping
  · rename_i found
    obtain ⟨_, _, rfl⟩ := Option.map_eq_some_iff.1 mapping
    exact found
  · cases mapping

/-- A document that is a tree gives the configuration that the tree gives. -/
theorem ofDocument_eq_ofEntries {document : Document} {number : Nat} {entries overrides : Entries}
    (mapping : document.mapping? = some number) (tree : document.tree? = some (.mapping entries))
    (keyed : (Setting.mapping entries).IsKeyed)
    (keyed_overrides : (Setting.mapping overrides).IsKeyed)
    (writable : (Setting.mapping overrides).isWritable) :
    ofDocument document number overrides = .ok (ofEntries entries overrides) := by
  obtain ⟨owns, tree_writable⟩ := Document.owns_of_tree? tree
  rw [Document.Owns, Document.root_of_mapping? mapping] at owns
  have based := Document.owns_based owns defaultSections
  have complete := Document.owns_mergeEntries rfl based overrides
  have complete_keyed := isHereditary_isKeyed.mergeEntries
    (isHereditary_isKeyed.mergeEntries isKeyed_defaultSections keyed) keyed_overrides
  have defaults_writable : (Setting.mapping defaultSections).isWritable := by decide
  have complete_writable := isHereditary_isWritable.mergeEntries
    (isHereditary_isWritable.mergeEntries defaults_writable tree_writable) writable
  obtain ⟨result, resolved, result_owns⟩ := Document.resolve_eq complete complete_keyed
    (namesWritable_of_isWritable complete_writable)
  rw [ofDocument, resolved]
  exact congrArg (fun tree => Except.ok (tree, _)) (Document.Holds.unfold result_owns.holds)

theorem Parts.Holds.isKeyed {parts : Parts} (keyed : parts.AreKeyed) {item : Item}
    {setting : Setting} (holds : parts.Holds item setting) : setting.IsKeyed := by
  induction setting using Setting.induction generalizing item with
  | scalar value => exact .scalar value
  | sequence items ih =>
      obtain ⟨number, places, rfl, found, each⟩ := holds_sequence_iff.1 holds
      refine .sequence fun setting mem => ?_
      obtain ⟨_, _, below⟩ := exists_mem_of_forall₂ each mem
      exact ih setting mem below
  | mapping entries ih =>
      obtain ⟨number, places, rfl, found, each⟩ := holds_mapping_iff.1 holds
      refine .mapping ?_ fun entry mem => ?_
      · rw [Ordered.forms_eq, ← (entriesRel_iff.1 each).1, ← Ordered.forms_eq]
        exact keyed number places found
      · obtain ⟨_, _, below⟩ := exists_mem_of_forall₂ each mem
        exact ih entry mem below.2
  | pair first second => exact .pair first second
  | set members => exact .set members

theorem areKeyed_of_fileDocument {files : Files.Disk} {path : String} {document : Document}
    (read : fileDocument files path = .ok document) : document.parts.AreKeyed := by
  rw [fileDocument] at read
  cases pieces : Files.readPieces files path with
  | error problem =>
      rw [pieces] at read
      cases read
  | ok pieces_read =>
      rw [pieces] at read
      cases parsed : Yaml.parse (sourceOf pieces_read) with
      | error fault =>
          change (Yaml.parse (sourceOf pieces_read)).mapError LoadFault.malformed = _ at read
          rw [parsed] at read
          cases read
      | ok other =>
          change (Yaml.parse (sourceOf pieces_read)).mapError LoadFault.malformed = _ at read
          rw [parsed] at read
          cases read
          exact Yaml.areKeyed_of_parse parsed

/-- Whether or not the document of a file is a tree, its parts decide what is
loaded. -/
theorem load_eq_ofDocument {files : Files.Disk} {path : String} {overrides : Entries}
    {document : Document} {number : Nat} (named : path.isEmpty = false)
    (read : fileDocument files path = .ok document) (mapping : document.mapping? = some number)
    (keyed : (Setting.mapping overrides).IsKeyed)
    (writable : (Setting.mapping overrides).isWritable) :
    load files path overrides = ofDocument document number overrides := by
  rw [load, named, read]
  simp only [Bool.false_eq_true, if_false, bind, Except.bind, mapping]
  split
  · rename_i entries tree
    have entries_keyed := Parts.Holds.isKeyed (areKeyed_of_fileDocument read)
      (Document.owns_of_tree? tree).1.holds
    exact (ofDocument_eq_ofEntries mapping tree entries_keyed keyed writable).symm
  · rfl

end JavaUml.Config
