import JavaUml.Proofs.Extract.UnitCommit
import JavaUml.Proofs.Lists
import JavaUml.Proofs.Model.NameScan
import Mathlib.Data.List.Nodup

/-!
# Supertypes are dependencies

The name of a declaration is a word, and so is the last name of every type that
it extends or implements.  Extraction lists each of these among the dependencies
before it looks at the members, and members never take anything back.  So every
record that a run gathers has a simple name, and its supertypes are simple names
among its dependencies.
-/

namespace JavaUml.Model

theorem TypeRecord.mem_dependencies_addDependency (record : TypeRecord) (name other : String) :
    other ∈ (record.addDependency name).dependencies ↔
      other ∈ record.dependencies ∨ other = name := by
  unfold addDependency
  split
  · rename_i known
    rw [List.contains_iff_mem] at known
    constructor
    · exact .inl
    · rintro (earlier | rfl)
      · exact earlier
      · exact known
  · simp

theorem TypeMap.get?_of_mem {types : TypeMap} {record : TypeRecord}
    (member : record ∈ types.records) : types.get? record.fullName = some record := by
  apply find?_eq_some_of_unique member
  · exact beq_self_eq_true _
  · intro other other_member same
    exact List.inj_on_of_nodup_map types.distinct other_member member (beq_iff_eq.1 same)

end JavaUml.Model

namespace JavaUml.Extract

open JavaUml.Java JavaUml.Model

/-! ## What members leave alone -/

/-- A record that has gained nothing but members and dependencies. -/
structure Keeps (before after : TypeRecord) : Prop where
  name_eq : after.name = before.name
  package_eq : after.package = before.package
  superclass_eq : after.superclass = before.superclass
  interfaces_eq : after.interfaces = before.interfaces
  dependencies_subset : before.dependencies ⊆ after.dependencies

namespace Keeps

theorem supertypes_eq {before after : TypeRecord} (kept : Keeps before after) :
    after.supertypes = before.supertypes := by
  rw [TypeRecord.supertypes, TypeRecord.supertypes, TypeRecord.superclass?, TypeRecord.superclass?,
    kept.superclass_eq, kept.interfaces_eq]

theorem refl (record : TypeRecord) : Keeps record record :=
  ⟨rfl, rfl, rfl, rfl, List.Subset.refl _⟩

theorem trans {before middle after : TypeRecord} (first : Keeps before middle)
    (second : Keeps middle after) : Keeps before after where
  name_eq := second.name_eq.trans first.name_eq
  package_eq := second.package_eq.trans first.package_eq
  superclass_eq := second.superclass_eq.trans first.superclass_eq
  interfaces_eq := second.interfaces_eq.trans first.interfaces_eq
  dependencies_subset := List.Subset.trans first.dependencies_subset second.dependencies_subset

theorem foldl {α : Type} {add : TypeRecord → α → TypeRecord}
    (step : ∀ record item, Keeps record (add record item)) (items : List α)
    (record : TypeRecord) : Keeps record (items.foldl add record) := by
  induction items generalizing record with
  | nil => exact refl record
  | cons item rest ih => exact (step record item).trans (ih (add record item))

theorem withMembers {before after : TypeRecord} (kept : Keeps before after) (fields : List Field)
    (methods : List Method) : Keeps before { after with fields := fields, methods := methods } :=
  ⟨kept.name_eq, kept.package_eq, kept.superclass_eq, kept.interfaces_eq, kept.dependencies_subset⟩

end Keeps

theorem keeps_addDependency (record : TypeRecord) (name : String) :
    Keeps record (record.addDependency name) where
  name_eq := by
    unfold TypeRecord.addDependency
    split <;> rfl
  package_eq := by
    unfold TypeRecord.addDependency
    split <;> rfl
  superclass_eq := by
    unfold TypeRecord.addDependency
    split <;> rfl
  interfaces_eq := by
    unfold TypeRecord.addDependency
    split <;> rfl
  dependencies_subset _ known := (record.mem_dependencies_addDependency name _).2 (.inl known)

theorem keeps_addDependencies (rules : NameRules) (record : TypeRecord) (type : String) :
    Keeps record (addDependencies rules record type) :=
  Keeps.foldl keeps_addDependency _ record

theorem keeps_addField (rules : NameRules) (record : TypeRecord) (modifiers : List String)
    (type : TypeRef) (names : List String) :
    Keeps record (addField rules record modifiers type names) :=
  (keeps_addDependencies rules record type.text).withMembers _ _

theorem keeps_addMethod (rules : NameRules) (record : TypeRecord) (header : MethodHeader)
    (parameters : List Parameter) : Keeps record (addMethod rules record header parameters) :=
  (Keeps.foldl (keeps_addDependencies rules) _ record).withMembers _ _

theorem keeps_addConstructor (rules : NameRules) (record : TypeRecord) (header : MethodHeader)
    (parameters : List Parameter) : Keeps record (addConstructor rules record header parameters) :=
  (Keeps.foldl (keeps_addDependencies rules) _ record).withMembers _ _

theorem keeps_addMembers (rules : UnitRules) (typeVariables : List String) (record : TypeRecord)
    (members : List Node) : Keeps record (addMembers rules typeVariables record members) := by
  have field : ∀ record member, Keeps record (addIfField rules typeVariables record member) := by
    intro record member
    unfold addIfField
    split
    · exact keeps_addField ..
    · exact .refl record
  have method : ∀ record member,
      Keeps record (addIfMethod rules typeVariables record member) := by
    intro record member
    unfold addIfMethod
    split
    · split
      · exact .refl record
      · exact keeps_addMethod ..
    · exact .refl record
  have constructor : ∀ record member,
      Keeps record (addIfConstructor rules typeVariables record member) := by
    intro record member
    unfold addIfConstructor
    split
    · split
      · exact keeps_addConstructor ..
      · exact .refl record
    · exact .refl record
  exact ((Keeps.foldl field members record).trans (Keeps.foldl method members _)).trans
    (Keeps.foldl constructor members _)

theorem keeps_addIfConstant (record : TypeRecord) (constant : Node) :
    Keeps record (addIfConstant record constant) := by
  unfold addIfConstant
  split
  · exact (Keeps.refl record).withMembers _ _
  · exact .refl record

/-! ## Where supertypes come from -/

/-- A record with a simple name whose supertypes are simple names among its
dependencies. -/
structure IsRooted (record : TypeRecord) : Prop where
  isSimple_name : IsSimple record.name
  isDotted_of_mem : ∀ name ∈ record.supertypes, isDotted name = false
  supertypes_subset : record.supertypes ⊆ record.dependencies

theorem IsRooted.of_keeps {before after : TypeRecord} (rooted : IsRooted before)
    (kept : Keeps before after) : IsRooted after where
  isSimple_name := kept.name_eq ▸ rooted.isSimple_name
  isDotted_of_mem := kept.supertypes_eq ▸ rooted.isDotted_of_mem
  supertypes_subset :=
    kept.supertypes_eq ▸ List.Subset.trans rooted.supertypes_subset kept.dependencies_subset

theorem isDotted_lastName (type : TypeRef) : isDotted type.lastName = false := by
  unfold TypeRef.lastName
  split
  split
  · rename_i name _ _
    exact name.isDotted_text
  · rfl

theorem isRooted_startRecord (rules : UnitRules) (header : TypeHeader) :
    IsRooted (startRecord rules header) where
  isSimple_name := ⟨header.name.text_ne_empty, header.name.isDotted_text⟩
  isDotted_of_mem := by simp [startRecord, TypeRecord.named, TypeRecord.supertypes,
    TypeRecord.superclass?]
  supertypes_subset := by simp [startRecord, TypeRecord.named, TypeRecord.supertypes,
    TypeRecord.superclass?]

/-- A record that gains a supertype of a simple name, and the name as a dependency. -/
theorem IsRooted.addSupertype {before after : TypeRecord} {name : String}
    (rooted : IsRooted before) (undotted : isDotted name = false)
    (name_eq : after.name = before.name)
    (dependencies_eq : after.dependencies = before.dependencies)
    (supertypes : ∀ other ∈ after.supertypes, other ∈ before.supertypes ∨ other = name) :
    IsRooted (after.addDependency name) := by
  have added := keeps_addDependency after name
  constructor
  · rw [added.name_eq, name_eq]
    exact rooted.isSimple_name
  · intro other member
    rw [added.supertypes_eq] at member
    rcases supertypes other member with earlier | rfl
    · exact rooted.isDotted_of_mem other earlier
    · exact undotted
  · intro other member
    rw [added.supertypes_eq] at member
    rw [after.mem_dependencies_addDependency, dependencies_eq]
    exact (supertypes other member).imp_left fun earlier => rooted.supertypes_subset earlier

theorem IsRooted.addExtended {record : TypeRecord} (rooted : IsRooted record) (type : TypeRef) :
    IsRooted (addExtended record type) := by
  apply rooted.addSupertype (isDotted_lastName type)
  · rfl
  · rfl
  · intro other member
    -- An earlier superclass is replaced, so the only new name is this one.
    rcases List.mem_append.1 member with inherited | realized
    · obtain ⟨same, _⟩ := Option.filter_eq_some_iff.1 (Option.mem_toList.1 inherited)
      cases same
      exact .inr rfl
    · exact .inl (List.mem_append_right _ realized)

theorem IsRooted.addImplemented {record : TypeRecord} (rooted : IsRooted record)
    (type : TypeRef) : IsRooted (addImplemented record type) := by
  apply rooted.addSupertype (isDotted_lastName type)
  · unfold TypeRecord.addInterface
    split <;> rfl
  · unfold TypeRecord.addInterface
    split <;> rfl
  · intro other member
    unfold TypeRecord.addInterface at member
    split at member
    · exact .inl member
    · simp only [TypeRecord.supertypes, TypeRecord.superclass?, List.mem_append,
        List.mem_singleton] at member ⊢
      rwa [or_assoc]

/-- Behind its supertypes a record gains constants and members only. -/
theorem keeps_of_record? {rules : UnitRules} {header : TypeHeader}
    {parts constants members : List Node} {record : TypeRecord}
    (found : record? rules (.type header parts constants members) = some record) :
    Keeps (header.implemented.foldl addImplemented
      (header.extended.foldl addExtended (startRecord rules header))) record := by
  rw [record?] at found
  split at found
  · cases found
  · cases found
    exact (Keeps.foldl keeps_addIfConstant constants _).trans (keeps_addMembers rules _ _ members)

theorem isRooted_of_record? {rules : UnitRules} {node : Node} {record : TypeRecord}
    (found : record? rules node = some record) : IsRooted record := by
  cases node with
  | type header parts constants members =>
      have extended : IsRooted (header.extended.foldl addExtended (startRecord rules header)) :=
        List.foldlRecOn _ _ (isRooted_startRecord rules header) fun _ rooted type _ =>
          rooted.addExtended type
      have implemented := List.foldlRecOn header.implemented addImplemented extended
        fun _ rooted type _ => rooted.addImplemented type
      exact implemented.of_keeps (keeps_of_record? found)
  | _ => cases found

/-! ## What supertypes leave alone -/

theorem name_package_addExtended (record : TypeRecord) (type : TypeRef) :
    (addExtended record type).name = record.name ∧
      (addExtended record type).package = record.package := by
  have added := keeps_addDependency { record with superclass := some type.lastName } type.lastName
  exact ⟨added.name_eq, added.package_eq⟩

theorem name_package_addImplemented (record : TypeRecord) (type : TypeRef) :
    (addImplemented record type).name = record.name ∧
      (addImplemented record type).package = record.package := by
  have added := keeps_addDependency (record.addInterface type.lastName) type.lastName
  rw [addImplemented, added.name_eq, added.package_eq]
  unfold TypeRecord.addInterface
  split <;> exact ⟨rfl, rfl⟩

theorem name_package_foldl {add : TypeRecord → TypeRef → TypeRecord}
    (step : ∀ record type, (add record type).name = record.name ∧
      (add record type).package = record.package) (record : TypeRecord) (types : List TypeRef) :
    (types.foldl add record).name = record.name ∧
      (types.foldl add record).package = record.package := by
  induction types generalizing record with
  | nil => exact ⟨rfl, rfl⟩
  | cons type rest ih =>
      obtain ⟨name_eq, package_eq⟩ := step record type
      obtain ⟨later_name, later_package⟩ := ih (add record type)
      exact ⟨later_name.trans name_eq, later_package.trans package_eq⟩

/-- A record has the name of its declaration and the package of its unit. -/
theorem name_package_of_record? {rules : UnitRules} {header : TypeHeader}
    {parts constants members : List Node} {record : TypeRecord}
    (found : record? rules (.type header parts constants members) = some record) :
    record.name = header.name.text ∧ record.package = rules.names.package := by
  have kept := keeps_of_record? found
  have implemented := name_package_foldl name_package_addImplemented
    (header.extended.foldl addExtended (startRecord rules header)) header.implemented
  have extended := name_package_foldl name_package_addExtended (startRecord rules header)
    header.extended
  exact ⟨kept.name_eq.trans (implemented.1.trans extended.1),
    kept.package_eq.trans (implemented.2.trans extended.2)⟩

/-! ## Runs -/

/-- A record that a run has gathered is one that a unit committed. -/
theorem Analysis.mem_committed_of_mem_run {trusted : List String} {suffix : String}
    {steps : List Step} {record : TypeRecord}
    (member : record ∈ ((start trusted suffix).run steps).catalog.types.records) :
    record ∈ committed trusted false (steps.flatMap (Step.units trusted false)) := by
  have follows : Follows trusted false (start trusted suffix) := ⟨rfl, rfl⟩
  have empty : (start trusted suffix).catalog.Holds [] := Catalog.holds_empty trusted
  rw [run_spec follows] at member
  have found := TypeMap.get?_of_mem member
  rw [(holds_catalogAfter empty _).get?_eq] at found
  simpa using List.mem_of_find?_eq_some found

theorem SourceUnit.isRooted_of_mem {trusted : List String} {isOpenEnded : Bool}
    {unit : SourceUnit} {record : TypeRecord}
    (member : record ∈ (unit.verdict trusted isOpenEnded).records) : IsRooted record := by
  unfold verdict at member
  split at member
  · split at member
    · cases member
    · obtain ⟨node, _, found⟩ := List.mem_filterMap.1 member
      exact isRooted_of_record? found
  all_goals cases member

/-- Every record that a run has gathered is rooted. -/
theorem Analysis.isRooted_of_mem_run {trusted : List String} {suffix : String}
    {steps : List Step} {record : TypeRecord}
    (member : record ∈ ((start trusted suffix).run steps).catalog.types.records) :
    IsRooted record := by
  obtain ⟨unit, _, among⟩ := List.mem_flatMap.1 (mem_committed_of_mem_run member)
  exact SourceUnit.isRooted_of_mem among

end JavaUml.Extract
