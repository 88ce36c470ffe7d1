import JavaUml.Model.Component
import JavaUml.Proofs.Extract.UnitCommit
import JavaUml.Proofs.Model.NameScan
import Mathlib.Data.List.Induction
import Mathlib.Data.List.Nodup

/-!
# Components are their packages

Components are built in two passes that change them type by type.  The law has no
passes: what a component declares are the types of its package, and what it
depends on are the packages of the types that its dependencies mean.

For each pass there is a relation between a component before and after, for the
types or names that were taken in between.  It holds for one of them, and it
composes, so it holds for the whole pass.
-/

namespace JavaUml.Model

/-- A relation that holds for one step and composes holds for a run. -/
theorem foldl_composes {α β : Type} {step : β → α → β} (Rel : List α → β → β → Prop)
    (refl : ∀ state, Rel [] state state) (single : ∀ state item, Rel [item] state (step state item))
    (trans : ∀ {items others state middle last}, Rel items state middle → Rel others middle last →
      Rel (items ++ others) state last) (items : List α) (state : β) :
    Rel items state (items.foldl step state) := by
  induction items generalizing state with
  | nil => exact refl state
  | cons item rest ih => exact trans (single state item) (ih (step state item))

namespace Component

/-! ## Members -/

/-- The names of the interfaces or of the other types of a component. -/
def declared (component : Component) (isInterface : Bool) : List String :=
  if isInterface then component.interfaces else component.classes

/-- What a component gains by types that are added to it. -/
structure Gains (records : List TypeRecord) (before after : Component) : Prop where
  name_eq : after.name = before.name
  mem_declared_iff : ∀ isInterface name, name ∈ after.declared isInterface ↔
    name ∈ before.declared isInterface ∨
      ∃ record ∈ records, record.component = before.name ∧ record.isInterface = isInterface ∧
        record.name = name
  provided_eq : before.provided = before.interfaces → after.provided = after.interfaces
  dependencies_eq : after.dependencies = before.dependencies
  required_eq : after.required = before.required

theorem Gains.refl (component : Component) : Gains [] component component := by
  constructor <;> simp

theorem gains_addMember (component : Component) (record : TypeRecord) :
    Gains [record] component (component.addMember record) := by
  unfold addMember
  by_cases own : component.name = record.component
  · rw [if_neg (not_not_intro own)]
    cases kind : record.isInterface <;> constructor <;> grind [declared]
  · rw [if_pos own]
    constructor <;> grind

theorem Gains.trans {records others : List TypeRecord} {before middle after : Component}
    (first : Gains records before middle) (second : Gains others middle after) :
    Gains (records ++ others) before after where
  name_eq := second.name_eq.trans first.name_eq
  mem_declared_iff isInterface name := by
    rw [second.mem_declared_iff, first.mem_declared_iff, first.name_eq]
    simp only [List.mem_append, or_and_right, exists_or, or_assoc]
  provided_eq same := second.provided_eq (first.provided_eq same)
  dependencies_eq := second.dependencies_eq.trans first.dependencies_eq
  required_eq := second.required_eq.trans first.required_eq

/-- A component with its members, from all types of a model. -/
def ofMembers (records : List TypeRecord) (name : String) : Component :=
  records.foldl (fun component record => component.addMember record) (named name)

theorem gains_ofMembers (records : List TypeRecord) (name : String) :
    Gains records (named name) (ofMembers records name) :=
  foldl_composes Gains Gains.refl gains_addMember Gains.trans records (named name)

theorem ofMembers_concat (records : List TypeRecord) (record : TypeRecord) (name : String) :
    ofMembers (records ++ [record]) name = (ofMembers records name).addMember record := by
  simp [ofMembers]

theorem ofMembers_of_absent {records : List TypeRecord} {name : String}
    (absent : name ∉ records.map TypeRecord.component) : ofMembers records name = named name := by
  induction records with
  | nil => rfl
  | cons record rest ih =>
      simp only [List.map_cons, List.mem_cons, not_or] at absent
      have unchanged : (named name).addMember record = named name := if_pos absent.1
      rw [ofMembers, List.foldl_cons, unchanged]
      exact ih absent.2

/-! ## Dependencies -/

/-- What a component reaches by names that are followed from it. -/
structure Reaches (index : Index) (names : List String) (before after : Component) : Prop where
  name_eq : after.name = before.name
  classes_eq : after.classes = before.classes
  interfaces_eq : after.interfaces = before.interfaces
  provided_eq : after.provided = before.provided
  mem_dependencies_iff : ∀ other, other ∈ after.dependencies ↔ other ∈ before.dependencies ∨
    ∃ name ∈ names, ∃ target, index.find? name = some target ∧ target.component = other ∧
      other ≠ before.name
  mem_required_iff : ∀ name, name ∈ after.required ↔ name ∈ before.required ∨
    name ∈ names ∧ ∃ target, index.find? name = some target ∧ target.isInterface = true ∧
      target.component ≠ before.name

theorem Reaches.refl (index : Index) (component : Component) :
    Reaches index [] component component := by
  constructor <;> simp

theorem reaches_follow (index : Index) (component : Component) (name : String) :
    Reaches index [name] component (component.follow index name) := by
  unfold follow
  cases found : index.find? name with
  | none => constructor <;> grind
  | some target =>
      by_cases own : target.component = component.name
      · constructor <;> grind
      · constructor <;> grind

theorem Reaches.trans {index : Index} {names others : List String}
    {before middle after : Component} (first : Reaches index names before middle)
    (second : Reaches index others middle after) :
    Reaches index (names ++ others) before after where
  name_eq := second.name_eq.trans first.name_eq
  classes_eq := second.classes_eq.trans first.classes_eq
  interfaces_eq := second.interfaces_eq.trans first.interfaces_eq
  provided_eq := second.provided_eq.trans first.provided_eq
  mem_dependencies_iff other := by
    rw [second.mem_dependencies_iff, first.mem_dependencies_iff, first.name_eq]
    simp only [List.mem_append, or_and_right, exists_or, or_assoc]
  mem_required_iff name := by
    rw [second.mem_required_iff, first.mem_required_iff, first.name_eq]
    simp only [List.mem_append, or_and_right, or_assoc]

/-- The dependencies of the types of a component. -/
def references (records : List TypeRecord) (name : String) : List String :=
  records.flatMap fun record => if record.component = name then record.dependencies else []

theorem mem_references_iff (records : List TypeRecord) (name dependency : String) :
    dependency ∈ references records name ↔
      ∃ record ∈ records, record.component = name ∧ dependency ∈ record.dependencies := by
  simp [references]

theorem reaches_link (index : Index) (component : Component) (record : TypeRecord) :
    Reaches index (references [record] component.name) component
      (component.link index record) := by
  unfold link references
  by_cases own : component.name = record.component
  · simpa [own] using foldl_composes (Reaches index) (Reaches.refl index) (reaches_follow index)
      Reaches.trans record.dependencies component
  · have differ : ¬ record.component = component.name := fun same => own same.symm
    simpa [own, differ] using Reaches.refl index component

theorem reaches_foldl_link (index : Index) (records : List TypeRecord) (component : Component) :
    Reaches index (references records component.name) component
      (records.foldl (fun component record => component.link index record) component) := by
  refine foldl_composes
    (fun records before after => Reaches index (references records before.name) before after)
    (Reaches.refl index) (reaches_link index) ?_ records component
  intro records others before middle after first second
  rw [first.name_eq] at second
  simpa [references] using first.trans second

end Component

/-! ## The passes -/

open Component

/-- A component that is new to the records starts without members. -/
theorem withPackage_map_ofMembers (records : List TypeRecord) (name : String) :
    withPackage ((records.map TypeRecord.component).eraseDups.map (ofMembers records)) name =
      (records.map TypeRecord.component ++ [name]).eraseDups.map (ofMembers records) := by
  have known : (((records.map TypeRecord.component).eraseDups.map (ofMembers records)).any
      fun component => component.name == name) = true ↔
        name ∈ records.map TypeRecord.component := by
    simp [(gains_ofMembers records _).name_eq, named]
  rw [withPackage, eraseDups_concat]
  by_cases mem : name ∈ records.map TypeRecord.component
  · rw [if_pos (known.mpr mem), if_pos mem]
  · rw [if_neg (mt known.mp mem), if_neg mem, ← ofMembers_of_absent mem, List.map_append,
      List.map_singleton]

/-- The first pass gives the components in the order of their first types, each
with its own members. -/
theorem gather_eq (records : List TypeRecord) :
    gather records = (records.map TypeRecord.component).eraseDups.map (ofMembers records) := by
  induction records using List.reverseRecOn with
  | nil => rfl
  | append_singleton records record ih =>
      have step : gather (records ++ [record]) =
          (withPackage (gather records) record.component).map (addMember record) := by
        simp [gather]
      rw [step, ih, withPackage_map_ofMembers, List.map_map, List.map_append, List.map_singleton]
      exact List.map_congr_left fun name _ => (ofMembers_concat records record name).symm

/-- The second pass changes each component by itself. -/
theorem foldl_map_link (index : Index) (records : List TypeRecord) (known : List Component) :
    records.foldl (fun known record => known.map (link index record)) known =
      known.map fun component =>
        records.foldl (fun component record => component.link index record) component := by
  induction records generalizing known with
  | nil => simp
  | cons record rest ih => simp [ih]

/-- The component of a name after both passes. -/
def ofPackage (types : TypeMap) (name : String) : Component :=
  types.records.foldl (fun component record => component.link ⟨types⟩ record)
    (ofMembers types.records name)

theorem components_eq (types : TypeMap) :
    components types =
      (types.records.map TypeRecord.component).eraseDups.map (ofPackage types) := by
  rw [components, foldl_map_link, gather_eq, List.map_map]
  rfl

/-! ## What components are -/

/-- A component is what its package declares, and what the dependencies declared
there mean elsewhere. -/
structure Component.Describes (types : TypeMap) (component : Component) : Prop where
  mem_classes_iff : ∀ name, name ∈ component.classes ↔
    ∃ record ∈ types.records, record.component = component.name ∧
      record.isInterface = false ∧ record.name = name
  mem_interfaces_iff : ∀ name, name ∈ component.interfaces ↔
    ∃ record ∈ types.records, record.component = component.name ∧
      record.isInterface = true ∧ record.name = name
  provided_eq : component.provided = component.interfaces
  mem_dependencies_iff : ∀ other, other ∈ component.dependencies ↔
    other ≠ component.name ∧
      ∃ record ∈ types.records, record.component = component.name ∧
        ∃ dependency ∈ record.dependencies, ∃ target,
          (Index.mk types).find? dependency = some target ∧ target.component = other
  mem_required_iff : ∀ dependency, dependency ∈ component.required ↔
    ∃ record ∈ types.records, record.component = component.name ∧
      dependency ∈ record.dependencies ∧ ∃ target,
        (Index.mk types).find? dependency = some target ∧ target.isInterface = true ∧
          target.component ≠ component.name

theorem name_ofPackage (types : TypeMap) (name : String) : (ofPackage types name).name = name :=
  (reaches_foldl_link ⟨types⟩ types.records _).name_eq.trans
    (gains_ofMembers types.records name).name_eq

theorem describes_ofPackage (types : TypeMap) (name : String) :
    (ofPackage types name).Describes types := by
  have gained := gains_ofMembers types.records name
  have reached := reaches_foldl_link ⟨types⟩ types.records (ofMembers types.records name)
  change Reaches _ _ _ (ofPackage types name) at reached
  have name_eq := name_ofPackage types name
  constructor
  · intro member
    rw [reached.classes_eq, name_eq]
    simpa [declared, named] using gained.mem_declared_iff false member
  · intro member
    rw [reached.interfaces_eq, name_eq]
    simpa [declared, named] using gained.mem_declared_iff true member
  · rw [reached.provided_eq, reached.interfaces_eq]
    exact gained.provided_eq rfl
  · intro other
    rw [reached.mem_dependencies_iff, gained.dependencies_eq, gained.name_eq, name_eq]
    simp only [mem_references_iff]
    constructor
    · rintro (none | ⟨dependency, ⟨record, mem, own, refers⟩, target, found, there, differ⟩)
      · exact absurd none List.not_mem_nil
      · exact ⟨differ, record, mem, own, dependency, refers, target, found, there⟩
    · rintro ⟨differ, record, mem, own, dependency, refers, target, found, there⟩
      exact .inr ⟨dependency, ⟨record, mem, own, refers⟩, target, found, there, differ⟩
  · intro dependency
    rw [reached.mem_required_iff, gained.required_eq, gained.name_eq, name_eq,
      mem_references_iff]
    constructor
    · rintro (none | ⟨⟨record, mem, own, refers⟩, target, found, kind, differ⟩)
      · exact absurd none List.not_mem_nil
      · exact ⟨record, mem, own, refers, target, found, kind, differ⟩
    · rintro ⟨record, mem, own, refers, target, found, kind, differ⟩
      exact .inr ⟨⟨record, mem, own, refers⟩, target, found, kind, differ⟩

theorem describes_of_mem {types : TypeMap} {component : Component}
    (mem : component ∈ components types) : component.Describes types := by
  rw [components_eq] at mem
  obtain ⟨name, _, rfl⟩ := List.mem_map.1 mem
  exact describes_ofPackage types name

theorem map_name_components (types : TypeMap) :
    (components types).map Component.name =
      (types.records.map TypeRecord.component).eraseDups := by
  rw [components_eq, List.map_map]
  exact (List.map_congr_left fun name _ => name_ofPackage types name).trans (List.map_id _)

theorem mem_map_name_components_iff (types : TypeMap) (name : String) :
    name ∈ (components types).map Component.name ↔
      ∃ record ∈ types.records, record.component = name := by
  rw [map_name_components, List.mem_eraseDups, List.mem_map]

/-- Where no package is called like the component of the unnamed one, types of one
component are types of one package. -/
theorem TypeRecord.package_eq {record other : TypeRecord}
    (record_named : record.package ≠ defaultComponent)
    (other_named : other.package ≠ defaultComponent)
    (same : record.component = other.component) : record.package = other.package := by
  unfold component at same
  split at same <;> split at same
  · simp_all
  · exact absurd same.symm other_named
  · exact absurd same record_named
  · exact same

/-- A component never declares a class and an interface of one name, since both
would have one full name. -/
theorem disjoint_of_describes {types : TypeMap} {component : Component}
    (packages : ∀ record ∈ types.records, record.package ≠ defaultComponent)
    (describes : component.Describes types) : component.classes.Disjoint component.interfaces := by
  intro name isClass isInterface
  obtain ⟨first, first_mem, first_own, first_kind, first_name⟩ :=
    (describes.mem_classes_iff name).mp isClass
  obtain ⟨second, second_mem, second_own, second_kind, second_name⟩ :=
    (describes.mem_interfaces_iff name).mp isInterface
  have package := TypeRecord.package_eq (packages first first_mem) (packages second second_mem)
    (first_own.trans second_own.symm)
  have fullName : first.fullName = second.fullName := by
    rw [TypeRecord.fullName, TypeRecord.fullName, package, first_name, second_name]
  have same : first = second :=
    List.inj_on_of_nodup_map types.distinct first_mem second_mem fullName
  rw [same, second_kind] at first_kind
  exact Bool.noConfusion first_kind

/-- The components of a type map are its packages, in the order of their first
types.  Each of them declares the types of its package, as a class or as an
interface but never as both, and depends on the other packages where the index
finds what these types refer to. -/
theorem components_describe_packages (types : TypeMap)
    (packages : ∀ record ∈ types.records, record.package ≠ defaultComponent) :
    (components types).map Component.name =
        (types.records.map TypeRecord.component).eraseDups ∧
      ∀ component ∈ components types,
        component.Describes types ∧ component.classes.Disjoint component.interfaces ∧
          component.name ∉ component.dependencies ∧
          ∀ other ∈ component.dependencies, other ∈ (components types).map Component.name := by
  refine ⟨map_name_components types, ?_⟩
  intro component mem
  have describes := describes_of_mem mem
  refine ⟨describes, disjoint_of_describes packages describes, ?_, ?_⟩
  · intro own
    exact ((describes.mem_dependencies_iff _).mp own).1 rfl
  · intro other depends
    obtain ⟨_, _, _, _, _, _, target, found, there⟩ :=
      (describes.mem_dependencies_iff other).mp depends
    exact (mem_map_name_components_iff types other).mpr
      ⟨target, Index.mem_of_find? found, there⟩

/-- An interface, a class of another package that names it twice, and a class
without a package. -/
def twoPackages : TypeMap :=
  .ofRecords [{ TypeRecord.named "A" with package := "p1", isInterface := true },
    { TypeRecord.named "B" with package := "p2", dependencies := ["A", "p1.A", "B", "Lost"] },
    { TypeRecord.named "C" with dependencies := ["p2.B", "p1.B"] }]

theorem components_twoPackages :
    (∀ record ∈ twoPackages.records, record.package ≠ defaultComponent) ∧
      components twoPackages =
        [⟨"p1", [], ["A"], [], ["A"], []⟩, ⟨"p2", ["B"], [], ["p1"], [], ["p1.A", "A"]⟩,
          ⟨"(default)", ["C"], [], ["p2"], [], []⟩] ∧
      ∀ component ∈ components twoPackages,
        component.Describes twoPackages ∧ component.classes.Disjoint component.interfaces ∧
          component.name ∉ component.dependencies ∧
          ∀ other ∈ component.dependencies,
            other ∈ (components twoPackages).map Component.name := by
  have packages : ∀ record ∈ twoPackages.records, record.package ≠ defaultComponent := by decide
  exact ⟨packages, by decide, (components_describe_packages twoPackages packages).2⟩

end JavaUml.Model
