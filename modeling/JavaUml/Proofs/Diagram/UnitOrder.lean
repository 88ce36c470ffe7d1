import JavaUml.Diagram.ComponentDiagram
import JavaUml.Proofs.Diagram.EdgeAgreement
import JavaUml.Proofs.Lists
import Mathlib.Data.List.Sort

/-!
# The order of units does not show

A run commits the records of its units one after the other, and much is done in
that order later on: names are looked up, packages become components, edges are
drawn.  Where full names differ, nothing is replaced on the way, so the order in
which the units come decides on nothing but the order of the records.

The edges of the class diagram ask the index only whether a simple name is taken.
Components ask it what a name means, and with distinct simple names this is the
one type that is called so.  What a component gathers is a set, and component
diagrams sort whatever they show.
-/

namespace JavaUml.Model

/-! ## Records in another order -/

/-- Records with distinct full names are all kept. -/
theorem Catalog.Holds.perm {catalog : Catalog} {committed : List TypeRecord}
    (holds : catalog.Holds committed) (distinct : (committed.map TypeRecord.fullName).Nodup) :
    catalog.types.records.Perm committed := by
  rw [List.perm_ext_iff_of_nodup (List.Nodup.of_map _ catalog.types.distinct)
    (List.Nodup.of_map _ distinct)]
  intro record
  constructor
  · intro member
    have found := TypeMap.get?_of_mem member
    rw [holds.get?_eq] at found
    exact List.mem_reverse.1 (List.mem_of_find?_eq_some found)
  · intro member
    have found : catalog.types.get? record.fullName = some record := by
      rw [holds.get?_eq]
      apply find?_eq_some_of_unique (List.mem_reverse.2 member)
      · exact beq_self_eq_true record.fullName
      · intro other other_member same
        exact List.inj_on_of_nodup_map distinct (List.mem_reverse.1 other_member) member
          (beq_iff_eq.1 same)
    exact List.mem_of_find?_eq_some found

section Reordered

variable {types others : TypeMap} (reordered : types.records.Perm others.records)

include reordered

theorem TypeMap.get?_eq_of_perm (name : String) : types.get? name = others.get? name := by
  have found_iff : ∀ (some_types : TypeMap) (record : TypeRecord),
      some_types.get? name = some record ↔
        record ∈ some_types.records ∧ record.fullName = name := by
    intro some_types record
    constructor
    · intro found
      refine ⟨List.mem_of_find?_eq_some found, ?_⟩
      simpa using List.find?_some found
    · rintro ⟨member, rfl⟩
      exact TypeMap.get?_of_mem member
  ext record
  rw [found_iff, found_iff, reordered.mem_iff]

theorem Index.hasSimpleName_eq_of_perm :
    (Index.mk types).hasSimpleName = (Index.mk others).hasSimpleName := by
  funext name
  rw [hasSimpleName_eq_any, hasSimpleName_eq_any]
  exact reordered.any_eq

/-- Where simple names differ, a name means the same type in any order. -/
theorem Index.find?_eq_of_perm (simple : ∀ record ∈ types.records, IsSimple record.name)
    (distinct : (types.records.map TypeRecord.name).Nodup) :
    (Index.mk types).find? = (Index.mk others).find? := by
  have others_simple : ∀ record ∈ others.records, IsSimple record.name :=
    fun record member => simple record (reordered.mem_iff.2 member)
  have others_distinct : (others.records.map TypeRecord.name).Nodup :=
    (reordered.map TypeRecord.name).nodup_iff.1 distinct
  funext name
  ext record
  rw [find?_eq_some_iff simple distinct, find?_eq_some_iff others_simple others_distinct,
    reordered.mem_iff]

end Reordered

/-! ## Components as sets -/

namespace Component

/-- A component that holds no name twice. -/
structure IsSet (component : Component) : Prop where
  classes : component.classes.Nodup
  interfaces : component.interfaces.Nodup
  dependencies : component.dependencies.Nodup
  provided : component.provided.Nodup
  required : component.required.Nodup

theorem isSet_named (name : String) : (named name).IsSet := by
  constructor <;> exact List.nodup_nil

theorem IsSet.addMember {component : Component} (set : component.IsSet) (record : TypeRecord) :
    (component.addMember record).IsSet := by
  unfold Component.addMember
  split
  · exact set
  · split
    · exact ⟨set.classes, set.interfaces.insert, set.dependencies, set.provided.insert,
        set.required⟩
    · exact ⟨set.classes.insert, set.interfaces, set.dependencies, set.provided, set.required⟩

theorem IsSet.follow {component : Component} (set : component.IsSet) (index : Index)
    (dependency : String) : (component.follow index dependency).IsSet := by
  unfold Component.follow
  split
  · exact set
  · split
    · exact set
    · refine ⟨set.classes, set.interfaces, set.dependencies.insert, set.provided, ?_⟩
      dsimp only
      split
      · exact set.required.insert
      · exact set.required

theorem IsSet.link {component : Component} (set : component.IsSet) (index : Index)
    (record : TypeRecord) : (component.link index record).IsSet := by
  unfold Component.link
  split
  · exact set
  · exact List.foldlRecOn _ _ set fun _ kept dependency _ => kept.follow index dependency

/-- Both passes keep components sets. -/
theorem isSet_ofPackage (types : TypeMap) (name : String) : (ofPackage types name).IsSet := by
  have members : (ofMembers types.records name).IsSet :=
    List.foldlRecOn _ _ (isSet_named name) fun _ kept record _ => kept.addMember record
  exact List.foldlRecOn _ _ members fun _ kept record _ => kept.link ⟨types⟩ record

/-- Equal components: the sets that their lists stand for are equal. -/
structure Same (component other : Component) : Prop where
  name_eq : component.name = other.name
  classes : component.classes.Perm other.classes
  interfaces : component.interfaces.Perm other.interfaces
  dependencies : component.dependencies.Perm other.dependencies
  provided : component.provided.Perm other.provided
  required : component.required.Perm other.required

end Component

section Reordered

variable {types others : TypeMap} (reordered : types.records.Perm others.records)
  (find?_eq : (Index.mk types).find? = (Index.mk others).find?)

include reordered find?_eq

/-- What describes a component in one order describes it in the other. -/
theorem Component.Describes.of_perm {component : Component}
    (describes : component.Describes others) : component.Describes types where
  mem_classes_iff name := by simp only [describes.mem_classes_iff, reordered.mem_iff]
  mem_interfaces_iff name := by simp only [describes.mem_interfaces_iff, reordered.mem_iff]
  provided_eq := describes.provided_eq
  mem_dependencies_iff other := by
    simp only [describes.mem_dependencies_iff, reordered.mem_iff, find?_eq]
  mem_required_iff dependency := by
    simp only [describes.mem_required_iff, reordered.mem_iff, find?_eq]

theorem same_ofPackage (name : String) :
    (ofPackage types name).Same (ofPackage others name) := by
  have here := describes_ofPackage types name
  have there := (describes_ofPackage others name).of_perm reordered find?_eq
  have set := Component.isSet_ofPackage types name
  have other_set := Component.isSet_ofPackage others name
  have name_eq : (ofPackage types name).name = (ofPackage others name).name := by
    rw [name_ofPackage, name_ofPackage]
  have interfaces : (ofPackage types name).interfaces.Perm (ofPackage others name).interfaces := by
    rw [List.perm_ext_iff_of_nodup set.interfaces other_set.interfaces]
    intro member
    rw [here.mem_interfaces_iff, there.mem_interfaces_iff, name_eq]
  refine ⟨name_eq, ?_, interfaces, ?_, ?_, ?_⟩
  · rw [List.perm_ext_iff_of_nodup set.classes other_set.classes]
    intro member
    rw [here.mem_classes_iff, there.mem_classes_iff, name_eq]
  · rw [List.perm_ext_iff_of_nodup set.dependencies other_set.dependencies]
    intro other
    rw [here.mem_dependencies_iff, there.mem_dependencies_iff, name_eq]
  · rw [here.provided_eq, there.provided_eq]
    exact interfaces
  · rw [List.perm_ext_iff_of_nodup set.required other_set.required]
    intro dependency
    rw [here.mem_required_iff, there.mem_required_iff, name_eq]

omit find?_eq in
theorem perm_componentNames :
    (types.records.map TypeRecord.component).eraseDups.Perm
      (others.records.map TypeRecord.component).eraseDups := by
  rw [List.perm_ext_iff_of_nodup (nodup_eraseDups _) (nodup_eraseDups _)]
  intro name
  rw [List.mem_eraseDups, List.mem_eraseDups]
  exact (reordered.map TypeRecord.component).mem_iff

/-- The components of both orders are equal, up to the order of the components. -/
theorem exists_same_components :
    ∃ matching, matching.Perm (components others) ∧
      List.Forall₂ Component.Same (components types) matching := by
  rw [components_eq types, components_eq others]
  refine ⟨(types.records.map TypeRecord.component).eraseDups.map (ofPackage others),
    (perm_componentNames reordered).map _, ?_⟩
  rw [List.forall₂_map_left_iff, List.forall₂_map_right_iff, List.forall₂_same]
  exact fun name _ => same_ofPackage reordered find?_eq name

end Reordered

end JavaUml.Model

namespace JavaUml.Diagram

open JavaUml.Model JavaUml.Extract

/-! ## Diagrams -/

section Keys

variable {α : Type} (key : α → String)

theorem key_le_trans (first second third : α) (before : decide (key first ≤ key second) = true)
    (after : decide (key second ≤ key third) = true) : decide (key first ≤ key third) = true := by
  rw [decide_eq_true_iff] at before after ⊢
  exact String.le_trans before after

theorem key_le_total (first second : α) :
    (decide (key first ≤ key second) || decide (key second ≤ key first)) = true := by
  simpa using String.le_total (key first) (key second)

/-- Sorting by a key puts the keys in order. -/
theorem pairwise_mergeSort_key (items : List α) :
    (items.mergeSort fun first second => decide (key first ≤ key second)).Pairwise
      fun first second => key first ≤ key second := by
  have pairwise := List.pairwise_mergeSort (key_le_trans key) (key_le_total key) items
  simpa only [decide_eq_true_eq] using pairwise

end Keys

theorem pairwise_sorted (names : List String) : (sorted names).Pairwise (· ≤ ·) :=
  pairwise_mergeSort_key id names

/-- Names in another order are sorted alike. -/
theorem sorted_eq_of_perm {names others : List String} (reordered : names.Perm others) :
    sorted names = sorted others := by
  refine List.Perm.eq_of_pairwise (fun _ _ _ _ => String.le_antisymm) (pairwise_sorted names)
    (pairwise_sorted others) ?_
  exact (List.mergeSort_perm names _).trans (reordered.trans (List.mergeSort_perm others _).symm)

/-- Components are sorted by their names. -/
theorem inOrder_components (types : TypeMap) :
    inOrder (components types) =
      (sorted (types.records.map TypeRecord.component).eraseDups).map (ofPackage types) := by
  rw [components_eq, inOrder, sorted]
  refine (List.map_mergeSort ?_).symm
  intro first _ second _
  rw [name_ofPackage, name_ofPackage]

theorem componentBlock_eq_of_same {component other : Component} (same : component.Same other) :
    componentBlock component = componentBlock other := by
  have classes : component.classes.isEmpty = other.classes.isEmpty := same.classes.isEmpty_eq
  rw [componentBlock, componentBlock, same.name_eq, sorted_eq_of_perm same.provided, classes,
    same.classes.length_eq]

theorem componentEdges_eq_of_same {component other : Component} (same : component.Same other)
    {names otherNames : List String} (reordered : names.Perm otherNames) :
    componentEdges names component = componentEdges otherNames other := by
  have known : names.contains = otherNames.contains := funext fun _ => reordered.contains_eq
  rw [componentEdges, componentEdges, same.name_eq, sorted_eq_of_perm same.dependencies, known]

section Reordered

variable {types others : TypeMap} (reordered : types.records.Perm others.records)

include reordered

theorem perm_classEdges : (classEdges types).Perm (classEdges others) := by
  have edges : edgesOf ⟨types⟩ = edgesOf ⟨others⟩ := by
    funext record
    simp only [edgesOf, usesTargets, Index.hasSimpleName_eq_of_perm reordered]
  rw [classEdges, classEdges, edges]
  exact (reordered.flatMap_right _).map _

theorem componentDiagram_eq_of_perm
    (find?_eq : (Index.mk types).find? = (Index.mk others).find?) :
    componentDiagram (components types) = componentDiagram (components others) := by
  have names := perm_componentNames reordered
  have same := same_ofPackage reordered find?_eq
  have blocks : (fun name => componentBlock (ofPackage types name)) =
      fun name => componentBlock (ofPackage others name) :=
    funext fun name => componentBlock_eq_of_same (same name)
  have edges : (fun name => componentEdges ((components types).map Component.name)
      (ofPackage types name)) = fun name =>
        componentEdges ((components others).map Component.name) (ofPackage others name) := by
    funext name
    apply componentEdges_eq_of_same (same name)
    rw [map_name_components, map_name_components]
    exact names
  rw [componentDiagram, componentDiagram, componentLines, componentLines, inOrder_components,
    inOrder_components, sorted_eq_of_perm names, List.flatMap_map, List.flatMap_map,
    List.flatMap_map, List.flatMap_map, blocks, edges]

end Reordered

/-! ## Runs -/

/-- The records that the units of steps commit. -/
def committedBy (trusted : List String) (steps : List Step) : List TypeRecord :=
  committed trusted false (steps.flatMap (Step.units trusted false))

theorem perm_typesOf {trusted : List String} {suffix : String} {steps : List Step}
    (distinct : ((committedBy trusted steps).map TypeRecord.fullName).Nodup) :
    (typesOf trusted suffix steps).records.Perm (committedBy trusted steps) := by
  have follows : Analysis.Follows trusted false (Analysis.start trusted suffix) := ⟨rfl, rfl⟩
  have holds := @holds_catalogAfter trusted false _ _ (Catalog.holds_empty trusted)
    (steps.flatMap (Step.units trusted false))
  rw [List.nil_append] at holds
  rw [typesOf, Analysis.run_spec follows]
  exact holds.perm distinct

/-- Two runs that take the same units in different orders, where full names
differ, gather the same records under the same names and draw the same edges
between types.  If simple names differ too, their components are equal and their
component diagrams are one text. -/
theorem unit_order_irrelevant (trusted : List String) (suffix : String) (steps others : List Step)
    (reordered : (steps.flatMap (Step.units trusted false)).Perm
      (others.flatMap (Step.units trusted false)))
    (distinct : ((committedBy trusted steps).map TypeRecord.fullName).Nodup) :
    let types := typesOf trusted suffix steps
    let again := typesOf trusted suffix others
    types.records.Perm again.records ∧ (∀ name, types.get? name = again.get? name) ∧
      (classEdges types).Perm (classEdges again) ∧
      ((types.records.map TypeRecord.name).Nodup →
        (∃ matching, matching.Perm (components again) ∧
          List.Forall₂ Component.Same (components types) matching) ∧
        componentDiagram (components types) = componentDiagram (components again)) := by
  intro types again
  have committed_perm : (committedBy trusted steps).Perm (committedBy trusted others) :=
    reordered.flatMap_right _
  have others_distinct : ((committedBy trusted others).map TypeRecord.fullName).Nodup :=
    (committed_perm.map _).nodup_iff.1 distinct
  have perm : types.records.Perm again.records :=
    (perm_typesOf distinct).trans (committed_perm.trans (perm_typesOf others_distinct).symm)
  refine ⟨perm, TypeMap.get?_eq_of_perm perm, perm_classEdges perm, ?_⟩
  intro names_distinct
  have find?_eq : (Index.mk types).find? = (Index.mk again).find? := by
    apply Index.find?_eq_of_perm perm _ names_distinct
    exact fun record member => (Analysis.isRooted_of_mem_run member).isSimple_name
  exact ⟨exists_same_components perm find?_eq, componentDiagram_eq_of_perm perm find?_eq⟩

/-- A package that realizes and uses types of another one, which uses a type of a
third one. -/
def marketTexts : List Step :=
  [.ofText "Wallet.java" "package shop; class Wallet implements Bag \x7b Coin c; Till t; \x7d",
    .ofText "Coin.java" "package money; interface Bag \x7b \x7d class Coin \x7b mint.Press p; \x7d",
    .ofText "Till.java" "package shop; class Till \x7b Wallet w; \x7d",
    .ofText "Press.java" "package mint; enum Press \x7b OLD \x7d"]

/-- Taken from the last one to the first, the texts give other lists of records and
components, and the same diagram. -/
theorem unit_order_market :
    let types := typesOf Java.defaultTrusted ".java" marketTexts
    let again := typesOf Java.defaultTrusted ".java" marketTexts.reverse
    ((committedBy Java.defaultTrusted marketTexts).map TypeRecord.fullName).Nodup ∧
      (types.records.map TypeRecord.name).Nodup ∧
      (components types).map Component.name ≠ (components again).map Component.name ∧
      types.records.Perm again.records ∧ (classEdges types).Perm (classEdges again) ∧
      componentDiagram (components types) = componentDiagram (components again) := by
  intro types again
  have distinct : ((committedBy Java.defaultTrusted marketTexts).map
      TypeRecord.fullName).Nodup := by decide +kernel
  have names_distinct : (types.records.map TypeRecord.name).Nodup := by decide +kernel
  have differ : (components types).map Component.name ≠
      (components again).map Component.name := by decide +kernel
  have reordered := (List.reverse_perm marketTexts).symm.flatMap_right
    (Step.units Java.defaultTrusted false)
  obtain ⟨records, _, edges, same⟩ := unit_order_irrelevant Java.defaultTrusted ".java"
    marketTexts marketTexts.reverse reordered distinct
  exact ⟨distinct, names_distinct, differ, records, edges, (same names_distinct).2⟩

end JavaUml.Diagram
