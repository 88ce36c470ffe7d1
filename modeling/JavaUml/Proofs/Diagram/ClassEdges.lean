import JavaUml.Proofs.Resolve.Inheritance
import Mathlib.Data.List.Count

/-!
# What the edges of a class diagram say

The edges of a record lead to types of the model: to its superclass, to the interfaces
that it implements, and to the types that it depends on in another way.  Each kind of
edge is stated here as a relation between the record and a simple name, and a record
has just the edges that the relations allow.

Use leaves out the record itself and its direct supertypes.  What is left out because
it is a supertype has an edge of another kind, so no dependency between two types of
the model is lost.  What is left out because it is the record itself is left out for
use only: a clause that ends with the simple name of its own type, as in a class that
extends a class of the same name in another package, is drawn as a loop.
-/

namespace JavaUml.Text

theorem beforeFirst_append_cons {c : Char} {front : List Char} (absent : c ∉ front)
    (rest : List Char) : beforeFirst c (front ++ c :: rest) = front := by
  have passed : ∀ other ∈ front, (other != c) = true := by
    intro other among
    rw [bne_iff_ne]
    rintro rfl
    exact absent among
  rw [beforeFirst, List.takeWhile_append_of_pos passed, List.takeWhile_cons]
  simp

end JavaUml.Text

namespace JavaUml.Diagram

open JavaUml.Model JavaUml.Extract

/-! ## Edges as relations -/

/-- Whether the superclass of a record has the given simple name. -/
def Extends (record : TypeRecord) (name : String) : Prop :=
  ∃ parent ∈ record.superclass, Java.simpleName parent = name

/-- Whether a record implements an interface of the given simple name. -/
def Implements (record : TypeRecord) (name : String) : Prop :=
  ∃ realized ∈ record.interfaces, Java.simpleName realized = name

/-- Whether a record depends on a type of the given simple name that is neither the
record itself nor one of its direct supertypes. -/
structure Uses (record : TypeRecord) (name : String) : Prop where
  depends : ∃ dependency ∈ record.dependencies, Java.simpleName dependency = name
  ne_self : name ≠ record.name
  not_extends : ¬ Extends record name
  not_implements : ¬ Implements record name

/-- What an edge of each kind says about its source and its target. -/
def EdgeKind.Relates (record : TypeRecord) : EdgeKind → String → Prop
  | .inherits => Extends record
  | .realizes => Implements record
  | .uses => Uses record

section

variable {types : TypeMap} {record : TypeRecord} {name : String}

theorem hasSimpleName_iff :
    (Index.mk types).hasSimpleName name = true ↔ name ∈ types.records.map TypeRecord.name := by
  rw [Index.hasSimpleName_eq_any]
  simp

/-- The names of a model are not empty. -/
theorem ne_empty_of_mem_names (simple : ∀ record ∈ types.records, IsSimple record.name)
    (known : name ∈ types.records.map TypeRecord.name) : name ≠ "" := by
  obtain ⟨other, member, rfl⟩ := List.mem_map.1 known
  exact (simple other member).1

/-- An empty superclass counts as none, but no type of a model has its name. -/
theorem superclass?_eq_some_iff (record : TypeRecord) (named : name ≠ "") :
    record.superclass?.map Java.simpleName = some name ↔ Extends record name := by
  simp only [Extends, Option.mem_def, Option.map_eq_some_iff, TypeRecord.superclass?,
    Option.filter_eq_some_iff]
  constructor
  · rintro ⟨parent, ⟨parent_eq, -⟩, name_eq⟩
    exact ⟨parent, parent_eq, name_eq⟩
  · rintro ⟨parent, parent_eq, name_eq⟩
    refine ⟨parent, ⟨parent_eq, ?_⟩, name_eq⟩
    rw [decide_eq_true_iff]
    rintro rfl
    exact named name_eq.symm

theorem mem_realized_iff :
    name ∈ record.interfaces.map Java.simpleName ↔ Implements record name :=
  List.mem_map

theorem mem_usesTargets_iff (simple : ∀ record ∈ types.records, IsSimple record.name) :
    name ∈ usesTargets ⟨types⟩ record ↔
      name ∈ types.records.map TypeRecord.name ∧ Uses record name := by
  simp only [usesTargets, List.mem_eraseDups, List.mem_filter, Bool.and_eq_true, bne_iff_ne,
    Bool.not_eq_true', List.contains_eq_mem, decide_eq_false_iff_not, hasSimpleName_iff,
    mem_realized_iff]
  constructor
  · rintro ⟨depends, ⟨⟨not_extends, not_implements⟩, ne_self⟩, known⟩
    have extended := superclass?_eq_some_iff record (ne_empty_of_mem_names simple known)
    exact ⟨known, List.mem_map.1 depends, ne_self,
      fun inherits => not_extends (extended.2 inherits).symm, not_implements⟩
  · rintro ⟨known, uses⟩
    have extended := superclass?_eq_some_iff record (ne_empty_of_mem_names simple known)
    exact ⟨List.mem_map.2 uses.depends, ⟨⟨fun same => uses.not_extends (extended.1 same.symm),
      uses.not_implements⟩, uses.ne_self⟩, known⟩

theorem mem_map_edge_iff {kind own : EdgeKind} {source target : String} {targets : List String} :
    (Edge.mk kind source target) ∈ targets.map (Edge.mk own record.name) ↔
      kind = own ∧ source = record.name ∧ target ∈ targets := by
  simp only [List.mem_map, Edge.mk.injEq]
  constructor
  · rintro ⟨_, among, rfl, rfl, rfl⟩
    exact ⟨rfl, rfl, among⟩
  · rintro ⟨rfl, rfl, among⟩
    exact ⟨target, among, rfl, rfl, rfl⟩

/-- The edges of a record are those that its relations to types of the model allow. -/
theorem mem_edgesOf_iff (simple : ∀ record ∈ types.records, IsSimple record.name) {edge : Edge} :
    edge ∈ edgesOf ⟨types⟩ record ↔
      edge.source = record.name ∧ edge.target ∈ types.records.map TypeRecord.name ∧
        edge.kind.Relates record edge.target := by
  obtain ⟨kind, source, target⟩ := edge
  simp only [edgesOf, List.mem_append, mem_map_edge_iff, List.mem_filter, Option.mem_toList,
    Bool.and_eq_true, bne_iff_ne, hasSimpleName_iff, mem_realized_iff, mem_usesTargets_iff simple]
  by_cases known : target ∈ types.records.map TypeRecord.name
  · have named := ne_empty_of_mem_names simple known
    rw [superclass?_eq_some_iff record named]
    cases kind <;> simp [EdgeKind.Relates, named, known]
  · simp [known]

/-! ## Lines -/

/-- The lines that a record brings. -/
def linesOf (types : TypeMap) (record : TypeRecord) : List String :=
  (edgesOf ⟨types⟩ record).map Edge.text

theorem classEdges_eq_flatMap (types : TypeMap) :
    classEdges types = types.records.flatMap (linesOf types) :=
  List.map_flatMap

theorem text_uses_injective (source : String) :
    Function.Injective fun target => (Edge.mk .uses source target).text := by
  intro first second same
  exact (String.append_right_inj _).1 ((String.append_left_inj _).1 same)

/-- Only the lines of use and realization have dots in them. -/
theorem text_inherits_ne_uses {source parent target : String}
    (source_plain : Java.isDotted source = false) (parent_plain : Java.isDotted parent = false) :
    (Edge.mk .inherits source parent).text ≠ (Edge.mk .uses source target).text := by
  intro same
  have undotted : Java.isDotted (Edge.mk .inherits source parent).text = false := by
    simp only [Java.isDotted, List.contains_eq_mem, decide_eq_false_iff_not]
      at source_plain parent_plain
    simp [Edge.text, Java.isDotted, source_plain, parent_plain]
  have dotted : Java.isDotted (Edge.mk .uses source target).text = true := by
    simp [Edge.text, Java.isDotted]
  rw [same, dotted] at undotted
  cases undotted

/-- The lines of use and realization differ in front of their first dots. -/
theorem text_realizes_ne_uses {source parent target : String}
    (source_plain : Java.isDotted source = false) (parent_plain : Java.isDotted parent = false) :
    (Edge.mk .realizes source parent).text ≠ (Edge.mk .uses source target).text := by
  intro same
  have parent_eq : (Edge.mk .realizes source parent).text.toList =
      (parent.toList ++ " <|".toList) ++ '.' :: (". " ++ source).toList := by
    simp [Edge.text]
  have source_eq : (Edge.mk .uses source target).text.toList =
      (source.toList ++ " ".toList) ++ '.' :: (".> " ++ target ++ " : uses").toList := by
    simp [Edge.text]
  have fronts : parent.toList ++ " <|".toList = source.toList ++ " ".toList := by
    have front := congrArg (Text.beforeFirst '.' ∘ String.toList) same
    simp only [Function.comp_apply] at front
    rwa [parent_eq, source_eq, Text.beforeFirst_append_cons, Text.beforeFirst_append_cons] at front
    · simpa [Java.isDotted] using source_plain
    · simpa [Java.isDotted] using parent_plain
  have last := congrArg List.getLast? fronts
  simp at last

/-- The line of a use is the line of no other edge of the record. -/
theorem text_eq_uses_iff (simple : ∀ record ∈ types.records, IsSimple record.name)
    (member : record ∈ types.records) {edge : Edge} (drawn : edge ∈ edgesOf ⟨types⟩ record)
    {target : String} :
    edge.text = (Edge.mk .uses record.name target).text ↔
      edge = ⟨.uses, record.name, target⟩ := by
  obtain ⟨kind, source, parent⟩ := edge
  obtain ⟨rfl, known, -⟩ := (mem_edgesOf_iff simple).1 drawn
  obtain ⟨other, other_member, rfl⟩ := List.mem_map.1 known
  have record_plain := (simple record member).2
  have other_plain := (simple other other_member).2
  constructor
  · intro same
    cases kind with
    | inherits => exact absurd same (text_inherits_ne_uses record_plain other_plain)
    | realizes => exact absurd same (text_realizes_ne_uses record_plain other_plain)
    | uses => rw [text_uses_injective record.name same]
  · intro same
    rw [same]

theorem text_mem_linesOf_iff (simple : ∀ record ∈ types.records, IsSimple record.name)
    (member : record ∈ types.records) {target : String} :
    (Edge.mk .uses record.name target).text ∈ linesOf types record ↔
      target ∈ types.records.map TypeRecord.name ∧ Uses record target := by
  have drawn_iff : Edge.mk .uses record.name target ∈ edgesOf ⟨types⟩ record ↔ _ :=
    mem_edgesOf_iff simple
  constructor
  · intro line
    obtain ⟨edge, drawn, same⟩ := List.mem_map.1 line
    rw [(text_eq_uses_iff simple member drawn).1 same] at drawn
    exact (drawn_iff.1 drawn).2
  · intro related
    exact List.mem_map_of_mem (drawn_iff.2 ⟨rfl, related⟩)

/-- Different dependencies on one simple name share a line. -/
theorem count_linesOf_le_one (simple : ∀ record ∈ types.records, IsSimple record.name)
    (member : record ∈ types.records) (target : String) :
    (linesOf types record).count (Edge.mk .uses record.name target).text ≤ 1 := by
  have lines_eq : (linesOf types record).count (Edge.mk .uses record.name target).text =
      (edgesOf ⟨types⟩ record).count ⟨.uses, record.name, target⟩ := by
    rw [linesOf, List.count_eq_countP, List.countP_map, List.count_eq_countP]
    refine List.countP_congr fun edge drawn => ?_
    simp only [Function.comp_apply, beq_iff_eq]
    exact text_eq_uses_iff simple member drawn
  have others : ∀ {kind : EdgeKind} (targets : List String), kind ≠ .uses →
      (targets.map (Edge.mk kind record.name)).count ⟨.uses, record.name, target⟩ = 0 := by
    intro kind targets differ
    refine List.count_eq_zero_of_not_mem fun among => ?_
    exact differ (mem_map_edge_iff.1 among).1.symm
  have injective : Function.Injective (Edge.mk .uses record.name) := by
    intro first second same
    exact (Edge.mk.inj same).2.2
  rw [lines_eq, edgesOf, List.count_append, List.count_append, others _ (by decide),
    others _ (by decide), List.count_map_of_injective _ _ injective, Nat.zero_add]
  exact List.nodup_iff_count_le_one.1 (nodup_eraseDups _) target

/-- A dependency on another type of the model has an edge: as a superclass, as an
interface, or else as a type that is used. -/
theorem exists_edge_of_dependency (simple : ∀ record ∈ types.records, IsSimple record.name)
    {dependency : String} (depends : dependency ∈ record.dependencies)
    (known : Java.simpleName dependency ∈ types.records.map TypeRecord.name)
    (differ : Java.simpleName dependency ≠ record.name) :
    ∃ kind, Edge.mk kind record.name (Java.simpleName dependency) ∈ edgesOf ⟨types⟩ record := by
  have drawn : ∀ kind : EdgeKind, kind.Relates record (Java.simpleName dependency) →
      Edge.mk kind record.name (Java.simpleName dependency) ∈ edgesOf ⟨types⟩ record :=
    fun kind related => (mem_edgesOf_iff simple).2 ⟨rfl, known, related⟩
  by_cases inherits : Extends record (Java.simpleName dependency)
  · exact ⟨.inherits, drawn .inherits inherits⟩
  · by_cases realizes : Implements record (Java.simpleName dependency)
    · exact ⟨.realizes, drawn .realizes realizes⟩
    · exact ⟨.uses, drawn .uses ⟨⟨dependency, depends, rfl⟩, differ, inherits, realizes⟩⟩

end

/-- The lines of use of a record lead, once each, to the types of the model that it
depends on and that are neither the record itself nor its direct supertypes.  Every
dependency on another type of the model has a line of some kind, and every line joins
the record with a type of the model. -/
theorem class_lines_of_record (types : TypeMap)
    (simple : ∀ record ∈ types.records, IsSimple record.name) :
    classEdges types = types.records.flatMap (linesOf types) ∧
      ∀ record ∈ types.records,
        (∀ target,
          (linesOf types record).count (record.name ++ " ..> " ++ target ++ " : uses") ≤ 1 ∧
            (record.name ++ " ..> " ++ target ++ " : uses" ∈ linesOf types record ↔
              target ∈ types.records.map TypeRecord.name ∧ Uses record target)) ∧
        (∀ dependency ∈ record.dependencies,
          Java.simpleName dependency ∈ types.records.map TypeRecord.name →
            Java.simpleName dependency ≠ record.name →
              ∃ kind, (Edge.mk kind record.name (Java.simpleName dependency)).text ∈
                linesOf types record) ∧
        ∀ line ∈ linesOf types record,
          ∃ kind, ∃ target ∈ types.records.map TypeRecord.name,
            line = (Edge.mk kind record.name target).text ∧ kind.Relates record target := by
  refine ⟨classEdges_eq_flatMap types, fun record member => ⟨fun target => ?_, ?_, ?_⟩⟩
  · exact ⟨count_linesOf_le_one simple member target, text_mem_linesOf_iff simple member⟩
  · intro dependency depends known differ
    obtain ⟨kind, drawn⟩ := exists_edge_of_dependency simple depends known differ
    exact ⟨kind, List.mem_map_of_mem drawn⟩
  · intro line among
    obtain ⟨⟨kind, source, target⟩, drawn, rfl⟩ := List.mem_map.1 among
    obtain ⟨rfl, known, related⟩ := (mem_edgesOf_iff simple).1 drawn
    exact ⟨kind, target, known, rfl, related⟩

/-- A class that names two types of one simple name, its supertypes, itself and a type
that the model does not have. -/
def crateRecord : TypeRecord :=
  { TypeRecord.named "Crate" with
    package := "store"
    superclass := some "base.Box"
    interfaces := ["base.Sealed"]
    dependencies := ["Box", "base.Sealed", "left.Lid", "Crate", "Lid", "java.io.File"] }

def crateTypes : TypeMap :=
  .ofRecords [crateRecord, { TypeRecord.named "Box" with package := "base" },
    { TypeRecord.named "Sealed" with isInterface := true },
    { TypeRecord.named "Lid" with package := "left" },
    { TypeRecord.named "Lid" with package := "right" }]

theorem class_lines_crate :
    (∀ record ∈ crateTypes.records, IsSimple record.name) ∧
      linesOf crateTypes crateRecord =
        ["Box <|-- Crate", "Sealed <|.. Crate", "Crate ..> Lid : uses"] ∧
      (linesOf crateTypes crateRecord).count "Crate ..> Lid : uses" ≤ 1 ∧
      Uses crateRecord "Lid" ∧ ¬ Uses crateRecord "Sealed" ∧
      ∃ kind, (Edge.mk kind "Crate" "Box").text ∈ linesOf crateTypes crateRecord := by
  have simple : ∀ record ∈ crateTypes.records, IsSimple record.name := by decide
  have lines_eq : linesOf crateTypes crateRecord =
      ["Box <|-- Crate", "Sealed <|.. Crate", "Crate ..> Lid : uses"] := by decide +kernel
  obtain ⟨-, laws⟩ := class_lines_of_record crateTypes simple
  obtain ⟨uses, drawn, -⟩ := laws crateRecord (by decide)
  refine ⟨simple, lines_eq, (uses "Lid").1, ?_, ?_, ?_⟩
  · have line : "Crate ..> Lid : uses" ∈ linesOf crateTypes crateRecord := by simp [lines_eq]
    exact ((uses "Lid").2.1 line).2
  · intro used
    have line := (uses "Sealed").2.2 ⟨by decide, used⟩
    rw [lines_eq] at line
    exact absurd line (by decide)
  · exact drawn "Box" (by decide) (by decide) (by decide)

/-! ## Loops -/

/-- The types in the clause of a declaration that edges of a kind show. -/
def clauseTypes (header : Java.TypeHeader) : EdgeKind → List Java.TypeRef
  | .inherits => header.extended.getLast?.toList
  | .realizes => header.implemented
  | .uses => []

/-- A record is related to its own name by clauses that end with the name, and never by
use. -/
theorem relates_self_iff {rules : UnitRules} {node : Java.Node} {declaration : Declaration}
    (declared : declaration? rules node = some declaration) {kind : EdgeKind} :
    kind.Relates declaration.record declaration.record.name ↔
      ∃ type ∈ clauseTypes declaration.header kind,
        type.lastName = declaration.header.name.text := by
  have last_eq : ∀ type : Java.TypeRef, Java.simpleName type.lastName = type.lastName :=
    fun type => Java.simpleName_of_undotted (isDotted_lastName type)
  rw [name_of_declaration? declared]
  cases kind with
  | inherits =>
      simp [EdgeKind.Relates, Extends, superclass_of_declaration? declared, clauseTypes, last_eq]
  | realizes =>
      simp only [EdgeKind.Relates, Implements, clauseTypes, mem_interfaces_of_declaration? declared]
      constructor
      · rintro ⟨_, ⟨type, among, rfl⟩, name_eq⟩
        exact ⟨type, among, (last_eq type).symm.trans name_eq⟩
      · rintro ⟨type, among, name_eq⟩
        exact ⟨type.lastName, ⟨type, among, rfl⟩, (last_eq type).trans name_eq⟩
  | uses =>
      simp only [clauseTypes, List.not_mem_nil, false_and, exists_false, iff_false]
      intro uses
      exact uses.ne_self (name_of_declaration? declared).symm

/-- For all sources, an edge has the same name on both sides just where a declaration
extends or implements a type whose last name is its own.  Use never has. -/
theorem self_edge_iff_clause (trusted : List String) (suffix : String) (steps : List Step) :
    let types := typesOf trusted suffix steps
    let edges := types.records.flatMap (edgesOf ⟨types⟩)
    classEdges types = edges.map Edge.text ∧
      ∀ kind name, Edge.mk kind name name ∈ edges ↔
        ∃ declaration ∈ declarationsBy trusted steps, declaration.record ∈ types.records ∧
          declaration.header.name.text = name ∧
            ∃ type ∈ clauseTypes declaration.header kind, type.lastName = name := by
  intro types edges
  refine ⟨rfl, fun kind name => ?_⟩
  have simple : ∀ record ∈ types.records, IsSimple record.name :=
    isSimple_typesOf trusted suffix steps
  constructor
  · intro drawn
    obtain ⟨record, member, edge_mem⟩ := List.mem_flatMap.1 drawn
    obtain ⟨rfl, -, related⟩ := (mem_edgesOf_iff simple).1 edge_mem
    have committed : record ∈ (declarationsBy trusted steps).map Declaration.record := by
      rw [map_record_declarationsBy]
      exact Analysis.mem_committed_of_mem_run member
    obtain ⟨declaration, declared, rfl⟩ := List.mem_map.1 committed
    obtain ⟨rules, node, found⟩ := exists_declaration? declared
    have name_eq := name_of_declaration? found
    have clause := (relates_self_iff found).1 related
    exact ⟨declaration, declared, member, name_eq.symm, name_eq ▸ clause⟩
  · rintro ⟨declaration, declared, member, rfl, clause⟩
    obtain ⟨rules, node, found⟩ := exists_declaration? declared
    have name_eq := name_of_declaration? found
    refine List.mem_flatMap.2 ⟨declaration.record, member, (mem_edgesOf_iff simple).2 ?_⟩
    rw [← name_eq]
    exact ⟨rfl, List.mem_map_of_mem member, (relates_self_iff found).2 clause⟩

/-- A class that extends a class of the same simple name in another package. -/
def cartTexts : List Step :=
  [.ofText "S0.java" "package shop; class Cart extends base.Cart \x7b \x7d",
    .ofText "S1.java" "package base; class Cart \x7b \x7d"]

/-- The class inherits from itself, as the diagram shows it. -/
theorem self_edge_cart :
    let types := typesOf Java.defaultTrusted ".java" cartTexts
    Edge.mk .inherits "Cart" "Cart" ∈ types.records.flatMap (edgesOf ⟨types⟩) ∧
      "Cart <|-- Cart" ∈ classEdges types := by
  decide +kernel

end JavaUml.Diagram
