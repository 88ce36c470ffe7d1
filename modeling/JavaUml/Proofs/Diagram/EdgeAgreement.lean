import JavaUml.Diagram.ClassDiagram
import JavaUml.Proofs.Extract.Heritage
import JavaUml.Proofs.Model.PackageEdges
import Mathlib.Data.List.TakeWhile

/-!
# Class diagrams and component diagrams agree

A class diagram has an edge to a type wherever the last part of a dependency is
the simple name of the type.  A component takes the dependency for the type only
if it is the simple name or the full name as a whole.  The two differ on
dependencies with another qualifier in front, such as a foreign package or an
outer type.

Supertypes are written down by their last names, so inheritance and realization
never differ; use differs only where no dependency calls the type by a name of
its own.
-/

namespace JavaUml.Java

theorem simpleName_of_undotted {name : String} (undotted : isDotted name = false) :
    simpleName name = name := by
  have kept : name.toList.reverse.takeWhile (· != '.') = name.toList.reverse := by
    rw [List.takeWhile_eq_self_iff]
    intro c member
    have inside : c ∈ name.toList := List.mem_reverse.1 member
    have outside : '.' ∉ name.toList := by simpa [isDotted] using undotted
    rw [bne_iff_ne]
    rintro rfl
    exact outside inside
  rw [simpleName, Text.afterLast, Text.beforeFirst, kept, List.reverse_reverse,
    String.ofList_toList]

end JavaUml.Java

namespace JavaUml.Model

/-- Where simple names differ, a name means the type that is called so. -/
theorem Index.find?_eq_some_iff {index : Index}
    (simple : ∀ record ∈ index.types.records, IsSimple record.name)
    (distinct : (index.types.records.map TypeRecord.name).Nodup) {name : String}
    {record : TypeRecord} :
    index.find? name = some record ↔
      record ∈ index.types.records ∧ record.isCalled name = true := by
  rw [find?_eq_scan simple]
  constructor
  · intro found
    exact ⟨List.mem_of_find?_eq_some found, List.find?_some found⟩
  · rintro ⟨member, called⟩
    apply find?_eq_some_of_unique member called
    intro other other_member other_called
    -- A dot tells which of the two names is meant, and neither is shared.
    cases dotted : Java.isDotted name with
    | true =>
        rw [TypeRecord.isCalled_dotted (simple _ ‹_›) dotted, beq_iff_eq] at called other_called
        exact List.inj_on_of_nodup_map index.types.distinct other_member member
          (other_called.trans called.symm)
    | false =>
        rw [TypeRecord.isCalled_undotted dotted, beq_iff_eq] at called other_called
        exact List.inj_on_of_nodup_map distinct other_member member
          (other_called.trans called.symm)

/-- What one type refers to in another component is among the dependencies of its
own. -/
theorem component_mem_dependencies {types : TypeMap} {source target : TypeRecord}
    {dependency : String} (member : source ∈ types.records)
    (refers : dependency ∈ source.dependencies)
    (found : (Index.mk types).find? dependency = some target)
    (apart : source.component ≠ target.component) {component : Component}
    (known : component ∈ components types) (own : component.name = source.component) :
    target.component ∈ component.dependencies := by
  rw [(describes_of_mem known).mem_dependencies_iff]
  constructor
  · rw [own]
    exact apart.symm
  · exact ⟨source, member, own.symm, dependency, refers, target, found, rfl⟩

end JavaUml.Model

namespace JavaUml.Diagram

open JavaUml.Model JavaUml.Extract

/-- Inheritance and realization lead to supertypes. -/
theorem exists_supertype_of_edge {index : Index} {record : TypeRecord} {edge : Edge}
    (drawn : edge ∈ edgesOf index record) (inherits : edge.kind ≠ .uses) :
    ∃ name ∈ record.supertypes, Java.simpleName name = edge.target := by
  simp only [edgesOf, List.mem_append, List.mem_map, List.mem_filter] at drawn
  rcases drawn with (⟨parent, ⟨among, _⟩, rfl⟩ | ⟨parent, ⟨among, _⟩, rfl⟩) | ⟨target, _, rfl⟩
  · obtain ⟨name, named, rfl⟩ := Option.map_eq_some_iff.1 (Option.mem_toList.1 among)
    exact ⟨name, List.mem_append_left _ (Option.mem_toList.2 named), rfl⟩
  · obtain ⟨name, named, rfl⟩ := among
    exact ⟨name, List.mem_append_right _ named, rfl⟩
  · exact absurd rfl inherits

/-- A type that another one inherits from or realizes is called by a dependency of
the other one. -/
theorem isCalled_of_edge {index : Index} {source target : TypeRecord} {edge : Edge}
    (rooted : IsRooted source) (drawn : edge ∈ edgesOf index source)
    (inherits : edge.kind ≠ .uses) (meets : edge.target = target.name) :
    ∃ dependency ∈ source.dependencies, target.isCalled dependency = true := by
  obtain ⟨name, among, last_eq⟩ := exists_supertype_of_edge drawn inherits
  rw [Java.simpleName_of_undotted (rooted.isDotted_of_mem name among), meets] at last_eq
  exact ⟨name, rooted.supertypes_subset among, by simp [TypeRecord.isCalled, last_eq]⟩

/-- The types that a run of extraction has gathered. -/
def typesOf (trusted : List String) (suffix : String) (steps : List Step) : TypeMap :=
  ((Analysis.start trusted suffix).run steps).catalog.types

/-- The types of sources have simple names without dots. -/
theorem isSimple_typesOf (trusted : List String) (suffix : String) (steps : List Step) :
    ∀ record ∈ (typesOf trusted suffix steps).records, IsSimple record.name :=
  fun _ member => (Analysis.isRooted_of_mem_run member).isSimple_name

/-- Where simple names differ, every edge between types of two components joins
these components: always for inheritance and realization, and for use if the type
used is called by its simple or full name. -/
theorem edges_join_components (trusted : List String) (suffix : String) (steps : List Step)
    (distinct : ((typesOf trusted suffix steps).records.map TypeRecord.name).Nodup)
    {source target : TypeRecord} {edge : Edge}
    (source_mem : source ∈ (typesOf trusted suffix steps).records)
    (target_mem : target ∈ (typesOf trusted suffix steps).records)
    (drawn : edge ∈ edgesOf ⟨typesOf trusted suffix steps⟩ source)
    (meets : edge.target = target.name) (apart : source.component ≠ target.component)
    (called : edge.kind = .uses →
      ∃ dependency ∈ source.dependencies, target.isCalled dependency = true) :
    source.component ∈ (components (typesOf trusted suffix steps)).map Component.name ∧
      ∀ component ∈ components (typesOf trusted suffix steps),
        component.name = source.component → target.component ∈ component.dependencies := by
  have rooted : ∀ record ∈ (typesOf trusted suffix steps).records, IsRooted record :=
    fun _ member => Analysis.isRooted_of_mem_run member
  constructor
  · exact (mem_map_name_components_iff _ _).2 ⟨source, source_mem, rfl⟩
  · intro component known own
    obtain ⟨dependency, refers, named⟩ :
        ∃ dependency ∈ source.dependencies, target.isCalled dependency = true := by
      by_cases kind : edge.kind = .uses
      · exact called kind
      · exact isCalled_of_edge (rooted source source_mem) drawn kind meets
    have found : (Index.mk (typesOf trusted suffix steps)).find? dependency = some target := by
      rw [Index.find?_eq_some_iff (fun record member => (rooted record member).isSimple_name)
        distinct]
      exact ⟨target_mem, named⟩
    exact component_mem_dependencies source_mem refers found apart known own

/-- A class that inherits from one type, realizes another one and uses a third
one, all of another package. -/
def walletTexts : List Step :=
  [.ofText "S0.java" ("package shop; class Wallet extends Purse implements Bag " ++
      "\x7b money.Coin c; \x7d"),
    .ofText "S1.java" ("package money; class Purse \x7b \x7d " ++
      "interface Bag \x7b \x7d class Coin \x7b \x7d")]

def walletTypes : TypeMap :=
  typesOf Java.defaultTrusted ".java" walletTexts

theorem edges_join_wallet :
    (walletTypes.records.map TypeRecord.name).Nodup ∧
      ∀ kind ∈ [EdgeKind.inherits, .realizes, .uses],
        ∃ source ∈ walletTypes.records, ∃ target ∈ walletTypes.records,
          ∃ edge ∈ edgesOf ⟨walletTypes⟩ source,
            edge.kind = kind ∧ edge.target = target.name ∧ source.component ≠ target.component ∧
              ∀ component ∈ components walletTypes,
                component.name = source.component →
                  target.component ∈ component.dependencies := by
  have distinct : (walletTypes.records.map TypeRecord.name).Nodup := by decide +kernel
  have drawn : ∀ kind ∈ [EdgeKind.inherits, .realizes, .uses],
      ∃ source ∈ walletTypes.records, ∃ target ∈ walletTypes.records,
        ∃ edge ∈ edgesOf ⟨walletTypes⟩ source,
          edge.kind = kind ∧ edge.target = target.name ∧ source.component ≠ target.component ∧
            ∃ dependency ∈ source.dependencies, target.isCalled dependency = true := by
    decide +kernel
  refine ⟨distinct, ?_⟩
  intro kind among
  obtain ⟨source, source_mem, target, target_mem, edge, edge_mem, same, meets, apart, called⟩ :=
    drawn kind among
  have joined := edges_join_components Java.defaultTrusted ".java" walletTexts distinct source_mem
    target_mem edge_mem meets apart fun _ => called
  exact ⟨source, source_mem, target, target_mem, edge, edge_mem, same, meets, apart, joined.2⟩

/-- A class that uses a type of a foreign package, and a type of the model with the
same simple name. -/
def foreignCoin : TypeMap :=
  typesOf Java.defaultTrusted ".java"
    [.ofText "S0.java" "package shop; class Wallet \x7b ext.lib.Coin c; \x7d",
      .ofText "S1.java" "package money; class Coin \x7b \x7d"]

/-- Use alone need not join components. -/
theorem edges_unjoined_foreignCoin :
    (foreignCoin.records.map TypeRecord.name).Nodup ∧
      ∃ source ∈ foreignCoin.records, ∃ target ∈ foreignCoin.records,
        ∃ edge ∈ edgesOf ⟨foreignCoin⟩ source,
          edge.target = target.name ∧ source.component ≠ target.component ∧
            ∀ component ∈ components foreignCoin,
              component.name = source.component → target.component ∉ component.dependencies := by
  decide +kernel

end JavaUml.Diagram
