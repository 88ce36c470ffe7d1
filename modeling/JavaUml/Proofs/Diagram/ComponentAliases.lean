import JavaUml.Proofs.Diagram.UnitOrder
import JavaUml.Proofs.Java.PackageName
import JavaUml.Proofs.Text.Splitting

/-!
# Reading component diagrams back

An edge of a component diagram is a line of five words: two aliases with an arrow
between them, and what the edge says.  No other line of the diagram is such a line, so
the edges can be read back from it, and they are the dependencies of the components
with aliases in place of names.

Aliases are names with underscores for dots and without parentheses.  No package of
Java text has parentheses in its name, and none is called like the alias of the unnamed
package.  So two aliases are the same only if two names differ in nothing but dots and
underscores; where there are no such names, the edges give the dependencies back.
-/

namespace JavaUml.Diagram

open JavaUml.Model JavaUml.Java JavaUml.Extract

/-! ## Reading one line -/

/-- The two aliases of an edge. -/
def edgeOf? (line : String) : Option (String × String) :=
  match Text.split ' ' line with
  | [source, arrow, target, colon, label] =>
      if arrow = "..>" ∧ colon = ":" ∧ label = "uses" then some (source, target) else none
  | _ => none

/-- A line whose second word is no arrow is no edge. -/
theorem edgeOf?_eq_none {line : String} {first second : List Char} {others : List (List Char)}
    (words : Text.splitAt ' ' line.toList = first :: second :: others)
    (different : second ≠ "..>".toList) : edgeOf? line = none := by
  unfold edgeOf? Text.split
  rw [words, List.map_cons, List.map_cons]
  split
  · rename_i same
    rw [if_neg]
    rintro ⟨arrow, -, -⟩
    simp only [List.cons.injEq] at same
    apply different
    rw [← arrow, ← same.2.1, String.toList_ofList]
  · rfl

/-- The line between two aliases is read as such. -/
theorem edgeOf?_edge {source target : String} (source_free : ' ' ∉ source.toList)
    (target_free : ' ' ∉ target.toList) :
    edgeOf? (source ++ " ..> " ++ target ++ " : uses") = some (source, target) := by
  have words : Text.splitAt ' ' (source ++ " ..> " ++ target ++ " : uses").toList =
      [source.toList, "..>".toList, target.toList, ":".toList, "uses".toList] := by
    have line_eq : (source ++ " ..> " ++ target ++ " : uses").toList =
        source.toList ++ ' ' :: ("..>".toList ++ ' ' :: (target.toList ++
          ' ' :: (":".toList ++ ' ' :: "uses".toList))) := by
      simp
    rw [line_eq, Text.splitAt_append_cons source_free, Text.splitAt_append_cons (by decide),
      Text.splitAt_append_cons target_free, Text.splitAt_append_cons (by decide),
      Text.splitAt_eq_singleton (by decide)]
  rw [edgeOf?, Text.split, words]
  simp

/-! ## Reading a diagram -/

theorem edgeOf?_indented {line : String} (indented : [' ', ' '] <+: line.toList) :
    edgeOf? line = none := by
  obtain ⟨text, line_eq⟩ := indented
  have words : Text.splitAt ' ' line.toList = [] :: [] :: Text.splitAt ' ' text := by
    simp [← line_eq, Text.splitAt]
  exact edgeOf?_eq_none words (by decide)

theorem edgeOf?_heading (name own : String) :
    edgeOf? ("component \"" ++ name ++ "\" as " ++ own ++ " <<component>> \x7b") = none := by
  obtain ⟨word, pieces, behind⟩ := Text.exists_splitAt_cons ' ' '"' (by decide)
    (name ++ "\" as " ++ own ++ " <<component>> \x7b").toList
  have line_eq : ("component \"" ++ name ++ "\" as " ++ own ++ " <<component>> \x7b").toList =
      "component".toList ++ ' ' :: '"' ::
        (name ++ "\" as " ++ own ++ " <<component>> \x7b").toList := by
    simp
  apply edgeOf?_eq_none
  · rw [line_eq, Text.splitAt_append_cons (by decide), behind]
  · simp

theorem edgeOf?_lollipop {own : String} (free : ' ' ∉ own.toList) (name : String) :
    edgeOf? (own ++ " -up- () " ++ name) = none := by
  have line_eq : (own ++ " -up- () " ++ name).toList =
      own.toList ++ ' ' :: ("-up-".toList ++ ' ' :: ("() " ++ name).toList) := by
    simp
  apply edgeOf?_eq_none
  · rw [line_eq, Text.splitAt_append_cons free, Text.splitAt_append_cons (by decide)]
  · decide

/-- Nothing in the box of a component is an edge. -/
theorem filterMap_componentBlock {component : Component}
    (free : ' ' ∉ (aliasOf component.name).toList) :
    (componentBlock component).filterMap edgeOf? = [] := by
  have provided : ∀ name, edgeOf? ("  interface " ++ name) = none :=
    fun name => edgeOf?_indented (by simp)
  have counted : ∀ count, edgeOf? ("  [Classes: " ++ count ++ "]") = none :=
    fun count => edgeOf?_indented (by simp)
  have fixed : ∀ line ∈ ["  [Provided Interfaces]", "", "\x7d"], edgeOf? line = none := by decide
  rw [List.filterMap_eq_nil_iff]
  intro line mem
  simp only [componentBlock, List.mem_append, List.mem_singleton, List.mem_map] at mem
  rcases mem with ((((rfl | listed) | classes) | rfl) | ⟨name, _, rfl⟩) | rfl
  · exact edgeOf?_heading ..
  · split at listed
    · cases listed
    · simp only [List.mem_append, List.mem_singleton, List.mem_map] at listed
      rcases listed with (rfl | ⟨name, _, rfl⟩) | rfl
      · exact fixed _ (by simp)
      · exact provided name
      · exact fixed _ (by simp)
  · split at classes
    · cases classes
    · rw [List.mem_singleton.1 classes]
      exact counted _
  · exact fixed _ (by simp)
  · exact edgeOf?_lollipop free name
  · exact fixed _ (by simp)

/-- The edges of a component lead from its alias to those of its targets. -/
theorem filterMap_componentEdges {names : List String} {component : Component}
    (free : ' ' ∉ (aliasOf component.name).toList)
    (targets_free : ∀ name ∈ names, ' ' ∉ (aliasOf name).toList) :
    (componentEdges names component).filterMap edgeOf? =
      ((sorted component.dependencies).filter names.contains).map
        (Prod.map aliasOf aliasOf ∘ (component.name, ·)) := by
  rw [componentEdges, List.filterMap_map]
  have read : ∀ target ∈ (sorted component.dependencies).filter names.contains,
      edgeOf? (aliasOf component.name ++ " ..> " ++ aliasOf target ++ " : uses") =
        some (aliasOf component.name, aliasOf target) := by
    intro target among
    have known : target ∈ names := List.contains_iff_mem.1 (List.mem_filter.1 among).2
    exact edgeOf?_edge free (targets_free target known)
  rw [← List.filterMap_eq_map]
  refine List.filterMap_congr fun target among => ?_
  simp only [Function.comp_apply, Prod.map_apply]
  exact read target among

/-- The pairs that the edges of a diagram stand for, in its order. -/
def edgePairs (components : List Component) : List (String × String) :=
  (inOrder components).flatMap fun component =>
    ((sorted component.dependencies).filter (components.map Component.name).contains).map
      (component.name, ·)

theorem filterMap_componentLines {components : List Component}
    (free : ∀ component ∈ components, ' ' ∉ (aliasOf component.name).toList) :
    (componentLines components).filterMap edgeOf? =
      (edgePairs components).map (Prod.map aliasOf aliasOf) := by
  have heads : ∀ line ∈ ["@startuml", "skinparam componentStyle rectangle",
      "skinparam component \x7b", "  BackgroundColor<<component>> LightBlue",
      "  BorderColor DarkBlue", "  FontSize 12", "\x7d", "left to right direction", ""],
      edgeOf? line = none := by decide
  have middle : ∀ line ∈ ["", "' Component Dependencies"], edgeOf? line = none := by decide
  have foot : ∀ line ∈ ["@enduml"], edgeOf? line = none := by decide
  have ordered : ∀ component, component ∈ inOrder components ↔ component ∈ components :=
    fun component => (List.mergeSort_perm components _).mem_iff
  have blocks : ((inOrder components).flatMap componentBlock).filterMap edgeOf? = [] := by
    rw [List.filterMap_flatMap, List.flatMap_eq_nil_iff]
    exact fun component mem => filterMap_componentBlock (free component ((ordered component).1 mem))
  rw [componentLines]
  simp only [List.filterMap_append, List.filterMap_eq_nil_iff.2 heads, blocks,
    List.filterMap_eq_nil_iff.2 middle, List.filterMap_eq_nil_iff.2 foot, List.nil_append,
    List.append_nil]
  rw [List.filterMap_flatMap, edgePairs, List.map_flatMap]
  refine List.flatMap_congr fun component mem => ?_
  rw [List.map_map]
  apply filterMap_componentEdges (free component ((ordered component).1 mem))
  intro target among
  obtain ⟨other, other_mem, rfl⟩ := List.mem_map.1 among
  exact free other other_mem

/-! ## The pairs are the dependencies -/

section

variable {types : TypeMap}

theorem mem_edgePairs_iff (pair : String × String) :
    pair ∈ edgePairs (components types) ↔
      ∃ component ∈ components types,
        component.name = pair.1 ∧ pair.2 ∈ component.dependencies := by
  obtain ⟨source, target⟩ := pair
  simp only [edgePairs, List.mem_flatMap, List.mem_map, List.mem_filter, Prod.mk.injEq]
  constructor
  · rintro ⟨component, mem, _, ⟨among, _⟩, rfl, rfl⟩
    exact ⟨component, (List.mergeSort_perm ..).mem_iff.1 mem, rfl,
      (List.mergeSort_perm ..).mem_iff.1 among⟩
  · rintro ⟨component, mem, rfl, among⟩
    -- A dependency is the component of a type, and so one of the components shown.
    obtain ⟨-, record, _, _, _, _, other, found, there⟩ :=
      ((describes_of_mem mem).mem_dependencies_iff target).1 among
    have shown_mem : target ∈ (components types).map Component.name :=
      (mem_map_name_components_iff types target).2 ⟨other, Index.mem_of_find? found, there⟩
    exact ⟨component, (List.mergeSort_perm ..).mem_iff.2 mem, target,
      ⟨(List.mergeSort_perm ..).mem_iff.2 among, List.contains_iff_mem.2 shown_mem⟩, rfl, rfl⟩

/-- Edges join components that are shown. -/
theorem mem_names_of_mem_edgePairs {found : List Component} {pair : String × String}
    (mem : pair ∈ edgePairs found) :
    pair.1 ∈ found.map Component.name ∧ pair.2 ∈ found.map Component.name := by
  obtain ⟨component, among, pair_mem⟩ := List.mem_flatMap.1 mem
  obtain ⟨target, target_mem, rfl⟩ := List.mem_map.1 pair_mem
  exact ⟨List.mem_map_of_mem ((List.mergeSort_perm ..).mem_iff.1 among),
    List.contains_iff_mem.1 (List.mem_filter.1 target_mem).2⟩

theorem ne_of_mem_edgePairs {pair : String × String} (mem : pair ∈ edgePairs (components types)) :
    pair.1 ≠ pair.2 := by
  obtain ⟨component, known, own, among⟩ := (mem_edgePairs_iff pair).1 mem
  rw [← own]
  exact (((describes_of_mem known).mem_dependencies_iff pair.2).1 among).1.symm

theorem nodup_map_name_components (types : TypeMap) :
    ((components types).map Component.name).Nodup := by
  rw [map_name_components]
  exact nodup_eraseDups _

theorem nodup_edgePairs (types : TypeMap) : (edgePairs (components types)).Nodup := by
  have ordered : ((inOrder (components types)).map Component.name).Nodup :=
    ((List.mergeSort_perm (components types) _).map _).nodup_iff.2
      (nodup_map_name_components types)
  rw [edgePairs, List.nodup_flatMap]
  constructor
  · intro component mem
    refine List.Nodup.map (fun _ _ same => (Prod.mk.inj same).2) (List.Nodup.filter _ ?_)
    have known := (List.mergeSort_perm ..).mem_iff.1 mem
    rw [components_eq] at known
    obtain ⟨name, _, rfl⟩ := List.mem_map.1 known
    exact (List.mergeSort_perm ..).nodup_iff.2 (Component.isSet_ofPackage types name).dependencies
  · refine (List.pairwise_map.1 ordered).imp ?_
    intro component other differ pair mem other_mem
    obtain ⟨_, _, rfl⟩ := List.mem_map.1 mem
    obtain ⟨_, _, same⟩ := List.mem_map.1 other_mem
    exact differ (Prod.mk.inj same).1.symm

end

/-! ## Aliases -/

/-- A name with underscores for dots. -/
def underscored (name : String) : String :=
  String.ofList (name.toList.map fun c => if c = '.' then '_' else c)

/-- A component of types that are read from texts: a package, or the unnamed one. -/
def IsComponentName (name : String) : Prop :=
  name = defaultComponent ∨ name ≠ "" ∧ IsPackageName name

theorem aliasOf_defaultComponent : aliasOf defaultComponent = "default" := by
  decide

theorem isIdentifierPart_underscored {name : String} (named : IsPackageName name) :
    ∀ c ∈ (underscored name).toList, Text.isIdentifierPart c = true := by
  intro c mem
  rw [underscored, String.toList_ofList] at mem
  obtain ⟨original, among, rfl⟩ := List.mem_map.1 mem
  split
  · decide
  · rename_i other
    exact (named.eq_dot_or_isIdentifierPart among).resolve_left other

/-- Packages have no parentheses to lose. -/
theorem aliasOf_of_isPackageName {name : String} (named : IsPackageName name) :
    aliasOf name = underscored name := by
  have spelled := isIdentifierPart_underscored named
  rw [underscored, String.toList_ofList] at spelled
  rw [aliasOf, underscored, List.filter_eq_self.2]
  intro c mem
  have part := spelled c mem
  simp only [Bool.and_eq_true, bne_iff_ne]
  constructor
  · rintro rfl
    exact absurd part (by decide)
  · rintro rfl
    exact absurd part (by decide)

/-- No package has the alias of the unnamed one, because that is a reserved word. -/
theorem underscored_ne_default {name : String} (declared : name ≠ "") (named : IsPackageName name) :
    underscored name ≠ "default" := by
  intro same
  have chars : (name.toList.map fun c => if c = '.' then '_' else c) = "default".toList := by
    rw [← same, underscored, String.toList_ofList]
  have undotted : '.' ∉ name.toList := by
    intro dotted
    have underscore : '_' ∈ "default".toList := chars ▸ List.mem_map.2 ⟨'.', dotted, if_pos rfl⟩
    exact absurd underscore (by decide)
  have unchanged : (name.toList.map fun c => if c = '.' then '_' else c) = name.toList := by
    refine (List.map_congr_left fun c mem => ?_).trans (List.map_id _)
    refine if_neg ?_
    rintro rfl
    exact undotted mem
  refine named.not_reserved declared undotted ?_
  rw [String.toList_inj.1 (unchanged.symm.trans chars)]
  decide

theorem aliasOf_eq_iff {name other : String} (named : IsComponentName name)
    (other_named : IsComponentName other) :
    aliasOf name = aliasOf other ↔ underscored name = underscored other := by
  have apart : ∀ {package : String}, package ≠ "" → IsPackageName package →
      aliasOf defaultComponent ≠ aliasOf package ∧
        underscored defaultComponent ≠ underscored package := by
    intro package declared spelled
    constructor
    · rw [aliasOf_defaultComponent, aliasOf_of_isPackageName spelled]
      exact (underscored_ne_default declared spelled).symm
    · intro same
      have parenthesis : '(' ∈ (underscored package).toList := same ▸ by decide
      exact absurd (isIdentifierPart_underscored spelled _ parenthesis) (by decide)
  rcases named with rfl | ⟨declared, spelled⟩
  · rcases other_named with rfl | ⟨other_declared, other_spelled⟩
    · simp
    · have differ := apart other_declared other_spelled
      exact iff_of_false differ.1 differ.2
  · rcases other_named with rfl | ⟨other_declared, other_spelled⟩
    · have differ := apart declared spelled
      exact iff_of_false differ.1.symm differ.2.symm
    · rw [aliasOf_of_isPackageName spelled, aliasOf_of_isPackageName other_spelled]

theorem space_not_mem_aliasOf {name : String} (named : IsComponentName name) :
    ' ' ∉ (aliasOf name).toList := by
  rcases named with rfl | ⟨_, spelled⟩
  · decide
  · intro mem
    rw [aliasOf_of_isPackageName spelled] at mem
    exact absurd (isIdentifierPart_underscored spelled _ mem) (by decide)

/-! ## Runs -/

/-- A unit whose tree, if it has one, is read from a text. -/
def IsRead (unit : SourceUnit) : Prop :=
  ∀ tree, unit.outcome = .tree tree → ∃ text, parse text = .ok tree

theorem isRead_ofText (path text : String) : IsRead ⟨path, .ofText text⟩ := by
  intro tree outcome_eq
  refine ⟨text, ?_⟩
  unfold UnitOutcome.ofText UnitOutcome.ofParse at outcome_eq
  split at outcome_eq
  · cases outcome_eq
    assumption
  · cases outcome_eq
  · cases outcome_eq

theorem isPackageName_of_mem_verdict {trusted : List String} {isOpenEnded : Bool}
    {unit : SourceUnit} (read : IsRead unit) {record : TypeRecord}
    (mem : record ∈ (unit.verdict trusted isOpenEnded).records) : IsPackageName record.package := by
  unfold SourceUnit.verdict at mem
  split at mem
  · rename_i tree outcome_eq
    split at mem
    · cases mem
    · obtain ⟨node, _, found⟩ := List.mem_filterMap.1 mem
      obtain ⟨text, parsed⟩ := read tree outcome_eq
      cases node with
      | type header parts constants members =>
          rw [(name_package_of_record? found).2]
          exact isPackageName_of_parse parsed
      | _ => cases found
  all_goals cases mem

theorem isComponentName_component {record : TypeRecord} (named : IsPackageName record.package) :
    IsComponentName record.component := by
  unfold TypeRecord.component
  split
  · exact .inl rfl
  · rename_i declared
    exact .inr ⟨declared, named⟩

/-- The component that an alias stands for. -/
def nameOfAlias? (components : List Component) (short : String) : Option String :=
  (components.find? fun component => aliasOf component.name == short).map Component.name

theorem nameOfAlias?_aliasOf {components : List Component}
    (distinct : (components.map fun component => aliasOf component.name).Nodup) {name : String}
    (known : name ∈ components.map Component.name) :
    nameOfAlias? components (aliasOf name) = some name := by
  obtain ⟨component, mem, rfl⟩ := List.mem_map.1 known
  have found_eq : (components.find? fun other => aliasOf other.name == aliasOf component.name) =
      some component := by
    apply find?_eq_some_of_unique mem
    · exact beq_self_eq_true _
    · intro other other_mem called
      rw [beq_iff_eq] at called
      exact List.inj_on_of_nodup_map distinct other_mem mem called
  rw [nameOfAlias?, found_eq, Option.map_some]

/-- For types that are read from texts, the edges of the component diagram are the pairs
of components and dependencies, each once, with aliases in place of names.  Aliases
differ just where names differ in more than dots and underscores.  Then the pairs are read
back from the edges through the aliases, and no edge has one alias on both sides. -/
theorem component_edges_read (trusted : List String) (suffix : String) (steps : List Step)
    (read : ∀ unit ∈ steps.flatMap (Step.units trusted false), IsRead unit) :
    let found := components (typesOf trusted suffix steps)
    let edges := (componentLines found).filterMap edgeOf?
    ∃ pairs : List (String × String), pairs.Nodup ∧
      (∀ pair, pair ∈ pairs ↔
        ∃ component ∈ found, component.name = pair.1 ∧ pair.2 ∈ component.dependencies) ∧
      edges = pairs.map (Prod.map aliasOf aliasOf) ∧
      ((found.map fun component => aliasOf component.name).Nodup ↔
        (found.map fun component => underscored component.name).Nodup) ∧
      ((found.map fun component => underscored component.name).Nodup →
        edges.map (Prod.map (nameOfAlias? found) (nameOfAlias? found)) =
            pairs.map (Prod.map some some) ∧
          edges.Nodup ∧ ∀ edge ∈ edges, edge.1 ≠ edge.2) := by
  intro found edges
  have named : ∀ name ∈ found.map Component.name, IsComponentName name := by
    intro name mem
    obtain ⟨record, member, rfl⟩ := (mem_map_name_components_iff _ _).1 mem
    obtain ⟨unit, unit_mem, among⟩ :=
      List.mem_flatMap.1 (Analysis.mem_committed_of_mem_run member)
    exact isComponentName_component (isPackageName_of_mem_verdict (read unit unit_mem) among)
  have edges_eq : edges = (edgePairs found).map (Prod.map aliasOf aliasOf) :=
    filterMap_componentLines fun component mem =>
      space_not_mem_aliasOf (named _ (List.mem_map_of_mem mem))
  have distinct_iff : (found.map fun component => aliasOf component.name).Nodup ↔
      (found.map fun component => underscored component.name).Nodup := by
    simp only [List.Nodup, List.pairwise_map]
    refine List.Pairwise.iff_of_mem fun first_mem second_mem => not_congr ?_
    exact aliasOf_eq_iff (named _ (List.mem_map_of_mem first_mem))
      (named _ (List.mem_map_of_mem second_mem))
  refine ⟨edgePairs found, nodup_edgePairs _, mem_edgePairs_iff, edges_eq, distinct_iff, ?_⟩
  intro distinct
  rw [← distinct_iff] at distinct
  have inverse : ∀ pair ∈ edgePairs found, Prod.map (nameOfAlias? found) (nameOfAlias? found)
      (Prod.map aliasOf aliasOf pair) = Prod.map some some pair := by
    rintro ⟨source, target⟩ mem
    obtain ⟨source_mem, target_mem⟩ := mem_names_of_mem_edgePairs mem
    simp only [Prod.map_apply, nameOfAlias?_aliasOf distinct source_mem,
      nameOfAlias?_aliasOf distinct target_mem]
  have back : edges.map (Prod.map (nameOfAlias? found) (nameOfAlias? found)) =
      (edgePairs found).map (Prod.map some some) := by
    rw [edges_eq, List.map_map]
    exact List.map_congr_left inverse
  refine ⟨back, ?_, ?_⟩
  · apply List.Nodup.of_map (Prod.map (nameOfAlias? found) (nameOfAlias? found))
    rw [back]
    refine List.Nodup.map ?_ (nodup_edgePairs _)
    exact Prod.map_injective.2 ⟨Option.some_injective _, Option.some_injective _⟩
  · intro edge mem same
    rw [edges_eq] at mem
    obtain ⟨pair, pair_mem, rfl⟩ := List.mem_map.1 mem
    obtain ⟨source_mem, target_mem⟩ := mem_names_of_mem_edgePairs pair_mem
    have both := (nameOfAlias?_aliasOf distinct source_mem).symm.trans
      ((congrArg (nameOfAlias? found) same).trans (nameOfAlias?_aliasOf distinct target_mem))
    exact ne_of_mem_edgePairs pair_mem (Option.some.inj both)

/-- A package in another one, a package whose name has an underscore, and the unnamed
one. -/
def harborTexts : List Step :=
  [.ofText "Ship.java" "class Ship \x7b Cargo cargo; Dock dock; \x7d",
    .ofText "Cargo.java" "package harbor.goods; class Cargo \x7b \x7d",
    .ofText "Dock.java" "package harbor_site; class Dock \x7b Cargo last; Ship moored; \x7d"]

theorem component_edges_harbor :
    let found := components (typesOf Java.defaultTrusted ".java" harborTexts)
    let edges := (componentLines found).filterMap edgeOf?
    found.map Component.name = ["(default)", "harbor.goods", "harbor_site"] ∧
      edges.Nodup ∧ (∀ edge ∈ edges, edge.1 ≠ edge.2) ∧
      ("harbor_site", "harbor_goods") ∈ edges ∧ ("harbor_site", "default") ∈ edges ∧
      ∃ pairs : List (String × String), pairs.Nodup ∧
        (∀ pair, pair ∈ pairs ↔
          ∃ component ∈ found, component.name = pair.1 ∧ pair.2 ∈ component.dependencies) ∧
        edges.map (Prod.map (nameOfAlias? found) (nameOfAlias? found)) =
          pairs.map (Prod.map some some) := by
  intro found edges
  have read : ∀ unit ∈ harborTexts.flatMap (Step.units Java.defaultTrusted false), IsRead unit := by
    simp only [harborTexts, Step.ofText, Step.units, List.flatMap_cons, List.flatMap_nil,
      List.append_nil, List.singleton_append, List.forall_mem_cons]
    exact ⟨isRead_ofText _ _, isRead_ofText _ _, isRead_ofText _ _, by simp⟩
  have distinct : (found.map fun component => underscored component.name).Nodup := by
    decide +kernel
  have related : ∀ pair ∈ [("harbor_site", "harbor.goods"), ("harbor_site", "(default)")],
      ∃ component ∈ found, component.name = pair.1 ∧ pair.2 ∈ component.dependencies := by
    decide +kernel
  obtain ⟨pairs, nodup, mem_iff, edges_eq, _, back⟩ :=
    component_edges_read Java.defaultTrusted ".java" harborTexts read
  obtain ⟨same, edges_nodup, apart⟩ := back distinct
  have drawn : ∀ pair ∈ [("harbor_site", "harbor.goods"), ("harbor_site", "(default)")],
      Prod.map aliasOf aliasOf pair ∈ edges := by
    intro pair among
    have mem := List.mem_map_of_mem (f := Prod.map aliasOf aliasOf)
      ((mem_iff pair).2 (related pair among))
    rwa [← edges_eq] at mem
  have aliases : aliasOf "harbor_site" = "harbor_site" ∧ aliasOf "harbor.goods" = "harbor_goods" ∧
      aliasOf "(default)" = "default" := by decide
  simp only [List.forall_mem_cons, Prod.map_apply, aliases] at drawn
  exact ⟨by decide +kernel, edges_nodup, apart, drawn.1, drawn.2.1, pairs, nodup, mem_iff, same⟩

/-- Two packages whose names differ in a dot and an underscore. -/
def twinTexts : List Step :=
  [.ofText "X.java" "package a.b; class X \x7b Y y; \x7d",
    .ofText "Y.java" "package a_b; class Y \x7b \x7d"]

/-- Packages with one alias: the dependency between them is drawn as a loop. -/
theorem component_aliases_collide :
    let found := components (typesOf Java.defaultTrusted ".java" twinTexts)
    found.map Component.name = ["a.b", "a_b"] ∧
      ¬(found.map fun component => aliasOf component.name).Nodup ∧
      ("a_b", "a_b") ∈ (componentLines found).filterMap edgeOf? := by
  intro found
  have free : ∀ component ∈ found, ' ' ∉ (aliasOf component.name).toList := by decide +kernel
  have related : ("a.b", "a_b") ∈ edgePairs found :=
    (mem_edgePairs_iff _).2 (by decide +kernel)
  refine ⟨by decide +kernel, by decide +kernel, ?_⟩
  have aliases : aliasOf "a.b" = "a_b" ∧ aliasOf "a_b" = "a_b" := by decide
  have drawn := List.mem_map_of_mem (f := Prod.map aliasOf aliasOf) related
  rwa [← filterMap_componentLines free, Prod.map_apply, aliases.1, aliases.2] at drawn

end JavaUml.Diagram
