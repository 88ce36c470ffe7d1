import JavaUml.Proofs.Diagram.ClassEdges
import JavaUml.Proofs.Diagram.Outline

/-!
# Reading class diagrams back

A class diagram is an outline.  Types without a package stand on its first level, and each
other type stands in the wrapper of its package.  Packages come in the order of their
names, and the types of one package as they were extracted.  So the types that are read
from a diagram are all types of the model, sorted by package without any change to the order
inside of a package.
-/

namespace JavaUml.Diagram

open JavaUml.Model

/-! ## Groups of a sorted list -/

/-- Items in the order of their keys.  Items with one key stay in the order they have. -/
def sortedBy {α : Type} (key : α → String) (items : List α) : List α :=
  items.mergeSort fun first second => decide (key first ≤ key second)

section Groups

variable {α : Type} {key : α → String}

theorem perm_sortedBy (items : List α) : (sortedBy key items).Perm items :=
  List.mergeSort_perm items _

theorem pairwise_sortedBy (items : List α) :
    (sortedBy key items).Pairwise fun first second => key first ≤ key second :=
  pairwise_mergeSort_key key items

/-- Sorting moves items of one key past others, but not past each other. -/
theorem filter_sortedBy (items : List α) (name : String) :
    (sortedBy key items).filter (key · == name) = items.filter (key · == name) := by
  have level : (items.filter (key · == name)).Pairwise
      fun first second => decide (key first ≤ key second) = true := by
    refine List.Pairwise.imp_of_mem (fun first_mem second_mem _ => ?_) (List.pairwise_of_forall
      (R := fun _ _ => True) fun _ _ => trivial)
    have first_key := beq_iff_eq.1 (List.mem_filter.1 first_mem).2
    have second_key := beq_iff_eq.1 (List.mem_filter.1 second_mem).2
    rw [first_key, second_key]
    exact decide_eq_true (String.le_refl name)
  have kept : (items.filter (key · == name)).Sublist (sortedBy key items) :=
    List.sublist_mergeSort (key_le_trans key) (key_le_total key) level List.filter_sublist
  have inside := kept.filter (key · == name)
  rw [List.filter_filter] at inside
  simp only [Bool.and_self] at inside
  -- The sorted items of the key have those of the list among them, and are no more.
  refine (inside.eq_of_length ?_).symm
  exact ((perm_sortedBy items).filter _).length_eq.symm

/-- In a sorted list the items of the least key come first. -/
theorem filter_append_filter {items : List α} {name : String}
    (ordered : items.Pairwise fun first second => key first ≤ key second)
    (least : ∀ item ∈ items, name ≤ key item) :
    items.filter (key · == name) ++ items.filter (key · != name) = items := by
  induction items with
  | nil => rfl
  | cons item rest ih =>
      rw [List.pairwise_cons] at ordered
      rw [List.forall_mem_cons] at least
      by_cases same : key item = name
      · rw [List.filter_cons_of_pos (by simpa using same),
          List.filter_cons_of_neg (by simpa using same), List.cons_append, ih ordered.2 least.2]
      · have others : ∀ other ∈ item :: rest, key other ≠ name := by
          rw [List.forall_mem_cons]
          refine ⟨same, fun other mem other_same => same ?_⟩
          exact String.le_antisymm (other_same ▸ ordered.1 other mem) least.1
        rw [List.filter_eq_nil_iff.2 (by simpa using others),
          List.filter_eq_self.2 (by simpa using others), List.nil_append]

/-- The groups of a sorted list make up the list. -/
theorem flatMap_filter_eq_self {names : List String} {items : List α}
    (ascending : names.Pairwise (· ≤ ·)) (distinct : names.Nodup)
    (ordered : items.Pairwise fun first second => key first ≤ key second)
    (known : ∀ item ∈ items, key item ∈ names) :
    names.flatMap (fun name => items.filter (key · == name)) = items := by
  induction names generalizing items with
  | nil =>
      cases items with
      | nil => rfl
      | cons item rest => cases known item (by simp)
  | cons name others ih =>
      rw [List.pairwise_cons] at ascending
      rw [List.nodup_cons] at distinct
      have least : ∀ item ∈ items, name ≤ key item := by
        intro item mem
        rcases List.mem_cons.1 (known item mem) with same | behind
        · exact same ▸ String.le_refl _
        · exact ascending.1 _ behind
      -- What the other groups hold is found behind the first group alone.
      have later : others.flatMap (fun other => items.filter (key · == other)) =
          others.flatMap fun other => (items.filter (key · != name)).filter (key · == other) := by
        refine List.flatMap_congr fun other mem => ?_
        rw [List.filter_filter]
        refine List.filter_congr fun item _ => ?_
        have differ : other ≠ name := fun same => distinct.1 (same ▸ mem)
        by_cases here : key item = other <;> simp [here, differ]
      have rest : others.flatMap (fun other => (items.filter (key · != name)).filter
          (key · == other)) = items.filter (key · != name) := by
        refine ih ascending.2 distinct.2 (ordered.filter _) fun item mem => ?_
        obtain ⟨among, differ⟩ := List.mem_filter.1 mem
        exact (List.mem_cons.1 (known item among)).resolve_left (bne_iff_ne.1 differ)
      rw [List.flatMap_cons, later, rest, filter_append_filter ordered least]

end Groups

theorem eraseDups_sublist (names : List String) : names.eraseDups.Sublist names := by
  induction names using List.reverseRecOn with
  | nil => simp
  | append_singleton names name ih =>
      rw [eraseDups_concat]
      split
      · exact ih.trans (List.sublist_append_left ..)
      · exact ih.append (List.Sublist.refl [name])

theorem mem_packages_iff {types : TypeMap} {package : String} :
    package ∈ packages types ↔ package ∈ types.records.map TypeRecord.package := by
  rw [packages, List.mem_eraseDups, sorted]
  exact (List.mergeSort_perm ..).mem_iff

/-- The records of the packages, one package after the other, are the records in the
order of their packages. -/
theorem flatMap_packages (types : TypeMap) :
    (packages types).flatMap (fun package =>
        types.records.filter fun record => record.package == package) =
      sortedBy TypeRecord.package types.records := by
  have groups := @flatMap_filter_eq_self _ TypeRecord.package (packages types)
    (sortedBy TypeRecord.package types.records)
    ((pairwise_sorted _).sublist (eraseDups_sublist _)) (nodup_eraseDups _)
    (pairwise_sortedBy _) fun record mem => mem_packages_iff.2
      (List.mem_map_of_mem ((perm_sortedBy _).mem_iff.1 mem))
  simpa only [filter_sortedBy] using groups

/-! ## The outline of a class diagram -/

/-- The lines of a type: its fields and its methods, with a separator if there are
both. -/
def memberTexts (record : TypeRecord) : List String :=
  record.fields.map Field.text ++
    (if record.fields ≠ [] ∧ record.methods ≠ [] then ["--"] else []) ++
    record.methods.map Method.text

/-- The heading of a type. -/
def headingOf (record : TypeRecord) : String :=
  record.kind ++ " " ++ record.name

/-- A type as an outline. -/
def recordOutline (record : TypeRecord) : Outline :=
  .braced (headingOf record) ((memberTexts record).map .line)

/-- The heading of the wrapper of a package. -/
def wrapperOf (package : String) : String :=
  "package \"" ++ package ++ "\""

/-- The types of a package as outlines. -/
def recordOutlines (types : TypeMap) (package : String) : List Outline :=
  (types.records.filter fun record => record.package == package).flatMap fun record =>
    [recordOutline record, .line ""]

/-- A package as an outline. -/
def packageOutline (types : TypeMap) (package : String) : List Outline :=
  if package = "" then recordOutlines types package
  else [.braced (wrapperOf package) (recordOutlines types package), .line ""]

/-- The outline of a class diagram. -/
def classOutline (types : TypeMap) : List Outline :=
  ["@startuml", "skinparam classAttributeIconSize 0", "skinparam classFontSize 12",
    "skinparam packageStyle rectangle", "left to right direction", ""].map .line ++
    (packages types).flatMap (packageOutline types) ++
    (["", "' Relationships"] ++ classEdges types ++ ["@enduml"]).map .line

theorem allLines_append (depth : Nat) (items others : List Outline) :
    allLines depth (items ++ others) = allLines depth items ++ allLines depth others := by
  simp only [allLines_eq_flatMap, List.flatMap_append]

theorem allLines_map_line {texts : List String} (depth : Nat)
    (some_text : ∀ text ∈ texts, text ≠ "") :
    allLines depth (texts.map .line) = texts.map (indent depth ++ ·) := by
  rw [allLines_eq_flatMap, List.flatMap_map, ← List.flatMap_pure_eq_map]
  refine List.flatMap_congr fun text mem => ?_
  rw [Outline.lines, indented_of_ne (some_text text mem)]
  rfl

theorem allLines_zero_map_line (texts : List String) : allLines 0 (texts.map .line) = texts := by
  rw [allLines_eq_flatMap, List.flatMap_map]
  simp [Outline.lines, indented_zero]

theorem fieldText_ne_empty (field : Field) : field.text ≠ "" := by
  simp [Field.text]

theorem methodText_ne_empty (method : Method) : method.text ≠ "" := by
  unfold Method.text
  dsimp only
  split <;> simp

theorem memberTexts_ne_empty (record : TypeRecord) : ∀ text ∈ memberTexts record, text ≠ "" := by
  intro text mem
  rw [memberTexts, List.mem_append, List.mem_append] at mem
  rcases mem with (mem | mem) | mem
  · obtain ⟨field, _, rfl⟩ := List.mem_map.1 mem
    exact fieldText_ne_empty field
  · split at mem
    · rw [List.mem_singleton.1 mem]
      decide
    · cases mem
  · obtain ⟨method, _, rfl⟩ := List.mem_map.1 mem
    exact methodText_ne_empty method

/-- The level of a type: types with a package stand in its wrapper. -/
def levelOf (package : String) : Nat :=
  if package = "" then 0 else 1

theorem classBlock_eq_lines (record : TypeRecord) :
    classBlock record = (recordOutline record).lines (levelOf record.package) := by
  have front : indent (levelOf record.package) = if record.package = "" then "" else "  " := by
    unfold levelOf
    split <;> rfl
  have separator : (if record.fields.isEmpty || record.methods.isEmpty then []
      else [indent (levelOf record.package) ++ "  --"]) =
      (if record.fields ≠ [] ∧ record.methods ≠ [] then ["--"] else []).map
        (indent (levelOf record.package + 1) ++ ·) := by
    rw [indent_succ]
    cases record.fields <;> cases record.methods <;> simp [String.append_assoc]
  rw [recordOutline, Outline.lines, allLines_map_line _ (memberTexts_ne_empty record),
    memberTexts, List.map_append, List.map_append, List.map_map, List.map_map, ← separator,
    indent_succ]
  simp only [classBlock, ← front, headingOf, Function.comp_def, List.append_assoc,
    List.nil_append, List.cons_append, String.append_assoc]

/-- The types of a package stand on its level, with a blank line behind each. -/
theorem flatMap_classBlock (types : TypeMap) (package : String) :
    (types.records.filter fun record => record.package == package).flatMap
        (fun record => classBlock record ++ [""]) =
      allLines (levelOf package) (recordOutlines types package) := by
  rw [allLines_eq_flatMap, recordOutlines, List.flatMap_assoc]
  refine List.flatMap_congr fun record mem => ?_
  have named : record.package = package := by simpa using (List.mem_filter.1 mem).2
  rw [classBlock_eq_lines, named]
  rfl

theorem packageBlock_eq_allLines (types : TypeMap) (package : String) :
    packageBlock types package = allLines 0 (packageOutline types package) := by
  unfold packageBlock packageOutline
  dsimp only
  rw [flatMap_classBlock]
  by_cases unnamed : package = ""
  · rw [if_pos unnamed, if_pos unnamed, levelOf, if_pos unnamed]
  · rw [if_neg unnamed, if_neg unnamed, levelOf, if_neg unnamed]
    simp [allLines, Outline.lines, wrapperOf, indent_zero, indented_zero, String.append_assoc]

/-- A class diagram is the text of its outline. -/
theorem classLines_eq_allLines (types : TypeMap) :
    classLines types = allLines 0 (classOutline types) := by
  have blocks : (packages types).flatMap (packageBlock types) =
      allLines 0 ((packages types).flatMap (packageOutline types)) := by
    rw [allLines_eq_flatMap, List.flatMap_assoc]
    refine List.flatMap_congr fun package _ => ?_
    rw [packageBlock_eq_allLines, allLines_eq_flatMap]
  rw [classOutline, allLines_append, allLines_append, allLines_zero_map_line,
    allLines_zero_map_line, ← blocks, classLines]
  simp only [List.append_assoc]

theorem classLines_ne_nil (types : TypeMap) : classLines types ≠ [] := by
  simp [classLines]

/-! ## Quiet records -/

/-- A record whose name, package and members have no line feeds and no braces. -/
structure IsQuietRecord (record : TypeRecord) : Prop where
  name : IsQuiet record.name
  package : IsQuiet record.package
  fields : ∀ field ∈ record.fields, IsQuiet field.text
  methods : ∀ method ∈ record.methods, IsQuiet method.text

instance (record : TypeRecord) : Decidable (IsQuietRecord record) :=
  decidable_of_iff
    (IsQuiet record.name ∧ IsQuiet record.package ∧ (∀ field ∈ record.fields, IsQuiet field.text) ∧
      ∀ method ∈ record.methods, IsQuiet method.text)
    ⟨fun ⟨name, package, fields, methods⟩ => ⟨name, package, fields, methods⟩,
      fun quiet => ⟨quiet.name, quiet.package, quiet.fields, quiet.methods⟩⟩

theorem areQuiet_map_line {texts : List String} (quiet : ∀ text ∈ texts, IsQuiet text) :
    areQuiet (texts.map .line) := by
  rw [areQuiet_iff]
  intro item mem
  obtain ⟨text, among, rfl⟩ := List.mem_map.1 mem
  exact quiet text among

theorem areQuiet_append {items others : List Outline} :
    areQuiet (items ++ others) ↔ areQuiet items ∧ areQuiet others := by
  simp only [areQuiet_iff, List.forall_mem_append]

theorem isQuiet_kind (record : TypeRecord) : IsQuiet record.kind := by
  unfold TypeRecord.kind
  split
  · decide
  · split
    · decide
    · split <;> decide

namespace IsQuietRecord

variable {record : TypeRecord}

theorem memberTexts (quiet : IsQuietRecord record) : ∀ text ∈ memberTexts record, IsQuiet text := by
  intro text mem
  rw [Diagram.memberTexts, List.mem_append, List.mem_append] at mem
  rcases mem with (mem | mem) | mem
  · obtain ⟨field, among, rfl⟩ := List.mem_map.1 mem
    exact quiet.fields field among
  · split at mem
    · rw [List.mem_singleton.1 mem]
      decide
    · cases mem
  · obtain ⟨method, among, rfl⟩ := List.mem_map.1 mem
    exact quiet.methods method among

theorem recordOutline (quiet : IsQuietRecord record) : (recordOutline record).IsQuiet := by
  constructor
  · exact isQuiet_append.2 ⟨isQuiet_append.2 ⟨isQuiet_kind record, by decide⟩, quiet.name⟩
  · exact areQuiet_map_line quiet.memberTexts

end IsQuietRecord

/-- Both ends of an edge are names of types of the model, whatever the names are. -/
theorem ends_of_mem_edgesOf {types : TypeMap} {record : TypeRecord} {edge : Edge}
    (drawn : edge ∈ edgesOf ⟨types⟩ record) :
    edge.source = record.name ∧ edge.target ∈ types.records.map TypeRecord.name := by
  obtain ⟨kind, source, target⟩ := edge
  simp only [edgesOf, List.mem_append, mem_map_edge_iff, List.mem_filter, usesTargets,
    List.mem_eraseDups, Bool.and_eq_true, hasSimpleName_iff] at drawn
  rcases drawn with (⟨_, source_eq, _, _, known⟩ | ⟨_, source_eq, _, known⟩) |
    ⟨_, source_eq, _, _, known⟩
  all_goals exact ⟨source_eq, known⟩

section Quiet

variable {types : TypeMap} (quiet : ∀ record ∈ types.records, IsQuietRecord record)

include quiet

theorem isQuiet_of_mem_classEdges : ∀ line ∈ classEdges types, IsQuiet line := by
  intro line mem
  obtain ⟨edge, drawn, rfl⟩ := List.mem_map.1 mem
  obtain ⟨record, member, drawn⟩ := List.mem_flatMap.1 drawn
  obtain ⟨source_eq, known⟩ := ends_of_mem_edgesOf drawn
  obtain ⟨other, other_member, target_eq⟩ := List.mem_map.1 known
  have source : IsQuiet edge.source := source_eq ▸ (quiet record member).name
  have target : IsQuiet edge.target := target_eq ▸ (quiet other other_member).name
  unfold Edge.text
  split
  · exact isQuiet_append.2 ⟨isQuiet_append.2 ⟨target, by decide⟩, source⟩
  · exact isQuiet_append.2 ⟨isQuiet_append.2 ⟨target, by decide⟩, source⟩
  · exact isQuiet_append.2 ⟨isQuiet_append.2 ⟨isQuiet_append.2 ⟨source, by decide⟩, target⟩,
      by decide⟩

theorem areQuiet_recordOutlines (package : String) : areQuiet (recordOutlines types package) := by
  rw [areQuiet_iff, recordOutlines, List.forall_mem_flatMap]
  intro record mem
  have member := (List.mem_filter.1 mem).1
  rw [← areQuiet_iff]
  exact ⟨(quiet record member).recordOutline, show IsQuiet "" by decide, trivial⟩

theorem areQuiet_packageOutline {package : String} (known : package ∈ packages types) :
    areQuiet (packageOutline types package) := by
  obtain ⟨record, member, package_eq⟩ := List.mem_map.1 (mem_packages_iff.1 known)
  have records := areQuiet_recordOutlines quiet package
  unfold packageOutline
  split
  · exact records
  · have named : IsQuiet package := package_eq ▸ (quiet record member).package
    have wrapper : IsQuiet (wrapperOf package) :=
      isQuiet_append.2 ⟨isQuiet_append.2 ⟨by decide, named⟩, by decide⟩
    exact ⟨⟨wrapper, records⟩, show IsQuiet "" by decide, trivial⟩

theorem areQuiet_classOutline : areQuiet (classOutline types) := by
  rw [classOutline, areQuiet_append, areQuiet_append]
  refine ⟨⟨areQuiet_map_line (by decide), ?_⟩, areQuiet_map_line ?_⟩
  · rw [areQuiet_iff, List.forall_mem_flatMap]
    exact fun package known => areQuiet_iff.1 (areQuiet_packageOutline quiet known)
  · rw [List.forall_mem_append, List.forall_mem_append]
    exact ⟨⟨by decide, isQuiet_of_mem_classEdges quiet⟩, by decide⟩

/-- The outline of a class diagram is read from its text. -/
theorem outline?_classDiagram :
    outline? (classDiagram types) = some (classOutline types ++ [.line ""]) := by
  have some_line := classLines_ne_nil types
  rw [classLines_eq_allLines] at some_line
  rw [classDiagram, classLines_eq_allLines]
  exact outline?_textOf (areQuiet_classOutline quiet) some_line

theorem isBalanced_classDiagram : IsBalanced (classDiagram types).toList := by
  rw [classDiagram, toList_textOf (classLines_ne_nil types), classLines_eq_allLines]
  exact isBalanced_allLines 0 _ (areQuiet_classOutline quiet)

end Quiet

/-! ## Blocks and wrappers -/

/-- The package that a heading wraps. -/
def wrapped? (heading : String) : Option String :=
  ((heading.toList.dropPrefix? "package \"".toList).bind (·.dropSuffix? ['"'])).map String.ofList

/-- A block as it stands in a diagram: the packages that it is wrapped in, its heading,
and the lines in its braces. -/
structure Block where
  wrappers : List String
  heading : String
  members : List String
  deriving DecidableEq, Repr

/-- The text of an outline that is a line. -/
def Outline.text? : Outline → Option String
  | .line text => some text
  | .braced _ _ => none

mutual

/-- The blocks in an outline, also those inside of other blocks. -/
def Outline.blocks (wrappers : List String) : Outline → List Block
  | .line _ => []
  | .braced heading inside =>
      match wrapped? heading with
      | some package => allBlocks (wrappers ++ [package]) inside
      | none => ⟨wrappers, heading, inside.filterMap Outline.text?⟩ :: allBlocks wrappers inside

/-- The blocks in outlines, from the first line to the last. -/
def allBlocks (wrappers : List String) : List Outline → List Block
  | [] => []
  | item :: rest => item.blocks wrappers ++ allBlocks wrappers rest

end

mutual

/-- The packages that are wrapped in an outline. -/
def Outline.wrappers : Outline → List String
  | .line _ => []
  | .braced heading inside => (wrapped? heading).toList ++ allWrappers inside

/-- The packages that are wrapped in outlines, one for each wrapper. -/
def allWrappers : List Outline → List String
  | [] => []
  | item :: rest => item.wrappers ++ allWrappers rest

end

theorem allBlocks_eq_flatMap (wrappers : List String) (items : List Outline) :
    allBlocks wrappers items = items.flatMap (Outline.blocks wrappers) := by
  induction items with
  | nil => rfl
  | cons item rest ih => rw [allBlocks, ih, List.flatMap_cons]

theorem allWrappers_eq_flatMap (items : List Outline) :
    allWrappers items = items.flatMap Outline.wrappers := by
  induction items with
  | nil => rfl
  | cons item rest ih => rw [allWrappers, ih, List.flatMap_cons]

theorem allBlocks_map_line (wrappers : List String) (texts : List String) :
    allBlocks wrappers (texts.map .line) = [] := by
  simp [allBlocks_eq_flatMap, List.flatMap_map, Outline.blocks]

theorem allWrappers_map_line (texts : List String) : allWrappers (texts.map .line) = [] := by
  simp [allWrappers_eq_flatMap, List.flatMap_map, Outline.wrappers]

theorem wrapped?_wrapperOf (package : String) : wrapped? (wrapperOf package) = some package := by
  have front : (wrapperOf package).toList = "package \"".toList ++ (package.toList ++ ['"']) := by
    simp [wrapperOf]
  have back : (package.toList ++ ['"']).dropSuffix? ['"'] = some package.toList :=
    List.dropSuffix?_eq_some_iff.2 ⟨_, rfl, beq_self_eq_true _⟩
  rw [wrapped?, front, List.dropPrefix?_append_of_beq _ (beq_self_eq_true _), Option.bind_some,
    back, Option.map_some, String.ofList_toList]

theorem wrapped?_eq_none {heading : String} (apart : heading.toList.head? ≠ some 'p') :
    wrapped? heading = none := by
  have unwrapped : heading.toList.dropPrefix? "package \"".toList = none := by
    rw [Option.eq_none_iff_forall_ne_some]
    intro rest cut
    obtain ⟨front, heading_eq, same⟩ := List.dropPrefix?_eq_some_iff.1 cut
    apply apart
    rw [heading_eq, beq_iff_eq.1 same]
    rfl
  rw [wrapped?, unwrapped]
  rfl

/-- No type is taken for a package, whatever its name. -/
theorem wrapped?_headingOf (record : TypeRecord) : wrapped? (headingOf record) = none := by
  apply wrapped?_eq_none
  have kinds : ∀ kind ∈ ["enum", "interface", "abstract class", "class"], ∀ name : String,
      (kind ++ " " ++ name).toList.head? ≠ some 'p' := by
    simp
  apply kinds
  unfold TypeRecord.kind
  split
  · decide
  · split
    · decide
    · split <;> decide

/-- The packages that a type is wrapped in. -/
def wrappersOf (package : String) : List String :=
  if package = "" then [] else [package]

/-- The block of a record: the heading with its kind and name, in the wrapper of its
package if it has one, and its members. -/
def blockOf (record : TypeRecord) : Block :=
  ⟨wrappersOf record.package, record.kind ++ " " ++ record.name, memberTexts record⟩

theorem blocks_recordOutline (wrappers : List String) (record : TypeRecord) :
    (recordOutline record).blocks wrappers =
      [⟨wrappers, headingOf record, memberTexts record⟩] := by
  have texts : ((memberTexts record).map Outline.line).filterMap Outline.text? =
      memberTexts record := by
    simp [List.filterMap_map, Function.comp_def, Outline.text?]
  rw [recordOutline, Outline.blocks, wrapped?_headingOf, allBlocks_map_line, texts]

theorem allBlocks_recordOutlines (types : TypeMap) (package : String) :
    allBlocks (wrappersOf package) (recordOutlines types package) =
      (types.records.filter fun record => record.package == package).map blockOf := by
  rw [allBlocks_eq_flatMap, recordOutlines, List.flatMap_assoc, ← List.flatMap_pure_eq_map]
  refine List.flatMap_congr fun record mem => ?_
  have named : record.package = package := by simpa using (List.mem_filter.1 mem).2
  rw [List.flatMap_cons, List.flatMap_singleton, blocks_recordOutline, Outline.blocks, ← named]
  rfl

theorem allBlocks_packageOutline (types : TypeMap) (package : String) :
    allBlocks [] (packageOutline types package) =
      (types.records.filter fun record => record.package == package).map blockOf := by
  rw [← allBlocks_recordOutlines, packageOutline, wrappersOf]
  by_cases unnamed : package = ""
  · rw [if_pos unnamed, if_pos unnamed]
  · rw [if_neg unnamed, if_neg unnamed]
    simp [allBlocks, Outline.blocks, wrapped?_wrapperOf]

theorem wrappers_recordOutline (record : TypeRecord) : (recordOutline record).wrappers = [] := by
  rw [recordOutline, Outline.wrappers, wrapped?_headingOf, allWrappers_map_line]
  rfl

theorem allWrappers_recordOutlines (types : TypeMap) (package : String) :
    allWrappers (recordOutlines types package) = [] := by
  rw [allWrappers_eq_flatMap, recordOutlines, List.flatMap_assoc, List.flatMap_eq_nil_iff]
  intro record _
  rw [List.flatMap_cons, List.flatMap_singleton, wrappers_recordOutline, Outline.wrappers]
  rfl

theorem allWrappers_packageOutline (types : TypeMap) (package : String) :
    allWrappers (packageOutline types package) = wrappersOf package := by
  rw [packageOutline, wrappersOf]
  by_cases unnamed : package = ""
  · rw [if_pos unnamed, if_pos unnamed, allWrappers_recordOutlines]
  · rw [if_neg unnamed, if_neg unnamed]
    simp [allWrappers, Outline.wrappers, wrapped?_wrapperOf, allWrappers_recordOutlines]

/-- The items that are read from a class diagram: its outline, and the blank behind the
last line feed. -/
def classItems (types : TypeMap) : List Outline :=
  classOutline types ++ [.line ""]

/-- What is not found in lines is found in the packages. -/
theorem flatMap_classItems {β : Type} {find : Outline → List β}
    (lines : ∀ text, find (.line text) = []) (types : TypeMap) :
    (classItems types).flatMap find =
      (packages types).flatMap fun package => (packageOutline types package).flatMap find := by
  have none_in : ∀ texts : List String, (texts.map Outline.line).flatMap find = [] := by
    intro texts
    rw [List.flatMap_map, List.flatMap_eq_nil_iff]
    exact fun text _ => lines text
  rw [classItems, classOutline, List.flatMap_append, List.flatMap_append, List.flatMap_append,
    none_in, none_in, List.flatMap_singleton, lines, List.flatMap_assoc, List.nil_append,
    List.append_nil, List.append_nil]

/-- The blocks of a class diagram are those of the records in the order of their
packages. -/
theorem allBlocks_classItems (types : TypeMap) :
    allBlocks [] (classItems types) = (sortedBy TypeRecord.package types.records).map blockOf := by
  have lines : ∀ text, Outline.blocks [] (.line text) = [] := fun _ => by rw [Outline.blocks]
  rw [allBlocks_eq_flatMap, flatMap_classItems lines, ← flatMap_packages, List.map_flatMap]
  refine List.flatMap_congr fun package _ => ?_
  rw [← allBlocks_eq_flatMap, allBlocks_packageOutline]

/-- Each package with a name has one wrapper. -/
theorem allWrappers_classItems (types : TypeMap) :
    allWrappers (classItems types) = (packages types).filter (· ≠ "") := by
  have lines : ∀ text, Outline.wrappers (.line text) = [] := fun _ => by rw [Outline.wrappers]
  rw [allWrappers_eq_flatMap, flatMap_classItems lines]
  simp only [← allWrappers_eq_flatMap, allWrappers_packageOutline]
  induction packages types with
  | nil => rfl
  | cons package rest ih =>
      rw [List.flatMap_cons, ih, wrappersOf, List.filter_cons]
      by_cases unnamed : package = "" <;> simp [unnamed]

/-- The blocks that are read from a class diagram are those of the records of the model,
one for each: in the order of their packages, and in the order of the model inside of a
package.  A block has one wrapper around it, or none for the unnamed package, and every
package with a name is wrapped once.  Braces are balanced. -/
theorem class_blocks_read (types : TypeMap)
    (quiet : ∀ record ∈ types.records, IsQuietRecord record) :
    ∃ items, outline? (classDiagram types) = some items ∧
      (∃ ordered : List TypeRecord, ordered.Perm types.records ∧
        (ordered.Pairwise fun first second => first.package ≤ second.package) ∧
        (∀ package : String, ordered.filter (·.package == package) =
          types.records.filter (·.package == package)) ∧
        allBlocks [] items = ordered.map blockOf) ∧
      ((allWrappers items).Nodup ∧
        ∀ package, package ∈ allWrappers items ↔
          package ≠ "" ∧ ∃ record ∈ types.records, record.package = package) ∧
      IsBalanced (classDiagram types).toList := by
  refine ⟨classItems types, outline?_classDiagram quiet, ?_, ⟨?_, fun package => ?_⟩,
    isBalanced_classDiagram quiet⟩
  · exact ⟨sortedBy TypeRecord.package types.records, perm_sortedBy _, pairwise_sortedBy _,
      filter_sortedBy _, allBlocks_classItems types⟩
  · rw [allWrappers_classItems]
    exact (nodup_eraseDups _).filter _
  · rw [allWrappers_classItems, List.mem_filter, mem_packages_iff, List.mem_map,
      decide_eq_true_iff, and_comm]

/-- Types of two packages and of none, with fields and methods, methods only and nothing in
their blocks.  The packages do not come in order. -/
def stallTypes : TypeMap :=
  .ofRecords
    [{ TypeRecord.named "Stall" with
        package := "shop"
        dependencies := ["Coin", "bank.Vault"]
        fields := [⟨"open", "boolean", .privateAccess⟩,
          ⟨"till", "Map<Coin, int[]>", .packageAccess⟩]
        methods := [⟨"sell", "Coin", .publicAccess, false, false, [⟨"count", "int"⟩]⟩] },
      TypeRecord.named "Coin",
      { TypeRecord.named "Vault" with
        package := "bank"
        isInterface := true
        methods := [⟨"lock", "void", .publicAccess, false, true, []⟩] },
      { TypeRecord.named "Crate" with package := "shop", isEnum := true }]

theorem class_blocks_stall :
    (∀ record ∈ stallTypes.records, IsQuietRecord record) ∧
      ∃ items, outline? (classDiagram stallTypes) = some items ∧
        allBlocks [] items =
          [⟨[], "class Coin", []⟩,
            ⟨["bank"], "interface Vault", ["+lock()"]⟩,
            ⟨["shop"], "class Stall",
              ["-open: boolean", "~till: Map<Coin, int[]>", "--", "+sell(count: int): Coin"]⟩,
            ⟨["shop"], "enum Crate", []⟩] ∧
        (allWrappers items).Nodup ∧ "shop" ∈ allWrappers items ∧ "" ∉ allWrappers items ∧
        IsBalanced (classDiagram stallTypes).toList := by
  have quiet : ∀ record ∈ stallTypes.records, IsQuietRecord record := by decide +kernel
  obtain ⟨items, read, ⟨ordered, perm, ascending, stable, blocks⟩, ⟨once, wrapped⟩, balanced⟩ :=
    class_blocks_read stallTypes quiet
  have known : ∀ record ∈ ordered, record.package ∈ ["", "bank", "shop"] := by
    intro record mem
    have among : ∀ record ∈ stallTypes.records, record.package ∈ ["", "bank", "shop"] := by
      decide +kernel
    exact among record (perm.mem_iff.1 mem)
  have groups := flatMap_filter_eq_self (by decide) (by decide) ascending known
  simp only [stable] at groups
  refine ⟨quiet, items, read, ?_, once, (wrapped "shop").2 (by decide +kernel),
    fun mem => ((wrapped "").1 mem).1 rfl, balanced⟩
  rw [blocks, ← groups]
  decide +kernel

end JavaUml.Diagram
