import JavaUml.Proofs.Diagram.UnitOrder
import JavaUml.Proofs.Resolve.BreadthFirst

/-!
# Inherited members are visible

A record keeps every implemented type of its declaration, and the last one of the
extended types.  Where simple names differ, following these clauses from one
declaration to the next therefore stays inside of the hierarchy, and members that
are declared anywhere on the way are found.
-/

namespace JavaUml.Resolve

open JavaUml.Model

section

variable {index : Index} {record : TypeRecord}

/-! ## Members of a hierarchy are found -/

/-- What goes on with a hierarchy gets it whole. -/
theorem value_ancestry_bind {α : Type} (next : List TypeRecord → Resolving α) :
    (ancestry index record >>= next).run.value = (next (hierarchy index record)).run.value :=
  rfl

/-- A field that is declared in a hierarchy has a type there. -/
theorem exists_fieldType? {holder : TypeRecord} {field : Field}
    (among : holder ∈ hierarchy index record) (declared : field ∈ holder.fields) :
    ∃ type, (fieldType? index record field.name).run.value = .ok (some type) := by
  have found : (((hierarchy index record).flatMap TypeRecord.fields).find?
      fun other => other.name == field.name).isSome :=
    List.find?_isSome.2 ⟨field, List.mem_flatMap.2 ⟨holder, among, declared⟩, beq_self_eq_true _⟩
  obtain ⟨nearest, nearest_eq⟩ := Option.isSome_iff_exists.1 found
  refine ⟨nearest.type, ?_⟩
  rw [fieldType?, value_ancestry_bind, fieldIn?, nearest_eq]
  rfl

theorem isSome_methodIn? {holder : TypeRecord} {method : Method}
    (declared : method ∈ holder.methods) (ordinary : method.isConstructor = false) (arity : Nat) :
    (methodIn? method.name arity holder).isSome := by
  have named : method ∈ methodsNamed method.name holder := by
    rw [methodsNamed, List.mem_filter]
    exact ⟨declared, by simp [ordinary]⟩
  have first : (methodsNamed method.name holder).head?.isSome := by
    rw [List.isSome_head?]
    exact List.ne_nil_of_mem named
  simp [methodIn?, Option.isSome_or, first]

/-- A method that is declared in a hierarchy is bound by its name, whatever the
number of arguments. -/
theorem exists_findMethod {holder : TypeRecord} {method : Method}
    (among : holder ∈ hierarchy index record) (declared : method ∈ holder.methods)
    (ordinary : method.isConstructor = false) (arity : Nat) :
    ∃ bound, (findMethod index record method.name arity).run.value = .ok bound := by
  have found : ((hierarchy index record).findSome? (methodIn? method.name arity)).isSome :=
    List.findSome?_isSome_iff.2 ⟨holder, among, isSome_methodIn? declared ordinary arity⟩
  obtain ⟨bound, bound_eq⟩ := Option.isSome_iff_exists.1 found
  refine ⟨bound, ?_⟩
  rw [findMethod, value_ancestry_bind, bound_eq]
  rfl

end

end JavaUml.Resolve

namespace JavaUml.Java

/-- The last part of a name in a package is the name. -/
theorem simpleName_nameIn (package : String) {name : String} (undotted : isDotted name = false) :
    simpleName (nameIn package name) = name := by
  rw [nameIn]
  split
  · exact simpleName_of_undotted undotted
  · have outside : ∀ c ∈ name.toList.reverse, (c != '.') = true := by
      intro c among
      rw [bne_iff_ne]
      rintro rfl
      rw [isDotted, List.contains_iff_mem.2 (List.mem_reverse.1 among)] at undotted
      cases undotted
    simp [simpleName, Text.afterLast, Text.beforeFirst, List.takeWhile_append_of_pos outside]

end JavaUml.Java

namespace JavaUml.Extract

open JavaUml.Java JavaUml.Model JavaUml.Diagram JavaUml.Resolve

/-! ## What a record keeps of its clauses -/

/-- The types that a declaration inherits from: the last one that it extends, and
all that it implements.  Only interfaces can extend more than one type. -/
def followedTypes (header : TypeHeader) : List TypeRef :=
  header.extended.getLast?.toList ++ header.implemented

theorem superclass_foldl_addExtended (record : TypeRecord) (types : List TypeRef) :
    (types.foldl addExtended record).superclass =
      (types.getLast?.map TypeRef.lastName).or record.superclass := by
  induction types using List.reverseRecOn with
  | nil => rfl
  | append_singleton types type _ =>
      rw [List.foldl_append, List.foldl_cons, List.foldl_nil, addExtended,
        (keeps_addDependency _ _).superclass_eq, List.getLast?_concat]
      rfl

theorem interfaces_foldl_addExtended (record : TypeRecord) (types : List TypeRef) :
    (types.foldl addExtended record).interfaces = record.interfaces := by
  induction types generalizing record with
  | nil => rfl
  | cons type rest ih =>
      rw [List.foldl_cons, ih, addExtended, (keeps_addDependency _ _).interfaces_eq]

theorem superclass_foldl_addImplemented (record : TypeRecord) (types : List TypeRef) :
    (types.foldl addImplemented record).superclass = record.superclass := by
  induction types generalizing record with
  | nil => rfl
  | cons type rest ih =>
      rw [List.foldl_cons, ih, addImplemented, (keeps_addDependency _ _).superclass_eq]
      unfold TypeRecord.addInterface
      split <;> rfl

theorem mem_interfaces_addImplemented (record : TypeRecord) (type : TypeRef) (name : String) :
    name ∈ (addImplemented record type).interfaces ↔
      name ∈ record.interfaces ∨ name = type.lastName := by
  rw [addImplemented, (keeps_addDependency _ _).interfaces_eq]
  unfold TypeRecord.addInterface
  split
  · rename_i known
    rw [List.contains_iff_mem] at known
    constructor
    · exact .inl
    · rintro (earlier | rfl)
      · exact earlier
      · exact known
  · simp

theorem mem_interfaces_foldl_addImplemented (record : TypeRecord) (types : List TypeRef)
    (name : String) :
    name ∈ (types.foldl addImplemented record).interfaces ↔
      name ∈ record.interfaces ∨ ∃ type ∈ types, type.lastName = name := by
  induction types generalizing record with
  | nil => simp
  | cons first rest ih =>
      rw [List.foldl_cons, ih, mem_interfaces_addImplemented, or_assoc, List.exists_mem_cons_iff,
        eq_comm]

/-- A declaration with the record that it gives. -/
structure Declaration where
  header : TypeHeader
  record : TypeRecord

/-- The declaration that a node is.  Annotation types give no record. -/
def declaration? (rules : UnitRules) : Node → Option Declaration
  | .type header parts constants members =>
      (record? rules (.type header parts constants members)).map (Declaration.mk header)
  | _ => none

theorem map_record_declaration? (rules : UnitRules) (node : Node) :
    (declaration? rules node).map Declaration.record = record? rules node := by
  cases node with
  | type header parts constants members =>
      rw [declaration?, Option.map_map]
      exact congrFun Option.map_id _
  | _ => rfl

section

variable {rules : UnitRules} {node : Node} {declaration : Declaration}

theorem exists_record?_of_declaration? (declared : declaration? rules node = some declaration) :
    ∃ parts constants members,
      record? rules (.type declaration.header parts constants members) =
        some declaration.record := by
  unfold declaration? at declared
  split at declared
  · obtain ⟨record, found, rfl⟩ := Option.map_eq_some_iff.1 declared
    exact ⟨_, _, _, found⟩
  · cases declared

theorem name_of_declaration? (declared : declaration? rules node = some declaration) :
    declaration.record.name = declaration.header.name.text := by
  obtain ⟨_, _, _, found⟩ := exists_record?_of_declaration? declared
  exact (name_package_of_record? found).1

/-- The superclass is the last one of the extended types. -/
theorem superclass_of_declaration? (declared : declaration? rules node = some declaration) :
    declaration.record.superclass = declaration.header.extended.getLast?.map TypeRef.lastName := by
  obtain ⟨_, _, _, found⟩ := exists_record?_of_declaration? declared
  rw [(keeps_of_record? found).superclass_eq, superclass_foldl_addImplemented,
    superclass_foldl_addExtended]
  exact Option.or_none

theorem mem_interfaces_of_declaration? (declared : declaration? rules node = some declaration)
    (name : String) :
    name ∈ declaration.record.interfaces ↔
      ∃ type ∈ declaration.header.implemented, type.lastName = name := by
  obtain ⟨_, _, _, found⟩ := exists_record?_of_declaration? declared
  rw [(keeps_of_record? found).interfaces_eq, mem_interfaces_foldl_addImplemented,
    interfaces_foldl_addExtended]
  exact or_iff_right List.not_mem_nil

theorem lastName_mem_supertypes (declared : declaration? rules node = some declaration)
    {type : TypeRef} (inherited : type ∈ followedTypes declaration.header)
    (named : type.lastName ≠ "") :
    type.lastName ∈ declaration.record.supertypes := by
  rcases List.mem_append.1 inherited with extended | implemented
  · have superclass : declaration.record.superclass = some type.lastName := by
      rw [superclass_of_declaration? declared, Option.mem_toList.1 extended, Option.map_some]
    simp [TypeRecord.supertypes, TypeRecord.superclass?, superclass, named]
  · exact List.mem_append_right _
      ((mem_interfaces_of_declaration? declared _).2 ⟨type, implemented, rfl⟩)

end

/-- The declarations of a unit. -/
def SourceUnit.declared (trusted : List String) (unit : SourceUnit) : List Declaration :=
  match unit.outcome with
  | .tree tree =>
      tree.declarations.filterMap (declaration? ⟨UnitNames.ofUnit tree, trusted, some unit.path⟩)
  | _ => []

/-- The declarations of the units that steps reach. -/
def declarationsBy (trusted : List String) (steps : List Step) : List Declaration :=
  (steps.flatMap (Step.units trusted false)).flatMap (SourceUnit.declared trusted)

theorem exists_declaration? {trusted : List String} {steps : List Step} {declaration : Declaration}
    (declared : declaration ∈ declarationsBy trusted steps) :
    ∃ rules node, declaration? rules node = some declaration := by
  obtain ⟨unit, -, among⟩ := List.mem_flatMap.1 declared
  unfold SourceUnit.declared at among
  split at among
  · obtain ⟨node, -, found⟩ := List.mem_filterMap.1 among
    exact ⟨_, node, found⟩
  · cases among

theorem map_record_declarationsBy (trusted : List String) (steps : List Step) :
    (declarationsBy trusted steps).map Declaration.record = committedBy trusted steps := by
  rw [declarationsBy, committedBy, committed, List.map_flatMap]
  congr 1
  funext unit
  obtain ⟨path, outcome⟩ := unit
  cases outcome with
  | tree tree =>
      simp [SourceUnit.declared, SourceUnit.verdict, Verdict.records, records, List.map_filterMap,
        map_record_declaration?]
  | _ => rfl

/-! ## From clauses to hierarchies -/

/-- Whether a declaration inherits from another one, by the name that a clause ends
with. -/
def Declaration.Inherits (declaration other : Declaration) : Prop :=
  ∃ type ∈ followedTypes declaration.header, type.lastName = other.header.name.text

section

variable {trusted : List String} {suffix : String} {steps : List Step}

/-- Where the simple names of declarations differ, so do the names of records. -/
theorem nodup_map_name_committedBy
    (distinct : ((declarationsBy trusted steps).map fun declaration =>
      declaration.header.name.text).Nodup) :
    ((committedBy trusted steps).map TypeRecord.name).Nodup := by
  have names : ((declarationsBy trusted steps).map fun declaration =>
      declaration.header.name.text) =
      ((declarationsBy trusted steps).map Declaration.record).map TypeRecord.name := by
    rw [List.map_map]
    refine List.map_congr_left fun declaration declared => ?_
    obtain ⟨rules, node, found⟩ := exists_declaration? declared
    exact (name_of_declaration? found).symm
  rwa [names, map_record_declarationsBy] at distinct

/-- Different simple names are enough for different full names, and so for every
record to be gathered. -/
theorem perm_typesOf_of_names
    (distinct : ((committedBy trusted steps).map TypeRecord.name).Nodup) :
    (typesOf trusted suffix steps).records.Perm (committedBy trusted steps) := by
  apply perm_typesOf
  refine List.Nodup.of_map simpleName ?_
  have names : ((committedBy trusted steps).map TypeRecord.fullName).map simpleName =
      (committedBy trusted steps).map TypeRecord.name := by
    rw [List.map_map]
    refine List.map_congr_left fun record among => ?_
    obtain ⟨unit, _, member⟩ := List.mem_flatMap.1 among
    exact simpleName_nameIn _ (SourceUnit.isRooted_of_mem member).isSimple_name.2
  rwa [names]

/-- A clause leads from the record of a declaration to the record of another one. -/
theorem record_mem_parents
    (distinct : ((typesOf trusted suffix steps).records.map TypeRecord.name).Nodup)
    {declaration other : Declaration} (declared : declaration ∈ declarationsBy trusted steps)
    (other_declared : other ∈ declarationsBy trusted steps)
    (gathered : other.record ∈ (typesOf trusted suffix steps).records)
    (inherits : declaration.Inherits other) :
    other.record ∈ parents ⟨typesOf trusted suffix steps⟩ declaration.record := by
  obtain ⟨type, among, last_eq⟩ := inherits
  obtain ⟨rules, node, found⟩ := exists_declaration? declared
  obtain ⟨_, _, other_found⟩ := exists_declaration? other_declared
  have named : type.lastName ≠ "" := last_eq ▸ other.header.name.text_ne_empty
  refine List.mem_filterMap.2 ⟨type.lastName, lastName_mem_supertypes found among named, ?_⟩
  rw [Index.find?_eq_some_iff (isSimple_typesOf trusted suffix steps) distinct]
  exact ⟨gathered, by simp [TypeRecord.isCalled, name_of_declaration? other_found, last_eq]⟩

end

/-- Where simple names differ, the record of every declaration that another one
inherits from, directly or not, is in the hierarchy of the record of the other
one.  So its fields and methods are found there. -/
theorem inherited_members_visible (trusted : List String) (suffix : String) (steps : List Step)
    (distinct : ((declarationsBy trusted steps).map fun declaration =>
      declaration.header.name.text).Nodup)
    {declaration ancestor : Declaration} (declared : declaration ∈ declarationsBy trusted steps)
    (inherits : Relation.TransGen
      (fun first second => second ∈ declarationsBy trusted steps ∧ first.Inherits second)
      declaration ancestor) :
    let index := Index.mk (typesOf trusted suffix steps)
    ancestor.record ∈ hierarchy index declaration.record ∧
      (∀ field ∈ ancestor.record.fields, ∃ type,
        (fieldType? index declaration.record field.name).run.value = .ok (some type)) ∧
      ∀ method ∈ ancestor.record.methods, method.isConstructor = false → ∀ arity, ∃ bound,
        (findMethod index declaration.record method.name arity).run.value = .ok bound := by
  intro index
  have names := nodup_map_name_committedBy distinct
  have perm : index.types.records.Perm (committedBy trusted steps) := perm_typesOf_of_names names
  have gathered : ∀ {type : Declaration}, type ∈ declarationsBy trusted steps →
      type.record ∈ index.types.records := by
    intro type type_declared
    rw [perm.mem_iff, ← map_record_declarationsBy]
    exact List.mem_map_of_mem type_declared
  have reaches : Relation.ReflTransGen (fun type parent => parent ∈ parents index type)
      declaration.record ancestor.record ∧ ancestor ∈ declarationsBy trusted steps := by
    induction inherits with
    | single first =>
        exact ⟨.single (record_mem_parents ((perm.map _).nodup_iff.2 names) declared first.1
          (gathered first.1) first.2), first.1⟩
    | tail _ last ih =>
        exact ⟨ih.1.tail (record_mem_parents ((perm.map _).nodup_iff.2 names) ih.2 last.1
          (gathered last.1) last.2), last.1⟩
  have among := mem_hierarchy_of_reflTransGen (gathered declared) reaches.1
  exact ⟨among, fun field => exists_fieldType? among,
    fun method held ordinary => exists_findMethod among held ordinary⟩

/-- An enum that implements an interface of another package, which extends a foreign
interface and one of its own package. -/
def heirTexts : List Step :=
  [.ofText "S0.java" ("interface Priced \x7b int cost(); \x7d " ++
      "interface Listed extends java.io.Serializable, Priced \x7b \x7d"),
    .ofText "S1.java" "package shop; enum Fruit implements Listed \x7b PEAR \x7d"]

theorem inherited_members_heirTexts :
    let index := Index.mk (typesOf Java.defaultTrusted ".java" heirTexts)
    ∃ declaration ∈ declarationsBy Java.defaultTrusted heirTexts,
      ∃ ancestor ∈ declarationsBy Java.defaultTrusted heirTexts,
        declaration.record.name = "Fruit" ∧ ancestor.record.name = "Priced" ∧
          ancestor.record ∈ hierarchy index declaration.record ∧
          ∃ bound, (findMethod index declaration.record "cost" 0).run.value = .ok bound := by
  have distinct : ((declarationsBy Java.defaultTrusted heirTexts).map fun declaration =>
      declaration.header.name.text).Nodup := by decide +kernel
  obtain ⟨fruit, fruit_mem, listed, listed_mem, priced, priced_mem, fruit_eq, priced_eq,
      fruit_inherits, listed_inherits, method, held, name_eq, ordinary⟩ :
      ∃ fruit ∈ declarationsBy Java.defaultTrusted heirTexts,
        ∃ listed ∈ declarationsBy Java.defaultTrusted heirTexts,
          ∃ priced ∈ declarationsBy Java.defaultTrusted heirTexts,
            fruit.record.name = "Fruit" ∧ priced.record.name = "Priced" ∧
              (∃ type ∈ followedTypes fruit.header, type.lastName = listed.header.name.text) ∧
              (∃ type ∈ followedTypes listed.header, type.lastName = priced.header.name.text) ∧
              ∃ method ∈ priced.record.methods,
                method.name = "cost" ∧ method.isConstructor = false := by
    decide +kernel
  obtain ⟨among, -, methods⟩ := inherited_members_visible Java.defaultTrusted ".java" heirTexts
    distinct fruit_mem (.tail (.single ⟨listed_mem, fruit_inherits⟩) ⟨priced_mem, listed_inherits⟩)
  exact ⟨fruit, fruit_mem, priced, priced_mem, fruit_eq, priced_eq, among,
    name_eq ▸ methods method held ordinary 0⟩

/-- An interface that extends two others. -/
def mergedTexts : List Step :=
  [.ofText "S0.java" ("interface Priced \x7b int cost(); \x7d interface Named \x7b \x7d " ++
    "interface Listed extends Priced, Named \x7b \x7d")]

/-- The first one of two extended interfaces is lost, and its methods with it. -/
theorem inherited_members_lost :
    let index := Index.mk (typesOf Java.defaultTrusted ".java" mergedTexts)
    ((declarationsBy Java.defaultTrusted mergedTexts).map fun declaration =>
      declaration.header.name.text).Nodup ∧
    ∃ declaration ∈ declarationsBy Java.defaultTrusted mergedTexts,
      ∃ ancestor ∈ declarationsBy Java.defaultTrusted mergedTexts,
        (∃ type ∈ declaration.header.extended,
          type.lastName = ancestor.header.name.text) ∧
          ancestor.record ∉ hierarchy index declaration.record ∧
          ∃ method ∈ ancestor.record.methods, method.isConstructor = false ∧
            (findMethod index declaration.record method.name 0).run.value =
              .error (.noMethod method.name declaration.record.name) := by
  decide +kernel

end JavaUml.Extract
