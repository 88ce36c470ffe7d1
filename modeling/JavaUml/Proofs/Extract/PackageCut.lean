import JavaUml.Proofs.Extract.UnitCommit
import JavaUml.Proofs.Java.CallOrder

/-!
# Cutting a package into files

The first part says what the dependencies of a declaration are: the names that it
refers to, supertypes first and then the types of fields, methods and
constructors, without repetitions and without the names that are known to be
trusted.

So a unit decides about dependencies by one question only, whether a simple name
stands for a trusted type.  A name that another type of the package declares is
answered by the package if that type stands in the same unit, and by the library
otherwise.  Where both answers agree it makes no difference how the types of a
package are spread over units.
-/

namespace JavaUml.Extract

open JavaUml.Java JavaUml.Model

/-! ## The dependencies of a declaration -/

/-- A record of the given full name that has listed the names seen so far. -/
structure Lists (fullName : String) (seen : List String) (record : TypeRecord) : Prop where
  fullName_eq : record.fullName = fullName
  dependencies_eq : record.dependencies = seen.eraseDups

namespace Lists

variable {fullName : String} {seen : List String} {record : TypeRecord}

theorem addDependency (lists : Lists fullName seen record) (name : String) :
    Lists fullName (seen ++ [name]) (record.addDependency name) := by
  have known_iff : record.dependencies.contains name = true ↔ name ∈ seen := by
    rw [lists.dependencies_eq, List.contains_iff_mem, List.mem_eraseDups]
  unfold TypeRecord.addDependency
  by_cases known : name ∈ seen
  · rw [if_pos (known_iff.2 known)]
    refine ⟨lists.fullName_eq, ?_⟩
    rw [eraseDups_concat, if_pos known, lists.dependencies_eq]
  · rw [if_neg (mt known_iff.1 known)]
    refine ⟨lists.fullName_eq, ?_⟩
    rw [eraseDups_concat, if_neg known, ← lists.dependencies_eq]

/-- Items that bring names of their own bring them one item after the other. -/
theorem foldl {α : Type} {add : TypeRecord → α → TypeRecord} {names : α → List String}
    (step : ∀ {seen record} (item : α), Lists fullName seen record →
      Lists fullName (seen ++ names item) (add record item))
    (items : List α) (lists : Lists fullName seen record) :
    Lists fullName (seen ++ items.flatMap names) (items.foldl add record) := by
  induction items generalizing seen record with
  | nil => simpa using lists
  | cons item rest ih =>
      have more := ih (step item lists)
      rwa [List.append_assoc] at more

theorem addDependencies (lists : Lists fullName seen record) (rules : NameRules) (type : String) :
    Lists fullName (seen ++ (typeNames type).filter rules.isDependency)
      (addDependencies rules record type) := by
  have added := lists.foldl (fun name lists => lists.addDependency name)
    ((typeNames type).filter rules.isDependency)
  rwa [List.flatMap_singleton'] at added

theorem withMembers (lists : Lists fullName seen record) (fields : List Field)
    (methods : List Method) :
    Lists fullName seen { record with fields := fields, methods := methods } :=
  ⟨lists.fullName_eq, lists.dependencies_eq⟩

theorem addExtended (lists : Lists fullName seen record) (type : TypeRef) :
    Lists fullName (seen ++ [type.lastName]) (addExtended record type) :=
  have kept : Lists fullName seen { record with superclass := some type.lastName } :=
    ⟨lists.fullName_eq, lists.dependencies_eq⟩
  kept.addDependency type.lastName

theorem addImplemented (lists : Lists fullName seen record) (type : TypeRef) :
    Lists fullName (seen ++ [type.lastName]) (addImplemented record type) := by
  refine addDependency ?_ _
  unfold TypeRecord.addInterface
  split
  · exact lists
  · exact ⟨lists.fullName_eq, lists.dependencies_eq⟩

theorem addField (lists : Lists fullName seen record) (rules : NameRules)
    (modifiers : List String) (type : TypeRef) (names : List String) :
    Lists fullName (seen ++ (typeNames type.text).filter rules.isDependency)
      (addField rules record modifiers type names) :=
  (lists.addDependencies rules type.text).withMembers _ _

theorem addMethod (lists : Lists fullName seen record) (rules : NameRules)
    (header : MethodHeader) (parameters : List Parameter) :
    Lists fullName
      (seen ++ (returnText header.returnType :: parameters.map Parameter.type).flatMap fun type =>
        (typeNames type).filter rules.isDependency)
      (addMethod rules record header parameters) :=
  (lists.foldl (fun type lists => lists.addDependencies rules type) _).withMembers _ _

theorem addConstructor (lists : Lists fullName seen record) (rules : NameRules)
    (header : MethodHeader) (parameters : List Parameter) :
    Lists fullName
      (seen ++ (parameters.map Parameter.type).flatMap fun type =>
        (typeNames type).filter rules.isDependency)
      (addConstructor rules record header parameters) :=
  (lists.foldl (fun type lists => lists.addDependencies rules type) _).withMembers _ _

theorem addIfConstant (lists : Lists fullName seen record) (constant : Node) :
    Lists fullName seen (addIfConstant record constant) := by
  unfold Extract.addIfConstant
  split
  · exact lists.withMembers _ _
  · exact lists

end Lists

/-- The kinds of members with types, in the order in which they are looked at. -/
inductive MemberKind where
  | field
  | method
  | constructor
  deriving DecidableEq

def MemberKind.all : List MemberKind :=
  [field, method, constructor]

/-- The kind of a member. -/
def memberKind? : Node → Option MemberKind
  | .field .. => some .field
  | .method header .. => some (if header.isConstructor then .constructor else .method)
  | _ => none

/-- The dependencies that a member brings if it is of the given kind. -/
def namesOf (rules : UnitRules) (typeVariables : List String) (kind : MemberKind)
    (member : Node) : List String :=
  if memberKind? member = some kind then
    (memberTypes typeVariables member).flatMap fun entry =>
      (typeNames entry.2).filter (rules.within entry.1).isDependency
  else []

namespace Lists

variable {fullName : String} {seen : List String} {record : TypeRecord}

theorem addIfField (lists : Lists fullName seen record) (rules : UnitRules)
    (typeVariables : List String) (member : Node) :
    Lists fullName (seen ++ namesOf rules typeVariables .field member)
      (addIfField rules typeVariables record member) := by
  cases member with
  | field modifiers type names parts =>
      simpa [namesOf, memberKind?, memberTypes, Extract.addIfField] using
        lists.addField (rules.within typeVariables) modifiers type names
  | method header annotations parameters body =>
      by_cases constructor : header.isConstructor <;>
        simpa [namesOf, memberKind?, Extract.addIfField, constructor] using lists
  | _ => simpa [namesOf, memberKind?, Extract.addIfField] using lists

theorem addIfMethod (lists : Lists fullName seen record) (rules : UnitRules)
    (typeVariables : List String) (member : Node) :
    Lists fullName (seen ++ namesOf rules typeVariables .method member)
      (addIfMethod rules typeVariables record member) := by
  cases member with
  | method header annotations parameters body =>
      by_cases constructor : header.isConstructor
      · simpa [namesOf, memberKind?, Extract.addIfMethod, constructor] using lists
      · simpa [namesOf, memberKind?, memberTypes, Extract.addIfMethod, constructor,
          List.flatMap_map] using
          lists.addMethod (rules.within (typeVariables ++ header.typeVariables)) header
            (parameters.filterMap parameter?)
  | _ => simpa [namesOf, memberKind?, Extract.addIfMethod] using lists

theorem addIfConstructor (lists : Lists fullName seen record) (rules : UnitRules)
    (typeVariables : List String) (member : Node) :
    Lists fullName (seen ++ namesOf rules typeVariables .constructor member)
      (addIfConstructor rules typeVariables record member) := by
  cases member with
  | method header annotations parameters body =>
      by_cases constructor : header.isConstructor
      · simpa [namesOf, memberKind?, memberTypes, Extract.addIfConstructor, constructor,
          List.flatMap_map] using
          lists.addConstructor (rules.within (typeVariables ++ header.typeVariables)) header
            (parameters.filterMap parameter?)
      · simpa [namesOf, memberKind?, Extract.addIfConstructor, constructor] using lists
  | _ => simpa [namesOf, memberKind?, Extract.addIfConstructor] using lists

theorem addMembers (lists : Lists fullName seen record) (rules : UnitRules)
    (typeVariables : List String) (members : List Node) :
    Lists fullName
      (seen ++ MemberKind.all.flatMap fun kind => members.flatMap (namesOf rules typeVariables kind))
      (addMembers rules typeVariables record members) := by
  have added := ((lists.foldl (fun member lists => lists.addIfField rules typeVariables member)
    members).foldl (fun member lists => lists.addIfMethod rules typeVariables member)
    members).foldl (fun member lists => lists.addIfConstructor rules typeVariables member) members
  simpa [MemberKind.all, Extract.addMembers] using added

end Lists

/-- The names that a declaration refers to as supertypes. -/
def heritage : Node → List String
  | .type header _ _ _ =>
      if header.kind = .annotationType then []
      else (header.extended ++ header.implemented).map TypeRef.lastName
  | _ => []

/-- The dependencies that the members of a declaration bring. -/
def memberNames (rules : UnitRules) : Node → List String
  | .type header _ _ members =>
      MemberKind.all.flatMap fun kind => members.flatMap (namesOf rules header.typeVariables kind)
  | _ => []

/-- What the record of a declaration lists: supertypes, fields, methods,
constructors. -/
theorem lists_of_record? {rules : UnitRules} {header : TypeHeader}
    {annotations constants members : List Node} {record : TypeRecord}
    (found : record? rules (.type header annotations constants members) = some record) :
    Lists (nameIn rules.names.package header.name.text)
      (heritage (.type header annotations constants members) ++
        memberNames rules (.type header annotations constants members))
      record := by
  rw [record?] at found
  split at found
  · cases found
  · rename_i kind
    cases found
    have start : Lists (nameIn rules.names.package header.name.text) []
        (startRecord rules header) := ⟨rfl, rfl⟩
    have extended := start.foldl (fun type lists => lists.addExtended type) header.extended
    have implemented := extended.foldl (fun type lists => lists.addImplemented type)
      header.implemented
    have complete := List.foldlRecOn constants addIfConstant implemented
      fun _ lists constant _ => lists.addIfConstant constant
    simpa [heritage, kind, memberNames, ← List.map_eq_flatMap] using
      complete.addMembers rules header.typeVariables members

/-! ## What a unit is asked about names -/

/-- The simple names in the text of a type that may stand for trusted types.  The
type variables in scope come with the text. -/
def plainNames (entry : List String × String) : List String :=
  (typeNames entry.2).filter fun name =>
    !primitiveNames.contains name && !entry.1.contains name && !isDotted name

/-- The simple names in the members of a declaration that may stand for trusted
types. -/
def mentioned : Node → List String
  | .type header _ _ members =>
      if header.kind = .annotationType then []
      else (members.flatMap (memberTypes header.typeVariables)).flatMap plainNames
  | _ => []

/-- Whether a simple name stands for a trusted type. -/
def UnitRules.trusts (rules : UnitRules) (name : String) : Bool :=
  (rules.names.qualify name).any (isTrusted rules.trusted)

theorem mem_plainNames_iff {entry : List String × String} {name : String} :
    name ∈ plainNames entry ↔ name ∈ typeNames entry.2 ∧ name ∉ primitiveNames ∧
      name ∉ entry.1 ∧ isDotted name = false := by
  simp [plainNames, and_assoc]

/-- Every other name is judged without the unit. -/
theorem isDependency_congr {rules others : UnitRules} (trusted_eq : rules.trusted = others.trusted)
    {entry : List String × String} {name : String} (among : name ∈ typeNames entry.2)
    (agree : name ∈ plainNames entry → rules.trusts name = others.trusts name) :
    (rules.within entry.1).isDependency name = (others.within entry.1).isDependency name := by
  have trusts_eq : name ∉ primitiveNames → name ∉ entry.1 → isDotted name = false →
      rules.trusts name = others.trusts name := fun primitive bound undotted =>
    agree (mem_plainNames_iff.2 ⟨among, primitive, bound, undotted⟩)
  unfold UnitRules.trusts at trusts_eq
  simp only [NameRules.isDependency, NameRules.fullName?, UnitRules.within]
  by_cases primitive : name ∈ primitiveNames
  · simp [primitive]
  by_cases bound : name ∈ entry.1
  · simp [bound]
  cases dotted : isDotted name with
  | true => simp [trusted_eq]
  | false => simp [trusts_eq primitive bound dotted]

theorem isDependency_of_mem_plainNames {rules : UnitRules} {entry : List String × String}
    {name : String} (among : name ∈ plainNames entry) (untrusted : rules.trusts name = false) :
    (rules.within entry.1).isDependency name = true := by
  obtain ⟨_, primitive, bound, undotted⟩ := mem_plainNames_iff.1 among
  unfold UnitRules.trusts at untrusted
  simp [NameRules.isDependency, NameRules.fullName?, UnitRules.within, primitive, bound, undotted,
    untrusted]

theorem memberNames_congr {rules others : UnitRules} (trusted_eq : rules.trusted = others.trusted)
    {header : TypeHeader} {annotations constants members : List Node}
    (kind : header.kind ≠ .annotationType)
    (agree : ∀ name ∈ mentioned (.type header annotations constants members),
      rules.trusts name = others.trusts name) :
    memberNames rules (.type header annotations constants members) =
      memberNames others (.type header annotations constants members) := by
  rw [mentioned, if_neg kind] at agree
  rw [memberNames, memberNames]
  apply List.flatMap_congr
  intro kind _
  apply List.flatMap_congr
  intro member member_mem
  unfold namesOf
  split
  · apply List.flatMap_congr
    intro entry entry_mem
    apply List.filter_congr
    intro name among
    apply isDependency_congr trusted_eq among
    intro plain
    exact agree name (List.mem_flatMap.2
      ⟨entry, List.mem_flatMap.2 ⟨member, member_mem, entry_mem⟩, plain⟩)
  · rfl

/-- The full name of a record with its dependencies. -/
def references (record : TypeRecord) : String × List String :=
  (record.fullName, record.dependencies)

theorem exists_record? (rules : UnitRules) {header : TypeHeader}
    {annotations constants members : List Node} (kind : header.kind ≠ .annotationType) :
    ∃ record, record? rules (.type header annotations constants members) = some record :=
  ⟨_, by rw [record?, if_neg kind]⟩

/-- Units of one package that trust the same names in a declaration list the same
dependencies for it. -/
theorem references_record?_congr {rules others : UnitRules} {node : Node}
    (package_eq : rules.names.package = others.names.package)
    (trusted_eq : rules.trusted = others.trusted)
    (agree : ∀ name ∈ mentioned node, rules.trusts name = others.trusts name) :
    (record? rules node).map references = (record? others node).map references := by
  cases node with
  | type header annotations constants members =>
      by_cases kind : header.kind = .annotationType
      · simp [record?, kind]
      · obtain ⟨record, found⟩ := exists_record? rules kind
        obtain ⟨other, other_found⟩ := exists_record? others kind
        have lists := lists_of_record? found
        have other_lists := lists_of_record? other_found
        rw [← memberNames_congr trusted_eq kind agree, ← package_eq] at other_lists
        rw [found, other_found, Option.map_some, Option.map_some, references, references,
          lists.fullName_eq, lists.dependencies_eq, other_lists.fullName_eq,
          other_lists.dependencies_eq]
  | _ => rfl

/-- A declaration depends on every supertype, and on every name in its members that
does not stand for a trusted type. -/
theorem exists_record?_of_refers {rules : UnitRules} {node : Node} {name : String}
    (refers : name ∈ heritage node ∨ name ∈ mentioned node ∧ rules.trusts name = false) :
    ∃ record, record? rules node = some record ∧ name ∈ record.dependencies := by
  cases node with
  | type header annotations constants members =>
      have kind : header.kind ≠ .annotationType := by
        intro annotation
        simp [heritage, mentioned, annotation] at refers
      obtain ⟨record, found⟩ := exists_record? rules kind
      refine ⟨record, found, ?_⟩
      rw [(lists_of_record? found).dependencies_eq, List.mem_eraseDups, List.mem_append]
      rcases refers with inherited | ⟨mentions, untrusted⟩
      · exact .inl inherited
      · right
        rw [mentioned, if_neg kind] at mentions
        obtain ⟨entry, entry_mem, plain⟩ := List.mem_flatMap.1 mentions
        obtain ⟨member, member_mem, among⟩ := List.mem_flatMap.1 entry_mem
        have named : name ∈ (typeNames entry.2).filter (rules.within entry.1).isDependency :=
          List.mem_filter.2
            ⟨(mem_plainNames_iff.1 plain).1, isDependency_of_mem_plainNames plain untrusted⟩
        -- A member with types is of some kind.
        obtain ⟨kind, kind_eq⟩ : ∃ kind, memberKind? member = some kind := by
          cases member with
          | field | method => exact ⟨_, rfl⟩
          | _ => cases among
        refine List.mem_flatMap.2 ⟨kind, by cases kind <;> simp [MemberKind.all], ?_⟩
        refine List.mem_flatMap.2 ⟨member, member_mem, ?_⟩
        rw [namesOf, if_pos kind_eq]
        exact List.mem_flatMap.2 ⟨entry, among, named⟩
  | _ => simp [heritage, mentioned] at refers

/-! ## Units of one package -/

/-- The names that types declare, nested ones included. -/
def declaredBy (types : List Node) : List String :=
  (preorderAll types).filterMap UnitNames.declaredName?

/-- The records of types, nested ones included. -/
def recordsIn (rules : UnitRules) (types : List Node) : List TypeRecord :=
  (preorderAll types).filterMap (record? rules)

/-- The library type that a simple name stands for unless something else is called
so. -/
def libraryName? (wildcards : List String) (name : String) : Option String :=
  if langNames.contains name then some ("java.lang." ++ name)
  else if utilNames.contains name && wildcards.contains "java.util" then
    some ("java.util." ++ name)
  else none

theorem recordsIn_around (rules : UnitRules) (before behind : List Node) (type : Node) :
    recordsIn rules (before ++ type :: behind) =
      recordsIn rules before ++ recordsIn rules [type] ++ recordsIn rules behind := by
  rw [← List.singleton_append, ← List.append_assoc]
  simp only [recordsIn, preorderAll_append, List.filterMap_append]

theorem mem_declaredBy_around_iff {before behind : List Node} {type : Node} {name : String} :
    name ∈ declaredBy (before ++ type :: behind) ↔
      name ∈ declaredBy (before ++ behind) ∨ name ∈ declaredBy [type] := by
  rw [← List.singleton_append]
  simp only [declaredBy, preorderAll_append, List.filterMap_append, List.mem_append]
  tauto

section Units

variable {trusted : List String} {path : Option String} {package : String} {imports : List Import}

theorem records_eq_recordsIn (types : List Node) :
    records trusted path ⟨package, [], imports, types⟩ =
      recordsIn ⟨.ofUnit ⟨package, [], imports, types⟩, trusted, path⟩ types := by
  rw [records, CompilationUnit.declarations, List.filterMap_filter, recordsIn, List.nil_append]
  apply List.filterMap_congr
  intro node _
  cases node <;> rfl

theorem mem_declared_ofUnit_iff {types : List Node} {name : String} :
    name ∈ (UnitNames.ofUnit ⟨package, [], imports, types⟩).declared ↔
      name ∈ declaredBy types := by
  rw [UnitNames.ofUnit, List.mem_eraseDups, CompilationUnit.declarations, List.filterMap_filter,
    declaredBy, List.nil_append, List.mem_filterMap, List.mem_filterMap]
  apply exists_congr
  rintro (_ | _) <;> rfl

/-- What a simple name stands for if it is not imported by name. -/
theorem trusts_ofUnit {types : List Node} {name : String}
    (unimported : Ordered.get? name (UnitNames.importsOf imports) = none) :
    UnitRules.trusts ⟨.ofUnit ⟨package, [], imports, types⟩, trusted, path⟩ name =
      if name ∈ declaredBy types then isTrusted trusted (nameIn package name)
      else (libraryName? (UnitNames.wildcardsOf imports) name).any (isTrusted trusted) := by
  have unimported' : Ordered.get? name
      (UnitNames.ofUnit ⟨package, [], imports, types⟩).imports = none := unimported
  have declared_iff := @mem_declared_ofUnit_iff package imports types name
  rw [UnitRules.trusts, UnitNames.qualify]
  dsimp only
  rw [unimported']
  dsimp only
  by_cases declared : name ∈ declaredBy types
  · rw [if_pos declared, if_pos (List.contains_iff_mem.2 (declared_iff.2 declared))]
    rfl
  · rw [if_neg declared, if_neg (mt List.contains_iff_mem.1 (mt declared_iff.1 declared))]
    rfl

/-- A unit trusts the same names of a declaration with other types around it and
without them, if it makes no difference for a name that these types declare whether
it stands for a type of the package or for one of the library. -/
theorem trusts_eq_alone {before behind : List Node} {type : Node} {ownPath : Option String}
    {name : String}
    (agree : name ∈ declaredBy (before ++ behind) → name ∉ declaredBy [type] →
      Ordered.get? name (UnitNames.importsOf imports) = none →
      isTrusted trusted (nameIn package name) =
        (libraryName? (UnitNames.wildcardsOf imports) name).any (isTrusted trusted)) :
    UnitRules.trusts ⟨.ofUnit ⟨package, [], imports, before ++ type :: behind⟩, trusted, path⟩
        name =
      UnitRules.trusts ⟨.ofUnit ⟨package, [], imports, [type]⟩, trusted, ownPath⟩ name := by
  cases imported : Ordered.get? name (UnitNames.importsOf imports) with
  | some full => simp [UnitRules.trusts, UnitNames.qualify, UnitNames.ofUnit, imported]
  | none =>
      have declared_iff := @mem_declaredBy_around_iff before behind type name
      rw [trusts_ofUnit imported, trusts_ofUnit imported]
      by_cases own : name ∈ declaredBy [type]
      · rw [if_pos own, if_pos (declared_iff.2 (.inr own))]
      · by_cases others : name ∈ declaredBy (before ++ behind)
        · rw [if_neg own, if_pos (declared_iff.2 (.inl others)), agree others own imported]
        · rw [if_neg own, if_neg (by simp [declared_iff, own, others])]

end Units

/-- A type has the same dependencies in a unit with other types of its package and in
a unit of its own, and it depends on each of the others that it refers to.  Names
that it mentions and only the others declare must be trusted as types of the package
exactly if they are trusted as types of the library. -/
theorem dependencies_of_cut (trusted : List String) (path ownPath : Option String)
    (package : String) (imports : List Import) (before behind : List Node) (type : Node)
    (agree : ∀ node ∈ preorderAll [type], ∀ name ∈ mentioned node,
      name ∈ declaredBy (before ++ behind) → name ∉ declaredBy [type] →
      Ordered.get? name (UnitNames.importsOf imports) = none →
      isTrusted trusted (nameIn package name) =
        (libraryName? (UnitNames.wildcardsOf imports) name).any (isTrusted trusted)) :
    let whole : CompilationUnit := ⟨package, [], imports, before ++ type :: behind⟩
    let alone : CompilationUnit := ⟨package, [], imports, [type]⟩
    let rules : UnitRules := ⟨.ofUnit whole, trusted, path⟩
    records trusted path whole =
        recordsIn rules before ++ recordsIn rules [type] ++ recordsIn rules behind ∧
      (recordsIn rules [type]).map references =
        (records trusted ownPath alone).map references ∧
      ∀ node ∈ preorderAll [type], ∀ name ∈ heritage node ++ mentioned node,
        name ∈ declaredBy (before ++ behind) →
        Ordered.get? name (UnitNames.importsOf imports) = none →
        isTrusted trusted (nameIn package name) = false →
        ∃ record ∈ recordsIn rules [type],
          record? rules node = some record ∧ name ∈ record.dependencies := by
  intro whole alone rules
  refine ⟨?_, ?_, ?_⟩
  · rw [records_eq_recordsIn, recordsIn_around]
  · rw [records_eq_recordsIn, recordsIn, recordsIn, List.map_filterMap, List.map_filterMap]
    apply List.filterMap_congr
    intro node node_mem
    apply references_record?_congr
    · rfl
    · rfl
    · intro name mentions
      exact trusts_eq_alone (agree node node_mem name mentions)
  · intro node node_mem name referred declared unimported untrusted
    have refers : name ∈ heritage node ∨ name ∈ mentioned node ∧ rules.trusts name = false := by
      rcases List.mem_append.1 referred with inherited | mentions
      · exact .inl inherited
      · right
        refine ⟨mentions, ?_⟩
        rw [trusts_ofUnit unimported, if_pos (mem_declaredBy_around_iff.2 (.inl declared)),
          untrusted]
    obtain ⟨record, found, depends⟩ := exists_record?_of_refers refers
    exact ⟨record, List.mem_filterMap.2 ⟨node, node_mem, found⟩, found, depends⟩

/-! ## Wallets -/

/-- A class of the given name that extends the given types and has fields of others. -/
def classOf (name : Word) (extended fields : List Word) : Node :=
  let type (word : Word) : TypeRef := .mk [.mk word []] 0
  .type ⟨.classType, [], name, [], extended.map type, []⟩ [] []
    (fields.map fun word => .field [] (type word) ["held"] [])

def coinWord : Word := ⟨"Coin", by decide, by decide⟩

def purseWord : Word := ⟨"Purse", by decide, by decide⟩

def walletWord : Word := ⟨"Wallet", by decide, by decide⟩

def dateWord : Word := ⟨"Date", by decide, by decide⟩

/-- A wallet that extends a purse and holds a coin and a date, in a unit between the
other two. -/
theorem dependencies_wallet :
    let wallet := classOf walletWord [purseWord] [coinWord, dateWord]
    let purse := classOf purseWord [] []
    let coin := classOf coinWord [] []
    let imports : List Import := [⟨"java.util", false, true⟩]
    let rules : UnitRules :=
      ⟨.ofUnit ⟨"shop", [], imports, [purse] ++ wallet :: [coin]⟩, defaultTrusted, some "Shop.java"⟩
    (∃ name ∈ mentioned wallet, name ∈ declaredBy ([purse] ++ [coin]) ∧
        name ∉ declaredBy [wallet]) ∧
      (recordsIn rules [wallet]).map references =
        (records defaultTrusted (some "Wallet.java") ⟨"shop", [], imports, [wallet]⟩).map references ∧
      (recordsIn rules [wallet]).map references = [("shop.Wallet", ["Purse", "Coin"])] := by
  intro wallet purse coin imports rules
  refine ⟨by decide +kernel, ?_, by decide +kernel⟩
  exact (dependencies_of_cut defaultTrusted (some "Shop.java") (some "Wallet.java") "shop" imports
    [purse] [coin] wallet (by decide +kernel)).2.1

/-- The dependencies that a run over texts has gathered for a type. -/
def gathered (texts : List String) (name : String) : Option (List String) :=
  let run := (Analysis.start defaultTrusted ".java").run (texts.map (.ofText "S.java"))
  (run.catalog.types.get? name).map TypeRecord.dependencies

/-- In a trusted package it matters where the other type stands. -/
theorem dependencies_trusted_package :
    gathered ["package java.util.x; class A \x7b B b; \x7d class B \x7b \x7d"] "java.util.x.A" =
        some [] ∧
      gathered ["package java.util.x; class A \x7b B b; \x7d",
        "package java.util.x; class B \x7b \x7d"] "java.util.x.A" = some ["B"] := by
  decide +kernel

end JavaUml.Extract
