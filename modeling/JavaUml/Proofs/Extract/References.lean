import JavaUml.Proofs.Extract.Heritage
import JavaUml.Proofs.Extract.PackageCut
import JavaUml.Proofs.Java.TypePaths
import Mathlib.Data.List.Induction

/-!
# What the types of members bring

A member uses types: the type of a field, what a method returns and takes, what a
constructor takes.  Each use adds the names in its text that are not primitive, not bound
by a type variable and not known to be trusted.  The record of a declaration is made of
its supertypes and these uses alone, in the order in which they come.

Two things follow about dotted names.  A use adds nothing but paths exactly if its type is
tidy.  And a dotted name is its own full name, so no import has a say in it: it is a
dependency unless it starts with a trusted text as it is written.
-/

namespace JavaUml.Extract

open JavaUml.Java JavaUml.Model

/-! ## Uses -/

/-- A type that a member uses, with the type variables of its declaration and of the
member. -/
structure TypeUse where
  scope : List String
  type : TypeRef

def parameterType? : Node → Option TypeRef
  | .parameter _ type _ _ => some type
  | _ => none

/-- The types that a member uses, what a method returns before what it takes. -/
def usesOf (typeVariables : List String) : Node → List TypeUse
  | .field _ type _ _ => [⟨typeVariables, type⟩]
  | .method header _ parameters _ =>
      let returned := if header.isConstructor then [] else header.returnType.toList
      (returned ++ parameters.filterMap parameterType?).map fun type =>
        ⟨typeVariables ++ header.typeVariables, type⟩
  | _ => []

/-- The types that a declaration uses: fields, then methods, then constructors. -/
def declaredUses : Node → List TypeUse
  | .type header _ _ members =>
      MemberKind.all.flatMap fun kind =>
        (members.filter fun member => memberKind? member = some kind).flatMap
          (usesOf header.typeVariables)
  | _ => []

/-- Whether the full name of a name, if there is one, is primitive or starts with a
trusted text.  A dotted name is its own full name. -/
def UnitRules.IsKnownTrusted (rules : UnitRules) (name : String) : Prop :=
  ∃ full, (if isDotted name then some name else rules.names.qualify name) = some full ∧
    (full ∈ primitiveNames ∨ ∃ start ∈ rules.trusted, start.toList <+: full.toList)

/-- A use that brings a name as a dependency. -/
structure TypeUse.Brings (use : TypeUse) (rules : UnitRules) (name : String) : Prop where
  named : name ∈ typeNames use.type.text
  not_primitive : name ∉ primitiveNames
  unbound : name ∉ use.scope
  untrusted : ¬ rules.IsKnownTrusted name

theorem isTrusted_iff (trusted : List String) (name : String) :
    isTrusted trusted name = true ↔
      name ∈ primitiveNames ∨ ∃ start ∈ trusted, start.toList <+: name.toList := by
  simp [isTrusted]

theorem isDependency_iff (rules : UnitRules) (scope : List String) (name : String) :
    (rules.within scope).isDependency name = true ↔
      name ∉ primitiveNames ∧ name ∉ scope ∧ ¬ rules.IsKnownTrusted name := by
  have trusted_iff : ((rules.within scope).fullName? name).any (isTrusted rules.trusted) = true ↔
      rules.IsKnownTrusted name := by
    simp only [Option.any_eq_true, isTrusted_iff]
    rfl
  rw [← trusted_iff]
  simp [NameRules.isDependency, UnitRules.within, and_assoc]

/-- The names that a use brings, in order. -/
def TypeUse.brought (use : TypeUse) (rules : UnitRules) : List String :=
  (typeNames use.type.text).filter (rules.within use.scope).isDependency

theorem TypeUse.mem_brought_iff {use : TypeUse} {rules : UnitRules} {name : String} :
    name ∈ use.brought rules ↔ use.Brings rules name := by
  rw [brought, List.mem_filter, isDependency_iff]
  exact ⟨fun ⟨named, primitive, unbound, untrusted⟩ => ⟨named, primitive, unbound, untrusted⟩,
    fun brings => ⟨brings.named, brings.not_primitive, brings.unbound, brings.untrusted⟩⟩

theorem mem_dependencies_addDependencies_iff {rules : NameRules} {record : TypeRecord}
    {type name : String} :
    name ∈ (addDependencies rules record type).dependencies ↔
      name ∈ record.dependencies ∨ name ∈ (typeNames type).filter rules.isDependency := by
  unfold addDependencies
  generalize (typeNames type).filter rules.isDependency = added
  induction added generalizing record with
  | nil => simp
  | cons first rest ih =>
      rw [List.foldl_cons, ih, record.mem_dependencies_addDependency, List.mem_cons, or_assoc]

/-- What one use does to a record. -/
theorem TypeUse.mem_dependencies_iff (use : TypeUse) (rules : UnitRules) (record : TypeRecord)
    (name : String) :
    name ∈ (addDependencies (rules.within use.scope) record use.type.text).dependencies ↔
      name ∈ record.dependencies ∨ use.Brings rules name := by
  rw [mem_dependencies_addDependencies_iff, ← TypeUse.mem_brought_iff]
  rfl

/-! ## A record is made of uses -/

/-- The dots of a last parameter are no part of its names. -/
theorem map_typeNames_parameters (parameters : List Node) :
    ((parameters.filterMap parameter?).map fun parameter => typeNames parameter.type) =
      (parameters.filterMap parameterType?).map fun type => typeNames type.text := by
  induction parameters with
  | nil => rfl
  | cons parameter rest ih =>
      cases parameter with
      | parameter name type isVariadic annotations =>
          have same : typeNames (if isVariadic then type.text ++ "..." else type.text) =
              typeNames type.text := by
            cases isVariadic
            · rfl
            · exact typeNames_dots type.text
          simpa [parameter?, parameterType?, same] using ih
      | _ => simpa [List.filterMap_cons, parameter?, parameterType?] using ih

/-- A member brings what its uses bring.  A missing return type brings nothing. -/
theorem flatMap_memberTypes (rules : UnitRules) (typeVariables : List String) (member : Node) :
    ((memberTypes typeVariables member).flatMap fun entry =>
        (typeNames entry.2).filter (rules.within entry.1).isDependency) =
      (usesOf typeVariables member).flatMap fun use => use.brought rules := by
  cases member with
  | field modifiers type names parts => rfl
  | method header annotations parameters body =>
      let kept (names : List String) : List String :=
        names.filter (rules.within (typeVariables ++ header.typeVariables)).isDependency
      have taken : ((parameters.filterMap parameter?).map Parameter.type).flatMap
            (fun type => kept (typeNames type)) =
          (parameters.filterMap parameterType?).flatMap fun type => kept (typeNames type.text) := by
        simpa [List.flatMap_map] using
          congrArg (List.flatMap kept) (map_typeNames_parameters parameters)
      have returned : kept (typeNames (returnText header.returnType)) =
          header.returnType.toList.flatMap fun type => kept (typeNames type.text) := by
        cases header.returnType with
        | none =>
            have void_names : typeNames "void" = ["void"] := by decide +kernel
            simp [kept, returnText, void_names, NameRules.isDependency, primitiveNames]
        | some type => simp [returnText]
      cases constructor : header.isConstructor
      · simpa [memberTypes, usesOf, constructor, List.flatMap_map, TypeUse.brought] using
          congrArg₂ List.append returned taken
      · simpa [memberTypes, usesOf, constructor, List.flatMap_map, TypeUse.brought] using taken
  | _ => rfl

theorem memberNames_eq (rules : UnitRules) (declaration : Node) :
    memberNames rules declaration =
      (declaredUses declaration).flatMap fun use => use.brought rules := by
  cases declaration with
  | type header annotations constants members =>
      rw [memberNames, declaredUses, List.flatMap_assoc]
      refine List.flatMap_congr fun kind _ => ?_
      induction members with
      | nil => rfl
      | cons member rest ih =>
          by_cases same : memberKind? member = some kind
          · simp [namesOf, same, flatMap_memberTypes, ih]
          · simp [namesOf, same, ih]
  | _ => rfl

theorem mem_declaredUses_iff {header : TypeHeader} {annotations constants members : List Node}
    {use : TypeUse} :
    use ∈ declaredUses (.type header annotations constants members) ↔
      ∃ member ∈ members, use ∈ usesOf header.typeVariables member := by
  simp only [declaredUses, List.mem_flatMap, List.mem_filter, decide_eq_true_eq]
  constructor
  · rintro ⟨_, _, member, ⟨member_mem, _⟩, used⟩
    exact ⟨member, member_mem, used⟩
  · rintro ⟨member, member_mem, used⟩
    -- A member that uses types is of some kind.
    obtain ⟨kind, kind_eq⟩ : ∃ kind, memberKind? member = some kind := by
      cases member with
      | field | method => exact ⟨_, rfl⟩
      | _ => cases used
    exact ⟨kind, by cases kind <;> simp [MemberKind.all], member, ⟨member_mem, kind_eq⟩, used⟩

/-- The names that a declaration refers to, in order: its supertypes, and what the types
of its members bring. -/
def referred (rules : UnitRules) (declaration : Node) : List String :=
  heritage declaration ++ (declaredUses declaration).flatMap fun use => use.brought rules

theorem pairwise_idxOf_eraseDups (names : List String) :
    names.eraseDups.Pairwise fun earlier later => names.idxOf earlier < names.idxOf later := by
  induction names using List.reverseRecOn with
  | nil => simp
  | append_singleton names name ih =>
      have kept : names.eraseDups.Pairwise fun earlier later =>
          (names ++ [name]).idxOf earlier < (names ++ [name]).idxOf later := by
        refine ih.imp_of_mem fun {earlier later} earlier_mem later_mem before => ?_
        rwa [List.idxOf_append_of_mem (List.mem_eraseDups.1 earlier_mem),
          List.idxOf_append_of_mem (List.mem_eraseDups.1 later_mem)]
      rw [eraseDups_concat]
      split
      · exact kept
      · rename_i fresh
        refine List.pairwise_append.2 ⟨kept, List.pairwise_singleton _ _, ?_⟩
        intro earlier earlier_mem later later_mem
        obtain rfl := List.mem_singleton.1 later_mem
        rw [List.idxOf_append_of_mem (List.mem_eraseDups.1 earlier_mem),
          List.idxOf_append_of_notMem fresh]
        exact Nat.lt_add_right _ (List.idxOf_lt_length_of_mem (List.mem_eraseDups.1 earlier_mem))

/-- Each declaration of a unit but an annotation type has a record, and the record lists
what the declaration refers to. -/
theorem exists_record_of_declaration (trusted : List String) (path : Option String)
    {unit : CompilationUnit} {header : TypeHeader} {annotations constants members : List Node}
    (declared : Node.type header annotations constants members ∈ unit.declarations)
    (kind : header.kind ≠ .annotationType) :
    let rules : UnitRules := ⟨.ofUnit unit, trusted, path⟩
    ∃ record ∈ records trusted path unit,
      record? rules (.type header annotations constants members) = some record ∧
        record.dependencies =
          (referred rules (.type header annotations constants members)).eraseDups := by
  intro rules
  obtain ⟨record, found⟩ := exists_record? rules kind
  refine ⟨record, List.mem_filterMap.2 ⟨_, declared, found⟩, found, ?_⟩
  rw [(lists_of_record? found).dependencies_eq, memberNames_eq, referred]

theorem mem_referred_iff {rules : UnitRules} {header : TypeHeader}
    {annotations constants members : List Node} {name : String}
    (kind : header.kind ≠ .annotationType) :
    name ∈ referred rules (.type header annotations constants members) ↔
      (∃ type ∈ header.extended ++ header.implemented, type.lastName = name) ∨
        ∃ member ∈ members, ∃ use ∈ usesOf header.typeVariables member,
          use.Brings rules name := by
  rw [referred, List.mem_append, heritage, if_neg kind, List.mem_map, List.mem_flatMap]
  simp only [mem_declaredUses_iff, TypeUse.mem_brought_iff]
  refine or_congr_right ⟨?_, ?_⟩
  · rintro ⟨use, ⟨member, member_mem, used⟩, brings⟩
    exact ⟨member, member_mem, use, used, brings⟩
  · rintro ⟨member, member_mem, use, used, brings⟩
    exact ⟨use, ⟨member, member_mem, used⟩, brings⟩

/-- The dependencies of a declaration are its supertypes and the names that the types of its
members bring, each once and in the order of the first reference. -/
theorem dependencies_of_declaration (trusted : List String) (path : Option String)
    (unit : CompilationUnit) (header : TypeHeader) (annotations constants members : List Node)
    (declared : Node.type header annotations constants members ∈ unit.declarations)
    (kind : header.kind ≠ .annotationType) :
    let rules : UnitRules := ⟨.ofUnit unit, trusted, path⟩
    let declaration := Node.type header annotations constants members
    ∃ record ∈ records trusted path unit, record? rules declaration = some record ∧
      record.dependencies.Nodup ∧
      (record.dependencies.Pairwise fun earlier later =>
        (referred rules declaration).idxOf earlier < (referred rules declaration).idxOf later) ∧
      ∀ name, name ∈ record.dependencies ↔
        (∃ type ∈ header.extended ++ header.implemented, type.lastName = name) ∨
          ∃ member ∈ members, ∃ use ∈ usesOf header.typeVariables member,
            use.Brings rules name := by
  intro rules declaration
  obtain ⟨record, record_mem, found, dependencies_eq⟩ :=
    exists_record_of_declaration trusted path declared kind
  have inOrder := pairwise_idxOf_eraseDups (referred rules declaration)
  rw [← dependencies_eq] at inOrder
  refine ⟨record, record_mem, found, ?_, inOrder, fun name => ?_⟩
  · exact inOrder.imp fun {earlier later} before same => absurd before (by simp [same])
  · rw [dependencies_eq, List.mem_eraseDups]
    exact mem_referred_iff kind

/-! ### A till -/

def tillWord : Word := ⟨"Till", by decide, by decide⟩

def plainType (word : Word) : TypeRef :=
  .mk [.mk word []] 0

/-- A class `Till<D>` with two supertypes, a constructor, a generic method and a field. -/
def tillHeader : TypeHeader :=
  ⟨.classType, [], tillWord, ["D"], [plainType ⟨"Drawer", by decide, by decide⟩],
    [plainType ⟨"Shown", by decide, by decide⟩]⟩

def tillMembers : List Node :=
  let text := plainType ⟨"String", by decide, by decide⟩
  let coin := plainType coinWord
  let taken (word : Word) : Node := .parameter "taken" (plainType word) false []
  [.method ⟨true, [], [], none, "Till"⟩ [] [taken ⟨"Clerk", by decide, by decide⟩] [],
    .method ⟨false, [], ["U"], some coin, "count"⟩ []
      [taken ⟨"U", by decide, by decide⟩, taken ⟨"D", by decide, by decide⟩] [],
    .field [] (.mk [.mk ⟨"TreeMap", by decide, by decide⟩ [.exactly text, .exactly coin]] 0)
      ["held"] []]

def tillUnit : CompilationUnit :=
  ⟨"shop", [], [⟨"java.util.TreeMap", false, false⟩], [.type tillHeader [] [] tillMembers]⟩

theorem till_mem_declarations : Node.type tillHeader [] [] tillMembers ∈ tillUnit.declarations := by
  simp [tillUnit, CompilationUnit.declarations, preorderAll, Node.preorder]

/-- The field comes before the method, and the constructor last. -/
theorem dependencies_till :
    ∃ record ∈ records defaultTrusted none tillUnit,
      record.dependencies = ["Drawer", "Shown", "Coin", "Clerk"] ∧
        ∃ member ∈ tillMembers, ∃ use ∈ usesOf ["D"] member,
          use.Brings ⟨.ofUnit tillUnit, defaultTrusted, none⟩ "Clerk" := by
  obtain ⟨record, record_mem, found, _, _, mem_iff⟩ :=
    dependencies_of_declaration defaultTrusted none tillUnit tillHeader [] [] tillMembers
      till_mem_declarations (by decide)
  have listed : (record? ⟨.ofUnit tillUnit, defaultTrusted, none⟩
      (.type tillHeader [] [] tillMembers)).map TypeRecord.dependencies =
        some ["Drawer", "Shown", "Coin", "Clerk"] := by decide +kernel
  rw [found] at listed
  replace listed : record.dependencies = _ := Option.some.inj listed
  refine ⟨record, record_mem, listed, ?_⟩
  rcases (mem_iff "Clerk").1 (by simp [listed]) with ⟨type, inherited, same⟩ | brought
  · simp only [tillHeader, List.cons_append, List.nil_append, List.mem_cons, List.not_mem_nil,
      or_false] at inherited
    rcases inherited with rfl | rfl <;> exact absurd same (by decide)
  · exact brought

/-! ## Names that are paths -/

theorem isDottedPath_of_mem_primitiveNames {name : String} (primitive : name ∈ primitiveNames) :
    IsDottedPath name := by
  have named : primitiveNames.all (fun name =>
      !name.toList.isEmpty && name.toList.all TypeText.isNameChar) = true := by decide
  have own := List.all_eq_true.1 named name primitive
  simp only [Bool.and_eq_true, Bool.not_eq_true', List.isEmpty_eq_false_iff,
    List.all_eq_true] at own
  exact ⟨[name.toList], by simp, by simpa [TypeText.IsName] using own, by simp⟩

/-- The names in the text of a type are paths exactly if the type is tidy, and exactly then
its uses add nothing but paths to any record. -/
theorem names_are_paths_iff (type : TypeRef) (worded : type.IsWorded) (hasDots : Bool) :
    let text := type.text ++ if hasDots then "..." else ""
    ((∀ name ∈ typeNames text, IsDottedPath name) ↔ type.IsTidy) ∧
      ((∀ (rules : NameRules) (record : TypeRecord),
          (∀ name ∈ record.dependencies, IsDottedPath name) →
            ∀ name ∈ (addDependencies rules record text).dependencies, IsDottedPath name) ↔
        type.IsTidy) := by
  intro text
  have names_eq : typeNames text = typeNames type.text := by
    cases hasDots with
    | false => simp [text]
    | true => exact typeNames_dots type.text
  have paths_iff : (∀ name ∈ typeNames text, IsDottedPath name) ↔ type.IsTidy := by
    rw [names_eq]
    exact forall_isDottedPath_iff worded
  refine ⟨paths_iff, ?_, ?_⟩
  · intro kept
    refine paths_iff.1 fun name found => ?_
    by_cases primitive : name ∈ primitiveNames
    · exact isDottedPath_of_mem_primitiveNames primitive
    · -- Rules that trust nothing add every other name.
      let rules : NameRules := ⟨[], [], fun _ => none⟩
      have added : rules.isDependency name = true := by
        by_cases dotted : isDotted name = true <;>
          simp [rules, NameRules.isDependency, NameRules.fullName?, isTrusted, primitive, dotted]
      exact kept rules (.named "") (by simp [TypeRecord.named]) name
        (mem_dependencies_addDependencies_iff.2 (.inr (List.mem_filter.2 ⟨found, added⟩)))
  · intro tidy rules record paths name mem
    rcases mem_dependencies_addDependencies_iff.1 mem with earlier | added
    · exact paths name earlier
    · exact paths_iff.2 tidy name (List.mem_filter.1 added).1

/-- The type `Outer<A>.Inner` with the given arguments at its end. -/
def outerInner (arguments : List TypeArgument) : TypeRef :=
  .mk [.mk ⟨"Outer", by decide, by decide⟩ [.exactly (plainType ⟨"A", by decide, by decide⟩)],
    .mk ⟨"Inner", by decide, by decide⟩ arguments] 0

def argumentB : TypeArgument :=
  .exactly (plainType ⟨"B", by decide, by decide⟩)

theorem isWorded_plainType {word : Word} (plain : word.IsPlain) : (plainType word).IsWorded :=
  .mk (by simp) (by simpa [Segment.name] using plain) (by simp [Segment.arguments])

theorem isTidy_plainType (word : Word) : (plainType word).IsTidy :=
  .mk (by simp [Segment.arguments]) (by simp [Segment.arguments])

theorem isWorded_outerInner {arguments : List TypeArgument}
    (inside : ∀ argument ∈ arguments, ∀ type ∈ argument.type?, type.IsWorded) :
    (outerInner arguments).IsWorded := by
  refine .mk (by simp) ?_ ?_
  · simp only [List.mem_cons, List.not_mem_nil, or_false, forall_eq_or_imp, forall_eq,
      Segment.name]
    decide
  · simp only [List.mem_cons, List.not_mem_nil, or_false, forall_eq_or_imp, forall_eq]
    refine ⟨fun argument mem type named => ?_, inside⟩
    obtain rfl := List.mem_singleton.1 mem
    cases named
    exact isWorded_plainType (by decide)

theorem isWorded_argumentB :
    ∀ argument ∈ [argumentB], ∀ type ∈ argument.type?, type.IsWorded := by
  intro argument mem type named
  obtain rfl := List.mem_singleton.1 mem
  cases named
  exact isWorded_plainType (by decide)

theorem isTidy_outerInner : (outerInner []).IsTidy := by
  refine .mk (by decide) ?_
  simp only [List.mem_cons, List.not_mem_nil, or_false, forall_eq_or_imp, forall_eq]
  refine ⟨fun argument mem type named => ?_, fun argument mem => absurd mem List.not_mem_nil⟩
  obtain rfl := List.mem_singleton.1 mem
  cases named
  exact isTidy_plainType _

theorem not_isTidy_outerInner : ¬ (outerInner [argumentB]).IsTidy := by
  rintro ⟨single, _⟩
  exact absurd single (by decide)

/-- With one list of arguments in a path all is well, with two it is not. -/
theorem names_are_paths_outerInner :
    (outerInner []).IsWorded ∧ (outerInner [argumentB]).IsWorded ∧
      (∀ name ∈ typeNames ((outerInner []).text ++ "..."), IsDottedPath name) ∧
        ¬ ∀ name ∈ typeNames ((outerInner [argumentB]).text ++ "..."), IsDottedPath name := by
  have tidy : (outerInner []).IsWorded := isWorded_outerInner (by simp)
  have untidy := isWorded_outerInner isWorded_argumentB
  exact ⟨tidy, untidy, (names_are_paths_iff _ tidy true).1.2 isTidy_outerInner,
    fun paths => not_isTidy_outerInner ((names_are_paths_iff _ untidy true).1.1 paths)⟩

/-- A field of the type `Outer<A>.Inner<B>` adds a name that is no path. -/
theorem names_spoiled_outerInner :
    (outerInner [argumentB]).text = "Outer<A>.Inner<B>" ∧
      typeNames (outerInner [argumentB]).text = ["Outer", "A>.Inner"] ∧
        gathered ["class T \x7b Outer<A>.Inner<B> held; \x7d"] "T" =
          some ["Outer", "A>.Inner"] := by
  decide +kernel

/-! ## Dotted names -/

theorem not_mem_primitiveNames_of_isDotted {name : String} (dotted : isDotted name = true) :
    name ∉ primitiveNames := by
  have undotted : primitiveNames.all (fun name => !isDotted name) = true := by decide
  intro primitive
  have contradiction := List.all_eq_true.1 undotted name primitive
  rw [dotted] at contradiction
  cases contradiction

/-- A use brings a dotted name unless a trusted text starts it. -/
theorem TypeUse.brings_dotted_iff {use : TypeUse} {rules : UnitRules} {name : String}
    (dotted : isDotted name = true) :
    use.Brings rules name ↔
      (name ∈ typeNames use.type.text ∧ name ∉ use.scope) ∧
        ∀ start ∈ rules.trusted, ¬ start.toList <+: name.toList := by
  have primitive := not_mem_primitiveNames_of_isDotted dotted
  have trusted_iff : rules.IsKnownTrusted name ↔
      ∃ start ∈ rules.trusted, start.toList <+: name.toList := by
    simp [UnitRules.IsKnownTrusted, dotted, primitive]
  constructor
  · intro brings
    refine ⟨⟨brings.named, brings.unbound⟩, fun start mem starts => ?_⟩
    exact brings.untrusted (trusted_iff.2 ⟨start, mem, starts⟩)
  · rintro ⟨⟨named, unbound⟩, untrusted⟩
    refine ⟨named, primitive, unbound, fun trusted => ?_⟩
    obtain ⟨start, mem, starts⟩ := trusted_iff.1 trusted
    exact untrusted start mem starts

/-- No supertype is listed under a dotted name, so the uses alone decide. -/
theorem mem_referred_dotted_iff {rules : UnitRules} {header : TypeHeader}
    {annotations constants members : List Node} {name : String}
    (kind : header.kind ≠ .annotationType) (dotted : isDotted name = true) :
    name ∈ referred rules (.type header annotations constants members) ↔
      (∃ member ∈ members, ∃ use ∈ usesOf header.typeVariables member,
        name ∈ typeNames use.type.text ∧ name ∉ use.scope) ∧
      ∀ start ∈ rules.trusted, ¬ start.toList <+: name.toList := by
  have not_inherited : ¬ ∃ type ∈ header.extended ++ header.implemented,
      type.lastName = name := by
    rintro ⟨type, _, rfl⟩
    rw [isDotted_lastName] at dotted
    cases dotted
  rw [mem_referred_iff kind, or_iff_right not_inherited]
  simp only [TypeUse.brings_dotted_iff dotted]
  constructor
  · rintro ⟨member, member_mem, use, used, written, untrusted⟩
    exact ⟨⟨member, member_mem, use, used, written⟩, untrusted⟩
  · rintro ⟨⟨member, member_mem, use, used, written⟩, untrusted⟩
    exact ⟨member, member_mem, use, used, written, untrusted⟩

/-- Whether a dotted name is a dependency is decided by its own text.  The path of every
type that a member writes, also inside of arguments, is added by its use and kept by the
record exactly if no trusted text starts it, whatever its first segment stands for. -/
theorem dotted_dependency_iff (trusted : List String) (path : Option String)
    (unit : CompilationUnit) (header : TypeHeader) (annotations constants members : List Node)
    (declared : Node.type header annotations constants members ∈ unit.declarations)
    (kind : header.kind ≠ .annotationType) :
    let rules : UnitRules := ⟨.ofUnit unit, trusted, path⟩
    ∃ record ∈ records trusted path unit,
      record? rules (.type header annotations constants members) = some record ∧
      (∀ name, isDotted name = true →
        (name ∈ record.dependencies ↔
          (∃ member ∈ members, ∃ use ∈ usesOf header.typeVariables member,
            name ∈ typeNames use.type.text ∧ name ∉ use.scope) ∧
          ∀ start ∈ trusted, ¬ start.toList <+: name.toList)) ∧
      ∀ member ∈ members, ∀ use ∈ usesOf header.typeVariables member, use.type.IsPlain →
        ∀ part : TypeRef, part.IsPart use.type → isDotted part.pathName = true →
          part.pathName ∉ use.scope →
          (part.pathName ∈ record.dependencies ↔
            ∀ start ∈ trusted, ¬ start.toList <+: part.pathName.toList) ∧
          ∀ earlier : TypeRecord, part.pathName ∉ earlier.dependencies →
            (part.pathName ∈
                (addDependencies (rules.within use.scope) earlier use.type.text).dependencies ↔
              ∀ start ∈ trusted, ¬ start.toList <+: part.pathName.toList) := by
  intro rules
  obtain ⟨record, record_mem, found, dependencies_eq⟩ :=
    exists_record_of_declaration trusted path declared kind
  have dotted_iff : ∀ name, isDotted name = true →
      (name ∈ record.dependencies ↔
        (∃ member ∈ members, ∃ use ∈ usesOf header.typeVariables member,
          name ∈ typeNames use.type.text ∧ name ∉ use.scope) ∧
        ∀ start ∈ trusted, ¬ start.toList <+: name.toList) := by
    intro name dotted
    rw [dependencies_eq, List.mem_eraseDups]
    exact mem_referred_dotted_iff kind dotted
  refine ⟨record, record_mem, found, dotted_iff, ?_⟩
  intro member member_mem use used plain part isPart dotted unbound
  have named := isPart.pathName_mem_typeNames plain
  constructor
  · rw [dotted_iff _ dotted]
    exact and_iff_right ⟨member, member_mem, use, used, named, unbound⟩
  · intro earlier fresh
    rw [use.mem_dependencies_iff, or_iff_right fresh, TypeUse.brings_dotted_iff dotted]
    exact and_iff_right ⟨named, unbound⟩

/-! ### A shelf -/

/-- The type `AbstractMap.SimpleEntry<Code, Book>`. -/
def entryType : TypeRef :=
  .mk [.mk ⟨"AbstractMap", by decide, by decide⟩ [], .mk ⟨"SimpleEntry", by decide, by decide⟩
    [.exactly (plainType ⟨"Code", by decide, by decide⟩),
      .exactly (plainType ⟨"Book", by decide, by decide⟩)]] 0

def shelfType : TypeRef :=
  .mk [.mk ⟨"Deque", by decide, by decide⟩ [.exactly entryType]] 0

def shelfHeader : TypeHeader :=
  ⟨.classType, [], ⟨"Shelf", by decide, by decide⟩, [], [], []⟩

def shelfUnit : CompilationUnit :=
  ⟨"", [], [⟨"java.util.Deque", false, false⟩, ⟨"java.util.AbstractMap", false, false⟩],
    [.type shelfHeader [] [] [.field [] shelfType ["held"] []]]⟩

def shelfRules : UnitRules :=
  ⟨.ofUnit shelfUnit, defaultTrusted, none⟩

theorem isPlain_shelfType : shelfType.IsPlain := by
  simp only [shelfType, entryType, plainType, TypeRef.IsPlain, isPlainPath, arePlain,
    TypeArgument.IsPlain]
  decide

theorem isPart_entryType : entryType.IsPart shelfType :=
  .inside (List.mem_singleton.2 rfl) (List.mem_singleton.2 rfl) rfl .whole

/-- The import gives `AbstractMap` a trusted full name, and has no say in the name of its
member type. -/
theorem dotted_dependency_shelf :
    shelfRules.names.qualify "AbstractMap" = some "java.util.AbstractMap" ∧
      isTrusted defaultTrusted "java.util.AbstractMap" = true ∧
      ∃ record ∈ records defaultTrusted none shelfUnit,
        "AbstractMap.SimpleEntry" ∈ record.dependencies ∧
          "AbstractMap.SimpleEntry" ∈ (addDependencies (shelfRules.within []) (.named "Shelf")
            shelfType.text).dependencies := by
  obtain ⟨record, record_mem, _, _, path_iff⟩ :=
    dotted_dependency_iff defaultTrusted none shelfUnit shelfHeader [] []
      [.field [] shelfType ["held"] []]
      (by simp [shelfUnit, CompilationUnit.declarations, preorderAll, Node.preorder]) (by decide)
  obtain ⟨kept_iff, added_iff⟩ := path_iff _ (List.mem_singleton.2 rfl) ⟨[], shelfType⟩
    (List.mem_singleton.2 rfl) isPlain_shelfType entryType isPart_entryType (by decide)
    List.not_mem_nil
  have path_eq : entryType.pathName = "AbstractMap.SimpleEntry" := by decide
  have untrusted : ∀ start ∈ defaultTrusted, ¬ start.toList <+: entryType.pathName.toList := by
    decide
  rw [path_eq] at kept_iff added_iff untrusted
  refine ⟨by decide, by decide, record, record_mem, kept_iff.2 untrusted, ?_⟩
  exact (added_iff (.named "Shelf") (by simp [TypeRecord.named])).2 untrusted

/-- A member type of an imported trusted type is a dependency of the class that uses it. -/
theorem dotted_dependency_entry :
    let unit : CompilationUnit := ⟨"", [], [⟨"java.util.Map", false, false⟩], []⟩
    (UnitNames.ofUnit unit).qualify "Map" = some "java.util.Map" ∧
      gathered ["import java.util.Map; class Shelf \x7b Map.Entry<Key, Book> held; \x7d"]
        "Shelf" = some ["Map.Entry", "Key", "Book"] := by
  decide +kernel

end JavaUml.Extract
