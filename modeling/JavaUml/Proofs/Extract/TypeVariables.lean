import JavaUml.Proofs.Extract.References

/-!
# Type variables in scope

A type variable is in scope in the type or method that binds it and in all that is nested
there, down to what is static.  A declaration becomes a record on its own: where a member
uses a type, the variables of the declaration and of the member are known, and those that
are bound further out are not.

So a variable in scope is a dependency of a record exactly if it is bound further out only
and its name is not taken for that of a trusted type.
-/

namespace JavaUml.Java

namespace Node

/-- The type variables that a node binds. -/
def typeVariables : Node → List String
  | .type header _ _ _ => header.typeVariables
  | .method header _ _ _ => header.typeVariables
  | _ => []

def isInterface : Node → Bool
  | .type header _ _ _ => header.kind = .interfaceType || header.kind = .annotationType
  | _ => false

/-- Whether a part is static, so that the type variables around it are not in scope there.
Nested interfaces and enums are static without the word, and so are the types and fields of
an interface. -/
def isStaticIn : Node → Node → Bool
  | .type header _ _ _, outer =>
      outer.isInterface || header.kind != .classType || header.modifiers.contains "static"
  | .field modifiers _ _ _, outer => outer.isInterface || modifiers.contains "static"
  | .method header _ _ _, _ => header.modifiers.contains "static"
  | _, _ => false

/-- The type variables bound around a node that are in scope at it. -/
inductive HasAround (roots : List Node) : List String → Node → Prop
  | root {node : Node} (mem : node ∈ roots) : HasAround roots [] node
  | inside {around : List String} {outer part : Node} (above : HasAround roots around outer)
      (mem : part ∈ outer.selectors ++ outer.parts) :
      HasAround roots (if part.isStaticIn outer then [] else around ++ outer.typeVariables) part

theorem mem_preorder_of_mem_parts {tree outer part : Node} (mem : outer ∈ tree.preorder)
    (below : part ∈ outer.selectors ++ outer.parts) : part ∈ tree.preorder := by
  induction tree using tree_induction with
  | step tree parts selectors =>
      rw [mem_preorder_iff]
      rcases mem_preorder_iff.1 mem with rfl | ⟨child, child_mem, inside⟩
      · exact .inr ⟨part, below, mem_preorder_iff.2 (.inl rfl)⟩
      · refine .inr ⟨child, child_mem, ?_⟩
        rcases List.mem_append.1 child_mem with selector | child_part
        · exact selectors child selector inside
        · exact parts child child_part inside

theorem HasAround.exists_of_mem_preorder {roots : List Node} {tree node : Node}
    {around : List String} (has : HasAround roots around tree) (mem : node ∈ tree.preorder) :
    ∃ reaching, HasAround roots reaching node := by
  induction tree using tree_induction generalizing around with
  | step tree parts selectors =>
      rcases mem_preorder_iff.1 mem with rfl | ⟨child, child_mem, inside⟩
      · exact ⟨around, has⟩
      · rcases List.mem_append.1 child_mem with selector | child_part
        · exact selectors child selector (has.inside child_mem) inside
        · exact parts child child_part (has.inside child_mem) inside

/-- The nodes of a forest are those that variables are in scope at. -/
theorem exists_hasAround_iff {roots : List Node} {node : Node} :
    (∃ around, HasAround roots around node) ↔ node ∈ preorderAll roots := by
  rw [mem_preorderAll_iff]
  constructor
  · rintro ⟨around, has⟩
    induction has with
    | @root node mem => exact ⟨node, mem, mem_preorder_iff.2 (.inl rfl)⟩
    | inside above mem above_mem =>
        obtain ⟨tree, tree_mem, outer_mem⟩ := above_mem
        exact ⟨tree, tree_mem, mem_preorder_of_mem_parts outer_mem mem⟩
  · rintro ⟨tree, tree_mem, mem⟩
    exact (HasAround.root tree_mem).exists_of_mem_preorder mem

end Node

theorem type_mem_declarations_iff {unit : CompilationUnit} {header : TypeHeader}
    {annotations constants members : List Node} :
    Node.type header annotations constants members ∈ unit.declarations ↔
      ∃ around, Node.HasAround (unit.annotations ++ unit.types) around
        (.type header annotations constants members) := by
  rw [Node.exists_hasAround_iff, CompilationUnit.declarations, List.mem_filter]
  exact and_iff_left rfl

end JavaUml.Java

namespace JavaUml.Extract

open JavaUml.Java JavaUml.Model

/-- The variables of its declaration are in scope at every use. -/
theorem scope_of_mem_usesOf {typeVariables : List String} {member : Node} {use : TypeUse}
    (used : use ∈ usesOf typeVariables member) : typeVariables ⊆ use.scope := by
  cases member with
  | field modifiers type names parts =>
      obtain rfl := List.mem_singleton.1 used
      exact List.Subset.refl _
  | method header annotations parameters body =>
      obtain ⟨type, _, rfl⟩ := List.mem_map.1 used
      exact List.subset_append_left _ _
  | _ => cases used

/-- Of the type variables in scope at a use, those of the declaration and of the member add
nothing, so that the record has a variable of its own declaration as a supertype only.  One
that is bound further out is added like the name of any other type, and kept. -/
theorem variable_dependency_iff (trusted : List String) (path : Option String)
    (unit : CompilationUnit) (header : TypeHeader) (annotations constants members : List Node)
    (declared : Node.type header annotations constants members ∈ unit.declarations)
    (kind : header.kind ≠ .annotationType) :
    let rules : UnitRules := ⟨.ofUnit unit, trusted, path⟩
    let declaration := Node.type header annotations constants members
    let roots := unit.annotations ++ unit.types
    (∃ around, Node.HasAround roots around declaration) ∧
    ∃ record ∈ records trusted path unit, record? rules declaration = some record ∧
      (∀ name ∈ header.typeVariables,
        (name ∈ record.dependencies ↔
          ∃ type ∈ header.extended ++ header.implemented, type.lastName = name)) ∧
      ∀ member ∈ members, ∀ use ∈ usesOf header.typeVariables member, ∀ earlier : TypeRecord,
        let later := addDependencies (rules.within use.scope) earlier use.type.text
        (∀ name ∈ use.scope, (name ∈ later.dependencies ↔ name ∈ earlier.dependencies)) ∧
        ∀ around, Node.HasAround roots around declaration → ∀ name ∈ around, name ∉ use.scope →
          name ∉ earlier.dependencies →
          (name ∈ later.dependencies ↔
            name ∈ typeNames use.type.text ∧ name ∉ primitiveNames ∧
              ¬ rules.IsKnownTrusted name) ∧
          (name ∈ later.dependencies → name ∈ record.dependencies) := by
  intro rules declaration roots
  obtain ⟨record, record_mem, found, dependencies_eq⟩ :=
    exists_record_of_declaration trusted path declared kind
  have mem_iff : ∀ name, name ∈ record.dependencies ↔ name ∈ referred rules declaration := by
    intro name
    rw [dependencies_eq, List.mem_eraseDups]
  refine ⟨type_mem_declarations_iff.1 declared, record, record_mem, found, ?_, ?_⟩
  · intro name own
    rw [mem_iff, mem_referred_iff kind]
    refine or_iff_left ?_
    rintro ⟨member, _, use, used, brings⟩
    exact brings.unbound (scope_of_mem_usesOf used own)
  · intro member member_mem use used earlier later
    have mem_later : ∀ name, name ∈ later.dependencies ↔
        name ∈ earlier.dependencies ∨ use.Brings rules name :=
      use.mem_dependencies_iff rules earlier
    refine ⟨fun name bound => ?_, fun around _ name _ unbound fresh => ⟨?_, fun added => ?_⟩⟩
    · exact (mem_later name).trans (or_iff_left fun brings => brings.unbound bound)
    · rw [mem_later, or_iff_right fresh]
      exact ⟨fun brings => ⟨brings.named, brings.not_primitive, brings.untrusted⟩,
        fun ⟨named, primitive, untrusted⟩ => ⟨named, primitive, unbound, untrusted⟩⟩
    · have brings := ((mem_later name).1 added).resolve_left fresh
      exact (mem_iff name).2 ((mem_referred_iff kind).2
        (.inr ⟨member, member_mem, use, used, brings⟩))

/-! ### A class inside of a generic class -/

def slotHeader : TypeHeader :=
  ⟨.classType, [], ⟨"Slot", by decide, by decide⟩, ["S"], [], []⟩

def outerVariable : TypeRef :=
  plainType ⟨"E", by decide, by decide⟩

/-- A method `<R> R swap(S own, E outer)`. -/
def swapMethod : Node :=
  .method ⟨false, [], ["R"], some (plainType ⟨"R", by decide, by decide⟩), "swap"⟩ []
    [.parameter "own" (plainType ⟨"S", by decide, by decide⟩) false [],
      .parameter "outer" outerVariable false []] []

def slotClass : Node :=
  .type slotHeader [] [] [swapMethod]

def trayClass : Node :=
  .type ⟨.classType, [], ⟨"Tray", by decide, by decide⟩, ["E"], [], []⟩ [] [] [slotClass]

def trayUnit : CompilationUnit :=
  ⟨"", [], [], [trayClass]⟩

def trayRules : UnitRules :=
  ⟨.ofUnit trayUnit, defaultTrusted, none⟩

theorem hasAround_slotClass : Node.HasAround [trayClass] ["E"] slotClass := by
  have outer : Node.HasAround [trayClass] [] trayClass := .root (List.mem_singleton.2 rfl)
  have member : slotClass ∈ trayClass.selectors ++ trayClass.parts := List.mem_singleton.2 rfl
  exact outer.inside member

theorem not_isKnownTrusted_outerVariable : ¬ trayRules.IsKnownTrusted "E" := by
  rintro ⟨full, full_eq, _⟩
  have unknown : trayRules.names.qualify "E" = none := by decide
  rw [if_neg (by decide), unknown] at full_eq
  cases full_eq

/-- Of the variables in scope in the inner class, that of the outer class is taken for a
type. -/
theorem variable_dependency_swap :
    ∃ record ∈ records defaultTrusted none trayUnit,
      "S" ∉ record.dependencies ∧ "E" ∈ record.dependencies ∧
        Node.HasAround [trayClass] ["E"] slotClass := by
  obtain ⟨_, record, record_mem, _, own_iff, uses⟩ :=
    variable_dependency_iff defaultTrusted none trayUnit slotHeader [] [] [swapMethod]
      (type_mem_declarations_iff.2 ⟨_, hasAround_slotClass⟩) (by decide)
  have used : ⟨["S", "R"], outerVariable⟩ ∈ usesOf slotHeader.typeVariables swapMethod :=
    .tail _ (.tail _ (.head _))
  obtain ⟨added_iff, kept⟩ := (uses swapMethod (List.mem_singleton.2 rfl) _ used (.named "Slot")).2
    ["E"] hasAround_slotClass "E" (by decide) (by decide) (by simp [TypeRecord.named])
  have named : "E" ∈ typeNames outerVariable.text := by decide +kernel
  refine ⟨record, record_mem, ?_, kept (added_iff.2 ⟨named, by decide,
    not_isKnownTrusted_outerVariable⟩), hasAround_slotClass⟩
  rw [own_iff "S" (by decide)]
  simp [slotHeader]

/-- The field of an inner class makes the variable of the outer class a dependency. -/
theorem variable_dependency_inner :
    let text := "class Outer<T> \x7b T held; class Inner \x7b T value; \x7d \x7d"
    gathered [text] "Outer" = some [] ∧ gathered [text] "Inner" = some ["T"] := by
  decide +kernel

end JavaUml.Extract
