import JavaUml.Proofs.Diagram.EdgeAgreement

/-!
# Required interfaces and who provides them

A component provides interfaces under their simple names, and requires them under the
names that its types refer to them by.  Such a name means a type of another component,
and either it is the simple name of that type or its full name.  So there is a provider
for every required interface, and the provider lists it under the same name unless the
reference was written with the package in front.
-/

namespace JavaUml.Model

theorem Index.isCalled_of_find? {index : Index}
    (simple : ∀ record ∈ index.types.records, IsSimple record.name) {name : String}
    {record : TypeRecord} (found : index.find? name = some record) :
    record.isCalled name = true := by
  rw [find?_eq_scan simple] at found
  exact List.find?_some found

/-- A name that means a type is its simple name, or the simple name behind the name of
its component. -/
theorem TypeRecord.eq_name_or_of_isCalled {record : TypeRecord} {name : String}
    (called : record.isCalled name = true) :
    name = record.name ∨ name = record.component ++ "." ++ record.name := by
  simp only [isCalled, Bool.or_eq_true, beq_iff_eq] at called
  rcases called with rfl | rfl
  · exact .inl rfl
  · by_cases unnamed : record.package = ""
    · exact .inl (fullName_of_unnamed unnamed)
    · right
      rw [fullName, Java.nameIn, if_neg unnamed, component, if_neg unnamed]

section

variable {types : TypeMap} {component : Component} {name : String}

theorem mem_provided_iff (known : component ∈ components types) :
    name ∈ component.provided ↔
      ∃ record ∈ types.records, record.component = component.name ∧ record.isInterface = true ∧
        record.name = name := by
  rw [(describes_of_mem known).provided_eq]
  exact (describes_of_mem known).mem_interfaces_iff name

theorem isDotted_of_mem_provided (simple : ∀ record ∈ types.records, IsSimple record.name)
    (known : component ∈ components types) (provided : name ∈ component.provided) :
    Java.isDotted name = false := by
  obtain ⟨record, member, -, -, rfl⟩ := (mem_provided_iff known).1 provided
  exact (simple record member).2

/-- A required interface is provided by a component that the requiring one depends on. -/
theorem exists_provider (simple : ∀ record ∈ types.records, IsSimple record.name)
    (known : component ∈ components types) (required : name ∈ component.required) :
    ∃ provider ∈ components types, provider.name ∈ component.dependencies ∧
      ∃ provided ∈ provider.provided,
        name = provided ∨ name = provider.name ++ "." ++ provided := by
  obtain ⟨record, member, own, refers, target, found, kind, apart⟩ :=
    ((describes_of_mem known).mem_required_iff name).1 required
  have target_member : target ∈ types.records := Index.mem_of_find? found
  obtain ⟨provider, provider_known, provider_eq⟩ := List.mem_map.1
    ((mem_map_name_components_iff types target.component).2 ⟨target, target_member, rfl⟩)
  refine ⟨provider, provider_known, ?_, target.name, ?_, ?_⟩
  · rw [provider_eq]
    apply component_mem_dependencies member refers found _ known own.symm
    rw [own]
    exact apart.symm
  · exact (mem_provided_iff provider_known).2 ⟨target, target_member, provider_eq.symm, kind, rfl⟩
  · rw [provider_eq]
    exact TypeRecord.eq_name_or_of_isCalled (Index.isCalled_of_find? simple found)

/-- The provider lists a required interface under the same name just where the name has
no package in front. -/
theorem exists_provider_iff (simple : ∀ record ∈ types.records, IsSimple record.name)
    (known : component ∈ components types) (required : name ∈ component.required) :
    (∃ provider ∈ components types, provider.name ∈ component.dependencies ∧
      name ∈ provider.provided) ↔ Java.isDotted name = false := by
  constructor
  · rintro ⟨provider, provider_known, -, provided⟩
    exact isDotted_of_mem_provided simple provider_known provided
  · intro undotted
    obtain ⟨provider, provider_known, depends, provided, provided_mem, rfl | name_eq⟩ :=
      exists_provider simple known required
    · exact ⟨provider, provider_known, depends, provided_mem⟩
    · have dotted : Java.isDotted name = true := by simp [name_eq, Java.isDotted]
      rw [dotted] at undotted
      cases undotted

end

/-! ## Runs -/

open JavaUml.Diagram JavaUml.Extract

/-- For all sources, every interface that a component requires is provided by a component
that it depends on, and is required there under the name that it is provided by or under
the full name.  It is provided under the same name just where that name has no dot. -/
theorem required_interfaces_provided (trusted : List String) (suffix : String)
    (steps : List Step) :
    let found := components (typesOf trusted suffix steps)
    ∀ component ∈ found, ∀ name ∈ component.required,
      (∃ provider ∈ found, provider.name ∈ component.dependencies ∧
        ∃ provided ∈ provider.provided,
          name = provided ∨ name = provider.name ++ "." ++ provided) ∧
      ((∃ provider ∈ found, provider.name ∈ component.dependencies ∧
        name ∈ provider.provided) ↔ Java.isDotted name = false) := by
  intro found component known name required
  have simple := isSimple_typesOf trusted suffix steps
  exact ⟨exists_provider simple known required, exists_provider_iff simple known required⟩

/-- A class that refers to an interface of another package with and without the
package. -/
def payableTexts : List Step :=
  [.ofText "S0.java" "package shop; class Desk \x7b bank.Payable due; Payable paid; \x7d",
    .ofText "S1.java" "package bank; interface Payable \x7b \x7d"]

theorem required_interfaces_payable :
    let found := components (typesOf Java.defaultTrusted ".java" payableTexts)
    ∃ component ∈ found, component.name = "shop" ∧
      "Payable" ∈ component.required ∧ "bank.Payable" ∈ component.required ∧
      (∃ provider ∈ found, provider.name ∈ component.dependencies ∧
        "Payable" ∈ provider.provided) ∧
      ∃ provider ∈ found, provider.name ∈ component.dependencies ∧
        ∃ provided ∈ provider.provided,
          "bank.Payable" = provided ∨ "bank.Payable" = provider.name ++ "." ++ provided := by
  intro found
  obtain ⟨component, known, name_eq, simple, full⟩ : ∃ component ∈ found,
      component.name = "shop" ∧ "Payable" ∈ component.required ∧
        "bank.Payable" ∈ component.required := by decide +kernel
  have laws := required_interfaces_provided Java.defaultTrusted ".java" payableTexts component known
  exact ⟨component, known, name_eq, simple, full, (laws _ simple).2.2 (by decide),
    (laws _ full).1⟩

/-- No component provides an interface under its full name. -/
theorem required_interfaces_unmatched :
    let found := components (typesOf Java.defaultTrusted ".java" payableTexts)
    ∃ component ∈ found, ∃ name ∈ component.required,
      ∀ provider ∈ found, name ∉ provider.provided := by
  decide +kernel

end JavaUml.Model
