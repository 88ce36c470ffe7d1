import JavaUml.Proofs.Resolve.NearestMethod
import JavaUml.Proofs.Text.Splitting

/-!
# Fields behind `this` and fields by their names

The receiver of `this.f.g.m()` is a chain, whose elements are typed one after the other.  The
receiver of `f.g.m()` is one text, which is cut at its dots after it was looked up as a whole,
and its first name may be a local variable or a type.  Where the text is no type and its first
name is a field and no variable, both lead from the current type through the same fields, and so
to the same record or to the same reason for having none.
-/

namespace JavaUml.Text

/-- Names without a dot can be read back from the dotted path that they make. -/
theorem split_intercalate {first : String} {others : List String}
    (undotted : ∀ name ∈ first :: others, Java.isDotted name = false) :
    split '.' (".".intercalate (first :: others)) = first :: others := by
  apply split_intercalate_of_free rfl
  intro name among dot
  have named := undotted name among
  rw [Java.isDotted, List.contains_iff_mem.2 dot] at named
  cases named

end JavaUml.Text

namespace JavaUml.Model

/-- A dotted name that is no full name of a type means none. -/
theorem Index.find?_eq_none_of_dotted {index : Index} {name : String}
    (dotted : Java.isDotted name = true)
    (absent : ∀ record ∈ index.types.records, record.fullName ≠ name) :
    index.find? name = none := by
  have missing : index.types.records.find? (fun record => record.fullName == name) = none := by
    simpa using absent
  rw [find?, candidates_eq, dotted, missing]
  split
  · rfl
  · rfl

end JavaUml.Model

namespace JavaUml.Resolve

open JavaUml.Java JavaUml.Model

/-- The elements of `this.f.g` in front of a call, for the names of the fields. -/
def thisFields (names : List String) : List Link :=
  .this :: names.map (Link.name "")

section

variable {index : Index} {scope : Scope} {first : String} {members : List String}

/-- A chain of fields is followed from the current type on. -/
theorem value_receiver_thisFields (call : Call) (names : List String) :
    (receiver index scope ⟨call, thisFields names⟩).run.value =
      (names.foldlM (fieldRecord index) scope.current).run.value := by
  have head : (headRecord index scope .this).run.value = .ok scope.current := rfl
  rw [receiver, thisFields]
  dsimp only
  rw [value_bind_of_ok head, List.foldlM_map]
  rfl

/-- The first name of a path is typed as a field, where it is one and no variable. -/
theorem value_firstRecord_of_field (notLocal : Ordered.get? first scope.locals = none)
    (isField : ∃ type ∈ hierarchy index scope.current, ∃ field ∈ type.fields, field.name = first) :
    (firstRecord index scope first).run.value =
      (fieldRecord index scope.current first).run.value := by
  obtain ⟨holder, among, field, declared, rfl⟩ := isField
  obtain ⟨type, typed⟩ := exists_fieldType? among declared
  rw [firstRecord, notLocal, fieldRecord]
  dsimp only
  rw [value_bind_of_ok typed, value_bind_of_ok typed]

/-- A path that is no type is followed from its first name on. -/
theorem value_pathRecord {path : String} (noType : isDotted path = true → index.find? path = none)
    (parts : Text.split '.' path = first :: members) :
    (pathRecord index scope path).run.value =
      (firstRecord index scope first >>= members.foldlM (fieldRecord index)).run.value := by
  have unasked : (pure none : Resolving (Option TypeRecord)).run.value = .ok none := rfl
  rw [pathRecord, parts]
  by_cases dotted : isDotted path = true
  · have missing : (find index path).run.value = .ok none := by
      rw [← noType dotted]
      rfl
    rw [if_pos dotted]
    exact value_bind_of_ok missing
  · rw [if_neg dotted]
    exact value_bind_of_ok unasked

end

/-- A call on fields behind `this` and a call on the path that their names make come to the
same, where the first name is a field and no variable and no type has the path as its full
name.  The empty text and `this` stand for the current type itself and are no paths. -/
theorem bind_thisFields_eq_path (index : Index) (scope : Scope) (first : String)
    (members : List String) (name : String) (arity : Nat)
    (undotted : ∀ part ∈ first :: members, isDotted part = false)
    (notLocal : Ordered.get? first scope.locals = none)
    (isField : ∃ type ∈ hierarchy index scope.current, ∃ field ∈ type.fields, field.name = first)
    (noType : members ≠ [] → ∀ record ∈ index.types.records,
      record.fullName ≠ ".".intercalate (first :: members)) :
    let path := ".".intercalate (first :: members)
    let chained : CallSite := ⟨⟨false, "", name, arity⟩, thisFields (first :: members)⟩
    (receiver index scope chained).run.value = (pathRecord index scope path).run.value ∧
      (path ≠ "" → path ≠ "this" → (bind index scope chained).run.value =
        (bind index scope ⟨⟨false, path, name, arity⟩, []⟩).run.value) := by
  intro path chained
  have absent : isDotted path = true → index.find? path = none := by
    intro dotted
    apply Index.find?_eq_none_of_dotted dotted
    apply noType
    -- One name alone is not dotted.
    rintro rfl
    rw [show path = first from String.intercalate_singleton, undotted first (by simp)] at dotted
    cases dotted
  have receivers_eq : (receiver index scope chained).run.value =
      (pathRecord index scope path).run.value := by
    rw [value_receiver_thisFields, value_pathRecord absent (Text.split_intercalate undotted),
      List.foldlM_cons, value_bind, value_bind, value_firstRecord_of_field notLocal isField]
  refine ⟨receivers_eq, ?_⟩
  intro nonempty other
  have plain : receiver index scope ⟨⟨false, path, name, arity⟩, []⟩ =
      pathRecord index scope path := by
    rw [receiver]
    dsimp only
    rw [plainReceiver, if_neg (by simp), if_neg (by simp [nonempty, other])]
  rw [bind, bind, plain, value_bind, value_bind, receivers_eq]

/-! ### A pump

A car inherits its engine, and the engine has a pump. -/

def carType : TypeRecord :=
  { TypeRecord.named "Car" with superclass := some "Vehicle" }

def garage : Index :=
  let part (name type : String) : Field := ⟨name, type, .privateAccess⟩
  let pressed : Method := ⟨"press", "int", .publicAccess, false, false, []⟩
  ⟨.ofRecords [carType, { TypeRecord.named "Vehicle" with fields := [part "engine" "Engine"] },
    { TypeRecord.named "Engine" with fields := [part "pump" "Pump", part "fuel" "String"] },
    { TypeRecord.named "Pump" with methods := [pressed] }]⟩

/-- Both ways lead to the pump, and neither one leads to the fuel, which has no declared type. -/
theorem bind_thisFields_pump :
    let scope : Scope := ⟨carType, [("pump", "Engine")]⟩
    (bind garage scope ⟨⟨false, "", "press", 0⟩, thisFields ["engine", "pump"]⟩).run.value =
        .ok ⟨"Pump", "press", "int"⟩ ∧
      (bind garage scope ⟨⟨false, "engine.pump", "press", 0⟩, []⟩).run.value =
        .ok ⟨"Pump", "press", "int"⟩ ∧
      (bind garage scope ⟨⟨false, "", "press", 0⟩, thisFields ["engine", "fuel"]⟩).run.value =
        .error (.notDeclared "String") ∧
      (bind garage scope ⟨⟨false, "engine.fuel", "press", 0⟩, []⟩).run.value =
        .error (.notDeclared "String") := by
  intro scope
  have found : (bind garage scope
      ⟨⟨false, "", "press", 0⟩, thisFields ["engine", "pump"]⟩).run.value =
        .ok ⟨"Pump", "press", "int"⟩ := by
    decide +kernel
  have lost : (bind garage scope
      ⟨⟨false, "", "press", 0⟩, thisFields ["engine", "fuel"]⟩).run.value =
        .error (.notDeclared "String") := by
    decide +kernel
  have same_found := (bind_thisFields_eq_path garage scope "engine" ["pump"] "press" 0 (by decide)
    (by decide) (by decide +kernel) fun _ => by decide +kernel).2 (by decide) (by decide)
  have same_lost := (bind_thisFields_eq_path garage scope "engine" ["fuel"] "press" 0 (by decide)
    (by decide) (by decide +kernel) fun _ => by decide +kernel).2 (by decide) (by decide)
  exact ⟨found, same_found.symm.trans found, lost, same_lost.symm.trans lost⟩

end JavaUml.Resolve
