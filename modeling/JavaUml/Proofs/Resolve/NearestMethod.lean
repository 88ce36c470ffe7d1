import JavaUml.Proofs.Resolve.Inheritance

/-!
# The method that a call means

The hierarchy of the receiver is searched in its order, and the first type that declares
the name of the call decides.  Among the methods of this name in that type the first one
that takes the arguments is meant, and the first one at all if none does.

So a call is bound to the nearest declaration of its name, and it stays unbound only if
its receiver has no type or no type of the hierarchy declares the name.  The nearest
declaration need not take the arguments, even where an inherited one does: this is so
exactly if the nearest type with the name has overloads for other numbers of arguments
only.
-/

namespace JavaUml.Resolve

open JavaUml.Java JavaUml.Model

/-! ## First of its kind -/

/-- Whether an item has a property that no item in front of it has. -/
def IsFirst {α : Type} (good : α → Prop) (items : List α) (item : α) : Prop :=
  ∃ front back, items = front ++ item :: back ∧ good item ∧ ∀ earlier ∈ front, ¬good earlier

section First

variable {α : Type} {good fine : α → Prop} {items : List α} {item : α}

theorem IsFirst.mem (isFirst : IsFirst good items item) : item ∈ items := by
  obtain ⟨front, back, rfl, -, -⟩ := isFirst
  simp

theorem IsFirst.holds (isFirst : IsFirst good items item) : good item := by
  obtain ⟨-, -, -, holds, -⟩ := isFirst
  exact holds

/-- The first item with a property is the first one with a stronger property, if it has
it at all. -/
theorem IsFirst.strengthen (isFirst : IsFirst good items item)
    (stronger : ∀ other, fine other → good other) (holds : fine item) :
    IsFirst fine items item := by
  obtain ⟨front, back, items_eq, -, absent⟩ := isFirst
  refine ⟨front, back, items_eq, holds, ?_⟩
  intro earlier among earlier_fine
  exact absent earlier among (stronger earlier earlier_fine)

theorem isFirst_of_find? {test : α → Bool} (tells : ∀ other ∈ items, test other = true ↔ good other)
    (found : items.find? test = some item) : IsFirst good items item := by
  obtain ⟨passes, front, back, items_eq, failed⟩ := List.find?_eq_some_iff_append.1 found
  subst items_eq
  refine ⟨front, back, rfl, (tells item (by simp)).1 passes, ?_⟩
  intro earlier among holds
  exact absurd ((tells earlier (by simp [among])).2 holds) (by simpa using failed earlier among)

end First

/-! ## Methods of a type -/

/-- Whether a method has the given name and is no constructor. -/
def Bears (name : String) (method : Method) : Prop :=
  method.name = name ∧ method.isConstructor = false

instance (name : String) (method : Method) : Decidable (Bears name method) :=
  inferInstanceAs (Decidable (method.name = name ∧ method.isConstructor = false))

/-- Whether a method can be called with the given number of arguments: with one for each
parameter, or with any number behind the fixed ones if the last parameter is variadic. -/
def Takes (arity : Nat) (method : Method) : Prop :=
  arity = method.parameters.length ∨ ∃ fixed last, method.parameters = fixed ++ [last] ∧
    ['.', '.', '.'] <:+ last.type.toList ∧ fixed.length ≤ arity

/-- Whether a type declares a method of the given name. -/
def HasMethod (name : String) (record : TypeRecord) : Prop :=
  ∃ method ∈ record.methods, Bears name method

/-- Whether a type declares a method of the given name for the given number of arguments. -/
def Offers (name : String) (arity : Nat) (record : TypeRecord) : Prop :=
  ∃ method ∈ record.methods, Bears name method ∧ Takes arity method

section Methods

variable {name : String} {arity : Nat} {record : TypeRecord} {method : Method}

theorem accepts_eq_true_iff : accepts arity method = true ↔ Takes arity method := by
  unfold accepts Takes
  rcases List.eq_nil_or_concat method.parameters with none | ⟨fixed, last, parameters_eq⟩
  · simp [none]
  · rw [parameters_eq, List.concat_eq_append, List.getLast?_concat]
    dsimp only
    by_cases variadic : ['.', '.', '.'] <:+ last.type.toList
    · -- One argument for each parameter is a case of any number behind the fixed ones.
      rw [if_pos (List.isSuffixOf_iff_suffix.2 variadic)]
      simp [variadic]
      omega
    · rw [if_neg (mt List.isSuffixOf_iff_suffix.1 variadic)]
      simp [variadic]

instance (arity : Nat) (method : Method) : Decidable (Takes arity method) :=
  decidable_of_iff _ accepts_eq_true_iff

instance (name : String) (record : TypeRecord) : Decidable (HasMethod name record) :=
  inferInstanceAs (Decidable (∃ method ∈ record.methods, Bears name method))

instance (name : String) (arity : Nat) (record : TypeRecord) :
    Decidable (Offers name arity record) :=
  inferInstanceAs (Decidable (∃ method ∈ record.methods, Bears name method ∧ Takes arity method))

theorem Offers.hasMethod (offers : Offers name arity record) : HasMethod name record := by
  obtain ⟨method, declared, bears, -⟩ := offers
  exact ⟨method, declared, bears⟩

/-- The method of a type that a call means, with everything that is known about it. -/
def methodFor? (name : String) (arity : Nat) (record : TypeRecord) : Option Method :=
  ((methodsNamed name record).find? (accepts arity)).or (methodsNamed name record).head?

theorem methodFor?_eq_none_iff : methodFor? name arity record = none ↔ ¬HasMethod name record := by
  have unnamed : methodsNamed name record = [] ↔ ¬HasMethod name record := by
    simp [methodsNamed, HasMethod, Bears]
  rw [methodFor?, Option.or_eq_none_iff, List.head?_eq_none_iff, unnamed]
  constructor
  · exact And.right
  · intro absent
    exact ⟨by rw [unnamed.2 absent]; rfl, absent⟩

/-- The method that is meant is the first one that takes the arguments, or the first one of
the name where none takes them. -/
theorem isFirst_methodFor? (found : methodFor? name arity record = some method) :
    IsFirst (fun other => Bears name other ∧ Takes arity other) record.methods method ∨
      ¬Offers name arity record ∧ IsFirst (Bears name) record.methods method := by
  have tells : ∀ other ∈ record.methods,
      (other.name == name && !other.isConstructor) = true ↔ Bears name other := by
    simp [Bears]
  rw [methodFor?, methodsNamed, List.find?_filter, List.head?_filter] at found
  rcases Option.or_eq_some_iff.1 found with taken | ⟨absent, first⟩
  · left
    refine isFirst_of_find? ?_ taken
    intro other among
    simp only [Bool.decide_and, Bool.decide_eq_true, Bool.and_eq_true]
    rw [← tells other among, ← accepts_eq_true_iff, Bool.and_eq_true]
  · right
    refine ⟨?_, isFirst_of_find? tells first⟩
    rintro ⟨other, among, bears, takes⟩
    rw [List.find?_eq_none] at absent
    apply absent other among
    simp [(tells other among).2 bears, accepts_eq_true_iff.2 takes]

/-- The method that is meant takes the arguments if any of the type does. -/
theorem takes_methodFor?_iff (found : methodFor? name arity record = some method) :
    Takes arity method ↔ Offers name arity record := by
  rcases isFirst_methodFor? found with fits | ⟨unoffered, bears⟩
  · exact iff_of_true fits.holds.2 ⟨method, fits.mem, fits.holds⟩
  · refine iff_of_false ?_ unoffered
    intro takes
    exact unoffered ⟨method, bears.mem, bears.holds, takes⟩

theorem bears_of_methodFor? (found : methodFor? name arity record = some method) :
    method ∈ record.methods ∧ Bears name method := by
  rcases isFirst_methodFor? found with fits | ⟨-, bears⟩
  · exact ⟨fits.mem, fits.holds.1⟩
  · exact ⟨bears.mem, bears.holds⟩

end Methods

/-! ## Methods of a hierarchy -/

/-- A method with the type that declares it. -/
structure MethodChoice where
  owner : TypeRecord
  method : Method
  deriving DecidableEq, Repr

/-- What a call is bound to. -/
def MethodChoice.bound (choice : MethodChoice) : BoundMethod :=
  ⟨choice.owner.name, choice.method.name, choice.method.returnType⟩

/-- The method of a list of types that a call means. -/
def choice? (name : String) (arity : Nat) (records : List TypeRecord) : Option MethodChoice :=
  records.findSome? fun record => (methodFor? name arity record).map (MethodChoice.mk record)

section Hierarchy

variable {index : Index} {name : String} {arity : Nat} {record : TypeRecord}
  {records : List TypeRecord} {choice : MethodChoice}

theorem choice?_eq_none_iff :
    choice? name arity records = none ↔ ∀ type ∈ records, ¬HasMethod name type := by
  simp only [choice?, List.findSome?_eq_none_iff, Option.map_eq_none_iff, methodFor?_eq_none_iff]

/-- The first type that declares the name decides. -/
theorem isFirst_choice? (found : choice? name arity records = some choice) :
    IsFirst (HasMethod name) records choice.owner ∧
      methodFor? name arity choice.owner = some choice.method := by
  obtain ⟨front, owner, back, records_eq, chosen, passed⟩ := List.findSome?_eq_some_iff.1 found
  obtain ⟨method, method_eq, rfl⟩ := Option.map_eq_some_iff.1 chosen
  obtain ⟨declared, bears⟩ := bears_of_methodFor? method_eq
  refine ⟨⟨front, back, records_eq, ⟨method, declared, bears⟩, ?_⟩, method_eq⟩
  intro earlier among
  rw [← methodFor?_eq_none_iff, ← Option.map_eq_none_iff]
  exact passed earlier among

theorem findSome?_methodIn? (records : List TypeRecord) :
    records.findSome? (methodIn? name arity) =
      (choice? name arity records).map MethodChoice.bound := by
  rw [choice?, List.map_findSome?]
  congr 1
  funext record
  rw [Function.comp_apply, Option.map_map]
  rfl

/-- The search through a hierarchy returns the choice. -/
theorem value_findMethod_of_some
    (found : choice? name arity (hierarchy index record) = some choice) :
    (findMethod index record name arity).run.value = .ok choice.bound := by
  rw [findMethod, value_ancestry_bind, findSome?_methodIn?, found]
  rfl

theorem value_findMethod_of_none (none_left : choice? name arity (hierarchy index record) = none) :
    (findMethod index record name arity).run.value = .error (.noMethod name record.name) := by
  rw [findMethod, value_ancestry_bind, findSome?_methodIn?, none_left]
  rfl

end Hierarchy

/-! ## Bound calls -/

/-- A call on nothing, or on the current type, has this type as its receiver. -/
theorem value_receiver_of_plain {index : Index} {scope : Scope} {site : CallSite}
    (unchained : site.chain = []) (ordinary : site.call.isSuper = false)
    (unqualified : site.call.qualifier = "" ∨ site.call.qualifier = "this") :
    (receiver index scope site).run.value = .ok scope.current := by
  rw [receiver, unchained]
  dsimp only
  rw [plainReceiver, if_neg (by simp [ordinary]), if_pos (by simpa using unqualified)]
  rfl

/-- A call is bound to the nearest declaration of its name: in the first type of its
receiver's hierarchy that declares a method of the name.  It cannot be bound only if its
receiver has no type, or if no type of the hierarchy declares the name.  The receiver of a
call on nothing, or on the current type, is the current type. -/
theorem bind_nearest_declaration (index : Index) (scope : Scope) (site : CallSite) :
    ((∃ reason, (bind index scope site).run.value = .error reason ∧
        ((receiver index scope site).run.value = .error reason ∨
          ∃ record, (receiver index scope site).run.value = .ok record ∧
            reason = .noMethod site.call.name record.name ∧
            ∀ type ∈ hierarchy index record, ¬HasMethod site.call.name type)) ∨
      ∃ bound record owner, (bind index scope site).run.value = .ok bound ∧
        (receiver index scope site).run.value = .ok record ∧
        bound.name = site.call.name ∧ owner.name = bound.declaringType ∧
        IsFirst (HasMethod site.call.name) (hierarchy index record) owner ∧
        ∃ method ∈ owner.methods, Bears site.call.name method ∧
          method.returnType = bound.returnType) ∧
      (site.chain = [] → site.call.isSuper = false →
        site.call.qualifier = "" ∨ site.call.qualifier = "this" →
          (receiver index scope site).run.value = .ok scope.current) := by
  refine ⟨?_, value_receiver_of_plain⟩
  unfold bind
  cases typed : (receiver index scope site).run.value with
  | error reason => exact .inl ⟨reason, value_bind_of_error typed, .inl rfl⟩
  | ok record =>
      rw [value_bind_of_ok typed]
      cases found : choice? site.call.name site.call.arity (hierarchy index record) with
      | none =>
          left
          exact ⟨_, value_findMethod_of_none found,
            .inr ⟨record, rfl, rfl, choice?_eq_none_iff.1 found⟩⟩
      | some choice =>
          right
          obtain ⟨nearest, chosen⟩ := isFirst_choice? found
          obtain ⟨declared, bears⟩ := bears_of_methodFor? chosen
          exact ⟨choice.bound, record, choice.owner, value_findMethod_of_some found, rfl, bears.1,
            rfl, nearest, choice.method, declared, bears, rfl⟩

/-! ### Things put away

A store takes two numbers or any number of names.  A box inherits both, and a shelf has an
overload of its own for one number. -/

/-- A public method called `put`. -/
def putting (returned : String) (types : List String) : Method :=
  ⟨"put", returned, .publicAccess, false, false, types.map (Parameter.mk "item")⟩

def storeType : TypeRecord :=
  { TypeRecord.named "Store" with
    methods := [putting "void" ["int", "int"], putting "Item" ["String..."]] }

def boxType : TypeRecord :=
  { TypeRecord.named "Box" with superclass := some "Store" }

def shelfType : TypeRecord :=
  { TypeRecord.named "Shelf" with superclass := some "Store", methods := [putting "int" ["int"]] }

def storage : Index :=
  ⟨.ofRecords [shelfType, boxType, storeType]⟩

theorem bind_nearest_box :
    let site : CallSite := ⟨⟨false, "this", "put", 3⟩, []⟩
    (receiver storage ⟨boxType, []⟩ site).run.value = .ok boxType ∧
      ∃ owner, (bind storage ⟨boxType, []⟩ site).run.value = .ok ⟨owner.name, "put", "Item"⟩ ∧
        IsFirst (HasMethod "put") (hierarchy storage boxType) owner := by
  intro site
  have bound_eq : (bind storage ⟨boxType, []⟩ site).run.value = .ok ⟨"Store", "put", "Item"⟩ := by
    decide +kernel
  obtain ⟨outcome, plain⟩ := bind_nearest_declaration storage ⟨boxType, []⟩ site
  have typed := plain rfl rfl (.inr rfl)
  refine ⟨typed, ?_⟩
  rcases outcome with ⟨_, failed, _⟩ |
    ⟨bound, record, owner, isBound, isTyped, _, owner_eq, first, _⟩
  · cases bound_eq.symm.trans failed
  · cases bound_eq.symm.trans isBound
    cases typed.symm.trans isTyped
    exact ⟨owner, by rw [bound_eq, owner_eq], first⟩

/-- Where some type of a hierarchy has a method for a call, the call is bound to a method of
the nearest type that declares the name.  This method takes the arguments, and is then the
first one that does in the nearest type with such a method, exactly if that type has one. -/
theorem chosen_method_fits_iff (index : Index) (record : TypeRecord) (name : String) (arity : Nat)
    (offered : ∃ type ∈ hierarchy index record, Offers name arity type) :
    ∃ choice, choice? name arity (hierarchy index record) = some choice ∧
      (findMethod index record name arity).run.value = .ok choice.bound ∧
      IsFirst (HasMethod name) (hierarchy index record) choice.owner ∧
      (Takes arity choice.method ↔ Offers name arity choice.owner) ∧
      (IsFirst (Offers name arity) (hierarchy index record) choice.owner ∧
          IsFirst (fun method => Bears name method ∧ Takes arity method) choice.owner.methods
            choice.method ↔
        Offers name arity choice.owner) := by
  cases found : choice? name arity (hierarchy index record) with
  | none =>
      obtain ⟨type, among, offers⟩ := offered
      exact absurd offers.hasMethod (choice?_eq_none_iff.1 found type among)
  | some choice =>
      obtain ⟨nearest, chosen⟩ := isFirst_choice? found
      refine ⟨choice, rfl, value_findMethod_of_some found, nearest, takes_methodFor?_iff chosen, ?_⟩
      constructor
      · intro fits
        exact fits.1.holds
      · intro offers
        -- No type in front of the owner has the name at all.
        refine ⟨nearest.strengthen (fun _ => Offers.hasMethod) offers, ?_⟩
        exact (isFirst_methodFor? chosen).resolve_right fun missing => missing.1 offers

theorem chosen_method_box :
    (∃ type ∈ hierarchy storage boxType, Offers "put" 3 type) ∧
      ∃ choice, choice? "put" 3 (hierarchy storage boxType) = some choice ∧
        choice = ⟨storeType, putting "Item" ["String..."]⟩ ∧ Takes 3 choice.method ∧
        IsFirst (Offers "put" 3) (hierarchy storage boxType) choice.owner := by
  have offered : ∃ type ∈ hierarchy storage boxType, Offers "put" 3 type := by decide +kernel
  refine ⟨offered, ?_⟩
  obtain ⟨choice, found, -, -, takes, fits⟩ :=
    chosen_method_fits_iff storage boxType "put" 3 offered
  have choice_eq : choice? "put" 3 (hierarchy storage boxType) =
      some ⟨storeType, putting "Item" ["String..."]⟩ := by
    decide +kernel
  have same := Option.some.inj (found.symm.trans choice_eq)
  have offers : Offers "put" 3 choice.owner := by
    rw [same]
    decide +kernel
  exact ⟨choice, found, same, takes.2 offers, (fits.2 offers).1⟩

/-- A shelf inherits a method for two numbers, but its own method for one number is chosen. -/
theorem chosen_method_shelf :
    (∃ type ∈ hierarchy storage shelfType, Offers "put" 2 type) ∧
      (∃ choice ∈ choice? "put" 2 (hierarchy storage shelfType), ¬Takes 2 choice.method) ∧
      (findMethod storage shelfType "put" 2).run.value = .ok ⟨"Shelf", "put", "int"⟩ := by
  decide +kernel

end JavaUml.Resolve
