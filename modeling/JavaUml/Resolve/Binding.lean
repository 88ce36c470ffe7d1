import JavaUml.Java.CallSite
import JavaUml.Java.TypeText
import JavaUml.Resolve.Hierarchy
import JavaUml.Resolve.Scope

/-!
# Binding calls to declarations

The receiver of a call is typed from what stands in front of it, and the method
is looked for in the receiver's hierarchy.  Only types of the index can be
bound; any other receiver leaves the call unresolved, with the reason.

Binding asks the index for names.  The names asked are kept beside the result,
because the first use of an ambiguous one is reported.
-/

namespace JavaUml.Resolve

open JavaUml.Java JavaUml.Model

/-! ## Results with the names asked for -/

/-- A value and the names that were looked up for it. -/
structure Asking (α : Type) where
  value : α
  names : List String

instance : Monad Asking where
  pure value := ⟨value, []⟩
  bind first next :=
    let second := next first.value
    ⟨second.value, first.names ++ second.names⟩

/-- Why a call stays unresolved. -/
inductive Unresolved where
  | chainHead (label : String)
  | chainElement (label : String)
  | unknownReceiver (name : String)
  | noDeclaredType (type : String)
  | notDeclared (name : String)
  | noSuperclass (type : String)
  | noField (type field : String)
  | noMethod (method type : String)
  deriving DecidableEq, Repr

/-- The wording of a reason. -/
def Unresolved.message : Unresolved → String
  | chainHead label => "cannot type chain head " ++ label
  | chainElement label => "cannot type chain element " ++ label
  | unknownReceiver name => "unknown receiver " ++ name
  | noDeclaredType type => "no declared type for '" ++ type ++ "'"
  | notDeclared name => "type " ++ name ++ " is not declared in the source tree"
  | noSuperclass type => type ++ " has no superclass in the source tree"
  | noField type field => type ++ " has no field " ++ field
  | noMethod method type => "no method " ++ method ++ " in " ++ type ++ " or its supertypes"

/-- A result that may stay unresolved, with the names looked up for it. -/
abbrev Resolving := ExceptT Unresolved Asking

/-- The method that a call is bound to. -/
structure BoundMethod where
  declaringType : String
  name : String
  returnType : String
  deriving DecidableEq, Repr

/-- Look a name up. -/
def find (index : Index) (name : String) : Resolving (Option TypeRecord) :=
  ExceptT.lift ⟨index.find? name, [name]⟩

/-- The hierarchy of a record. -/
def ancestry (index : Index) (record : TypeRecord) : Resolving (List TypeRecord) :=
  ExceptT.lift ⟨hierarchy index record, hierarchyNames index record⟩

/-! ## Types and fields -/

/-- The record that the text of a type names, by its base name or the last part
of it.  Arrays name none. -/
def typeNamed (index : Index) (type : String) : Resolving TypeRecord := do
  if type = "" || isArrayType type then throw (.noDeclaredType type)
  let name := typeBase type
  match ← find index name with
  | some record => return record
  | none =>
      match ← find index (simpleName name) with
      | some record => return record
      | none => throw (.notDeclared name)

/-- The type of the first field of the given name in a hierarchy. -/
def fieldIn? (name : String) (records : List TypeRecord) : Option String :=
  ((records.flatMap TypeRecord.fields).find? fun field => field.name == name).map Field.type

/-- The type of a field, inherited ones included. -/
def fieldType? (index : Index) (record : TypeRecord) (name : String) :
    Resolving (Option String) := do
  return fieldIn? name (← ancestry index record)

/-- The record of a field's type. -/
def fieldRecord (index : Index) (record : TypeRecord) (name : String) :
    Resolving TypeRecord := do
  match ← fieldType? index record name with
  | some type => typeNamed index type
  | none => throw (.noField record.name name)

/-! ## Methods -/

/-- Whether a method takes the given number of arguments. -/
def accepts (arity : Nat) (method : Method) : Bool :=
  match method.parameters.getLast? with
  | none => arity == 0
  | some last =>
      if ['.', '.', '.'].isSuffixOf last.type.toList then method.parameters.length ≤ arity + 1
      else arity == method.parameters.length

/-- The methods of the given name that a record declares. -/
def methodsNamed (name : String) (record : TypeRecord) : List Method :=
  record.methods.filter fun method => method.name == name && !method.isConstructor

/-- The method of a record that a call means: one that takes the arguments, or
else the first one of the name. -/
def methodIn? (name : String) (arity : Nat) (record : TypeRecord) : Option BoundMethod :=
  let methods := methodsNamed name record
  ((methods.find? (accepts arity)).or methods.head?).map fun method =>
    ⟨record.name, method.name, method.returnType⟩

/-- The method that a call on a record means: the nearest type that declares the
name decides. -/
def findMethod (index : Index) (record : TypeRecord) (name : String) (arity : Nat) :
    Resolving BoundMethod := do
  match (← ancestry index record).findSome? (methodIn? name arity) with
  | some method => return method
  | none => throw (.noMethod name record.name)

/-! ## Receivers -/

/-- The record of the first name of a dotted path: a local variable, a field or a
type. -/
def firstRecord (index : Index) (scope : Scope) (name : String) : Resolving TypeRecord := do
  match Ordered.get? name scope.locals with
  | some type => typeNamed index type
  | none =>
      match ← fieldType? index scope.current name with
      | some type => typeNamed index type
      | none =>
          match ← find index name with
          | some record => return record
          | none => throw (.unknownReceiver name)

/-- The record of a dotted path: the full name of a type, or a first name with
fields behind it. -/
def pathRecord (index : Index) (scope : Scope) (path : String) : Resolving TypeRecord := do
  let whole ← if isDotted path then find index path else pure none
  match whole with
  | some record => return record
  | none =>
      match Text.split '.' path with
      | [] => throw (.unknownReceiver path)
      | first :: members =>
          members.foldlM (fieldRecord index) (← firstRecord index scope first)

/-- The record of the superclass. -/
def superclassRecord (index : Index) (record : TypeRecord) : Resolving TypeRecord :=
  match record.superclass? with
  | some superclass => typeNamed index superclass
  | none => throw (.noSuperclass record.name)

/-- The receiver of a call that no chain precedes. -/
def plainReceiver (index : Index) (scope : Scope) (call : Call) : Resolving TypeRecord :=
  if call.isSuper then superclassRecord index scope.current
  else if call.qualifier = "" || call.qualifier = "this" then pure scope.current
  else pathRecord index scope call.qualifier

/-- Bind a call that no chain precedes. -/
def bindPlain (index : Index) (scope : Scope) (call : Call) : Resolving BoundMethod := do
  findMethod index (← plainReceiver index scope call) call.name call.arity

/-- The record that the head of a chain yields. -/
def headRecord (index : Index) (scope : Scope) : Link → Resolving TypeRecord
  | .this => pure scope.current
  | .call call => do typeNamed index (← bindPlain index scope call).returnType
  | .create type => typeNamed index type.text
  | .name qualifier member => pathRecord index scope (nameIn qualifier member)
  | .other form => throw (.chainHead form.label)

/-- The record that the next element of a chain yields. -/
def nextRecord (index : Index) (record : TypeRecord) (link : Link) : Resolving TypeRecord :=
  match link with
  | .name _ member => fieldRecord index record member
  | .call call =>
      if call.isSuper then throw (.chainElement link.label)
      else do typeNamed index (← findMethod index record call.name call.arity).returnType
  | _ => throw (.chainElement link.label)

/-- The receiver of a call. -/
def receiver (index : Index) (scope : Scope) (site : CallSite) : Resolving TypeRecord :=
  match site.chain with
  | [] => plainReceiver index scope site.call
  | head :: links => do links.foldlM (nextRecord index) (← headRecord index scope head)

/-- Bind a call to the method it means. -/
def bind (index : Index) (scope : Scope) (site : CallSite) : Resolving BoundMethod := do
  findMethod index (← receiver index scope site) site.call.name site.call.arity

end JavaUml.Resolve
