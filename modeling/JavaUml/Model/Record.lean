import JavaUml.Java.Naming
import JavaUml.Model.Visibility

/-!
# Type records

What is known about one class, interface or enum: its members, its supertypes
and the types it depends on, each as written in the source.  Members have a
text of their own, which class diagrams show.
-/

namespace JavaUml.Model

/-- A parameter of a method or constructor. -/
structure Parameter where
  name : String
  type : String
  deriving DecidableEq, Repr

/-- A field.  An enum constant is a public field of the enum's own type. -/
structure Field where
  name : String
  type : String
  visibility : Visibility
  deriving DecidableEq, Repr

/-- A method.  A constructor carries the name of its type and no return type. -/
structure Method where
  name : String
  returnType : String
  visibility : Visibility
  isStatic : Bool
  isAbstract : Bool
  parameters : List Parameter
  deriving DecidableEq, Repr

/-- What is known about one type. -/
structure TypeRecord where
  name : String
  package : String
  isInterface : Bool
  isAbstract : Bool
  isEnum : Bool
  superclass : Option String
  interfaces : List String
  fields : List Field
  methods : List Method
  dependencies : List String
  filePath : Option String
  deriving DecidableEq, Repr

/-- A parameter as a diagram shows it. -/
def Parameter.text (parameter : Parameter) : String :=
  parameter.name ++ ": " ++ parameter.type

/-- A field as a diagram shows it. -/
def Field.text (field : Field) : String :=
  field.visibility.symbol ++ field.name ++ ": " ++ field.type

/-- Whether a method is a constructor. -/
def Method.isConstructor (method : Method) : Bool :=
  method.returnType == ""

/-- A method as a diagram shows it.  Constructors and `void` methods have no
return type behind the parameters. -/
def Method.text (method : Method) : String :=
  let head := method.visibility.symbol ++ method.name ++ "(" ++
    ", ".intercalate (method.parameters.map Parameter.text) ++ ")"
  if method.returnType = "" ∨ method.returnType = "void" then head
  else head ++ ": " ++ method.returnType

/-- The component of the types without a package. -/
def defaultComponent : String :=
  "(default)"

namespace TypeRecord

/-- A record of a plain class about which nothing else is known. -/
def named (name : String) : TypeRecord where
  name := name
  package := ""
  isInterface := false
  isAbstract := false
  isEnum := false
  superclass := none
  interfaces := []
  fields := []
  methods := []
  dependencies := []
  filePath := none

/-- The name with the package in front of it. -/
def fullName (record : TypeRecord) : String :=
  Java.nameIn record.package record.name

/-- The component that a type belongs to: its package. -/
def component (record : TypeRecord) : String :=
  if record.package = "" then defaultComponent else record.package

/-- The word in front of a type in a class diagram. -/
def kind (record : TypeRecord) : String :=
  if record.isEnum then "enum"
  else if record.isInterface then "interface"
  else if record.isAbstract then "abstract class"
  else "class"

/-- The superclass, where an empty name stands for none. -/
def superclass? (record : TypeRecord) : Option String :=
  record.superclass.filter (· ≠ "")

/-- The names of the direct supertypes, the superclass first. -/
def supertypes (record : TypeRecord) : List String :=
  record.superclass?.toList ++ record.interfaces

/-- Add an implemented interface, once. -/
def addInterface (record : TypeRecord) (name : String) : TypeRecord :=
  if record.interfaces.contains name then record
  else { record with interfaces := record.interfaces ++ [name] }

/-- Add a dependency, once.  The first reference decides its position. -/
def addDependency (record : TypeRecord) (name : String) : TypeRecord :=
  if record.dependencies.contains name then record
  else { record with dependencies := record.dependencies ++ [name] }

end TypeRecord

end JavaUml.Model
