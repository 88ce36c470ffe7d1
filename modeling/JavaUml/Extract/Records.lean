import JavaUml.Extract.Dependency
import JavaUml.Extract.UnitNames

/-!
# From declarations to records

Every class, interface and enum of a compilation unit gives one record, nested
and local declarations included.  Dependencies come in a fixed order: supertypes,
fields, methods with the return type before the parameters, constructors.
-/

namespace JavaUml.Extract

open JavaUml.Java JavaUml.Model

/-- What the records of one unit share. -/
structure UnitRules where
  names : UnitNames
  trusted : List String
  filePath : Option String

/-- The rules for names where the given type variables are in scope. -/
def UnitRules.within (rules : UnitRules) (typeVariables : List String) : NameRules where
  trusted := rules.trusted
  typeVariables := typeVariables
  qualify := rules.names.qualify

/-- A parameter of a method, where a variable number of arguments shows as
dots. -/
def parameter? : Node → Option Parameter
  | .parameter name type isVariadic _ =>
      some ⟨name, if isVariadic then type.text ++ "..." else type.text⟩
  | _ => none

/-- Add a field declaration. -/
def addField (rules : NameRules) (record : TypeRecord) (modifiers : List String)
    (type : TypeRef) (names : List String) : TypeRecord :=
  let record := addDependencies rules record type.text
  let visibility := Visibility.ofModifiers modifiers
  { record with fields := record.fields ++ names.map fun name => ⟨name, type.text, visibility⟩ }

/-- Add a method with its return type. -/
def addMethod (rules : NameRules) (record : TypeRecord) (header : MethodHeader)
    (parameters : List Parameter) : TypeRecord :=
  let returned := returnText header.returnType
  let method : Method :=
    { name := header.name
      returnType := returned
      visibility := Visibility.ofModifiers header.modifiers
      isStatic := header.modifiers.contains "static"
      isAbstract := header.modifiers.contains "abstract"
      parameters := parameters }
  let record := (returned :: parameters.map Parameter.type).foldl (addDependencies rules) record
  { record with methods := record.methods ++ [method] }

/-- Add a constructor, which bears the name of its type. -/
def addConstructor (rules : NameRules) (record : TypeRecord) (header : MethodHeader)
    (parameters : List Parameter) : TypeRecord :=
  let method : Method :=
    { name := record.name
      returnType := ""
      visibility := Visibility.ofModifiers header.modifiers
      isStatic := false
      isAbstract := false
      parameters := parameters }
  let record := (parameters.map Parameter.type).foldl (addDependencies rules) record
  { record with methods := record.methods ++ [method] }

/-- Add a member if it is a field. -/
def addIfField (rules : UnitRules) (typeVariables : List String) (record : TypeRecord) :
    Node → TypeRecord
  | .field modifiers type names _ =>
      addField (rules.within typeVariables) record modifiers type names
  | _ => record

/-- Add a member if it is a method. -/
def addIfMethod (rules : UnitRules) (typeVariables : List String) (record : TypeRecord) :
    Node → TypeRecord
  | .method header _ parameters _ =>
      if header.isConstructor then record
      else
        addMethod (rules.within (typeVariables ++ header.typeVariables)) record header
          (parameters.filterMap parameter?)
  | _ => record

/-- Add a member if it is a constructor. -/
def addIfConstructor (rules : UnitRules) (typeVariables : List String) (record : TypeRecord) :
    Node → TypeRecord
  | .method header _ parameters _ =>
      if header.isConstructor then
        addConstructor (rules.within (typeVariables ++ header.typeVariables)) record header
          (parameters.filterMap parameter?)
      else record
  | _ => record

/-- Add the members of a type: fields, then methods, then constructors. -/
def addMembers (rules : UnitRules) (typeVariables : List String) (record : TypeRecord)
    (members : List Node) : TypeRecord :=
  let record := members.foldl (addIfField rules typeVariables) record
  let record := members.foldl (addIfMethod rules typeVariables) record
  members.foldl (addIfConstructor rules typeVariables) record

/-- Add an extended type.  The last one is kept as the superclass. -/
def addExtended (record : TypeRecord) (type : TypeRef) : TypeRecord :=
  { record with superclass := some type.lastName }.addDependency type.lastName

/-- Add an implemented type. -/
def addImplemented (record : TypeRecord) (type : TypeRef) : TypeRecord :=
  (record.addInterface type.lastName).addDependency type.lastName

/-- Add an enum constant as a public field of the enum's own type. -/
def addIfConstant (record : TypeRecord) : Node → TypeRecord
  | .constant name _ =>
      { record with fields := record.fields ++ [⟨name, record.name, .publicAccess⟩] }
  | _ => record

/-- The record of a declaration before its members and supertypes are known. -/
def startRecord (rules : UnitRules) (header : TypeHeader) : TypeRecord :=
  { TypeRecord.named header.name.text with
    package := rules.names.package
    isInterface := header.kind == .interfaceType
    isAbstract := header.kind != .enumType && header.modifiers.contains "abstract"
    isEnum := header.kind == .enumType
    filePath := rules.filePath }

/-- The record of a declaration.  Annotation types have none. -/
def record? (rules : UnitRules) : Node → Option TypeRecord
  | .type header _ constants members =>
      if header.kind = .annotationType then none
      else
        let record := header.extended.foldl addExtended (startRecord rules header)
        let record := header.implemented.foldl addImplemented record
        let record := constants.foldl addIfConstant record
        some (addMembers rules header.typeVariables record members)
  | _ => none

/-- The types in a member that dependencies come from, each with the type
variables in scope. -/
def memberTypes (typeVariables : List String) : Node → List (List String × String)
  | .field _ type _ _ => [(typeVariables, type.text)]
  | .method header _ parameters _ =>
      let taken := (parameters.filterMap parameter?).map Parameter.type
      let types := if header.isConstructor then taken else returnText header.returnType :: taken
      types.map fun type => (typeVariables ++ header.typeVariables, type)
  | _ => []

/-- The full names in a declaration that are compared with the trusted packages. -/
def comparedIn (rules : UnitRules) : Node → List String
  | .type header _ _ members =>
      if header.kind = .annotationType then []
      else
        (members.flatMap (memberTypes header.typeVariables)).flatMap fun entry =>
          (rules.within entry.1).compared entry.2
  | _ => []

/-- Whether every full name of a unit that is compared with the trusted packages
is in one of them. -/
def isAllTrusted (trusted : List String) (unit : CompilationUnit) : Bool :=
  (unit.declarations.flatMap (comparedIn ⟨UnitNames.ofUnit unit, trusted, none⟩)).all
    (isTrusted trusted)

/-- The records of a compilation unit. -/
def records (trusted : List String) (filePath : Option String) (unit : CompilationUnit) :
    List TypeRecord :=
  unit.declarations.filterMap (record? ⟨UnitNames.ofUnit unit, trusted, filePath⟩)

end JavaUml.Extract
