import JavaUml.Java.TypeRef

/-!
# Syntax trees

The tree of a compilation unit keeps what the model is made of: declarations of
types, members, parameters and variables, and the primaries in which calls
occur.  Any other statement or expression is a group of its parts.

The parts of a node stand in the order in which they are visited.  A chain such
as `a.b().c.d()` is one primary for `a.b()` whose selectors are the elements
`c` and `d()`; selectors have no selectors of their own.
-/

namespace JavaUml.Java

/-- A method call without its receiver and arguments.  The qualifier is the
dotted path in front of the name, or empty. -/
structure Call where
  isSuper : Bool
  qualifier : String
  name : String
  arity : Nat
  deriving DecidableEq, Repr

/-- Elements of a chain whose type is never followed. -/
inductive LinkForm where
  | literal
  | ownConstructor
  | superConstructor
  | superField
  | superWord
  | classLiteral
  | voidLiteral
  | newArray
  | newInner
  | index
  deriving DecidableEq, Repr

/-- One element of a chain of primaries. -/
inductive Link where
  | this
  | name (qualifier member : String)
  | call (call : Call)
  | create (type : TypeRef)
  | other (form : LinkForm)

/-- What a group of parts is. -/
inductive Form where
  | annotationUse
  | annotationMethod
  | arrayValue
  | assertStatement
  | assignment
  | block
  | caseGroup
  | cast
  | catchClause
  | conditional
  | doStatement
  | emptyStatement
  | expressionStatement
  | forStatement
  | ifStatement
  | initializer
  | jump
  | lambda
  | methodReference
  | operation
  | resource
  | returnStatement
  | switchStatement
  | synchronizedStatement
  | throwStatement
  | tryStatement
  | whileStatement
  deriving DecidableEq, Repr

/-- The kinds of type declarations. -/
inductive TypeKind where
  | classType
  | interfaceType
  | enumType
  | annotationType
  deriving DecidableEq, Repr

/-- The head of a type declaration. -/
structure TypeHeader where
  kind : TypeKind
  modifiers : List String
  name : Word
  typeVariables : List String
  extended : List TypeRef
  implemented : List TypeRef

/-- The head of a method or constructor. -/
structure MethodHeader where
  isConstructor : Bool
  modifiers : List String
  typeVariables : List String
  returnType : Option TypeRef
  name : String

/-- A node of the syntax tree. -/
inductive Node where
  /-- A type with its annotations, enum constants and members. -/
  | type (header : TypeHeader) (annotations constants members : List Node)
  /-- An enum constant with its annotations, arguments and body. -/
  | constant (name : String) (parts : List Node)
  /-- A field declaration with its annotations and initial values. -/
  | field (modifiers : List String) (type : TypeRef) (names : List String) (parts : List Node)
  /-- A method or constructor.  A missing body is empty. -/
  | method (header : MethodHeader) (annotations parameters body : List Node)
  /-- A parameter with a type. -/
  | parameter (name : String) (type : TypeRef) (isVariadic : Bool) (annotations : List Node)
  /-- A variable declaration with its annotations and initial values. -/
  | variables (type : TypeRef) (names : List String) (parts : List Node)
  /-- The parameter of a catch clause. -/
  | caught (types : List String) (name : String)
  /-- A primary with its arguments and the like, and the selectors behind it. -/
  | primary (link : Link) (parts selectors : List Node)
  /-- Any other construct. -/
  | group (form : Form) (parts : List Node)

instance : Inhabited Node := ⟨.group .block []⟩

/-- An import declaration. -/
structure Import where
  path : String
  isStatic : Bool
  isWildcard : Bool
  deriving DecidableEq, Repr

/-- A compilation unit. -/
structure CompilationUnit where
  package : String
  /-- The annotations of the package. -/
  annotations : List Node
  imports : List Import
  types : List Node

/-- The name of an element of a chain in messages. -/
def LinkForm.label : LinkForm → String
  | literal => "Literal"
  | ownConstructor => "ExplicitConstructorInvocation"
  | superConstructor => "SuperConstructorInvocation"
  | superField => "SuperMemberReference"
  | superWord => "Keyword"
  | classLiteral => "ClassReference"
  | voidLiteral => "VoidClassReference"
  | newArray => "ArrayCreator"
  | newInner => "InnerClassCreator"
  | index => "ArraySelector"

/-- The name of an element of a chain in messages. -/
def Link.label : Link → String
  | this => "This"
  | name _ _ => "MemberReference"
  | call made => if made.isSuper then "SuperMethodInvocation" else "MethodInvocation"
  | create _ => "ClassCreator"
  | other form => form.label

mutual

/-- The nodes of a tree, each before its parts, the selectors of a primary
before its other parts. -/
def Node.preorder : Node → List Node
  | .type header annotations constants members =>
      .type header annotations constants members ::
        (preorderAll annotations ++ preorderAll constants ++ preorderAll members)
  | .constant name parts => .constant name parts :: preorderAll parts
  | .field modifiers type names parts => .field modifiers type names parts :: preorderAll parts
  | .method header annotations parameters body =>
      .method header annotations parameters body ::
        (preorderAll annotations ++ preorderAll parameters ++ preorderAll body)
  | .parameter name type isVariadic annotations =>
      .parameter name type isVariadic annotations :: preorderAll annotations
  | .variables type names parts => .variables type names parts :: preorderAll parts
  | .caught types name => [.caught types name]
  | .primary link parts selectors =>
      .primary link parts selectors :: (preorderAll selectors ++ preorderAll parts)
  | .group form parts => .group form parts :: preorderAll parts

/-- The nodes of several trees. -/
def preorderAll : List Node → List Node
  | [] => []
  | node :: nodes => node.preorder ++ preorderAll nodes

end

/-- The type declarations of a unit, nested ones right behind the part of the
declaration around them that comes before. -/
def CompilationUnit.declarations (unit : CompilationUnit) : List Node :=
  (preorderAll (unit.annotations ++ unit.types)).filter fun
    | .type .. => true
    | _ => false

end JavaUml.Java
