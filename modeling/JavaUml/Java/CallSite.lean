import JavaUml.Java.Tree

/-!
# Call sites

Every method call in a tree, once.  A call is noted when it is complete: the
calls in its arguments come before it, and the calls of a chain from left to
right.  A call in a chain knows the elements in front of it.
-/

namespace JavaUml.Java

/-- A method call with the elements of its chain in front of it. -/
structure CallSite where
  call : Call
  chain : List Link

/-- The call site of an element, if it is a call. -/
def Link.site (chain : List Link) : Link → List CallSite
  | .call made => [⟨made, chain⟩]
  | _ => []

mutual

/-- The call sites of a tree. -/
def Node.callSites : Node → List CallSite
  | .type _ annotations constants members =>
      callSitesAll annotations ++ callSitesAll constants ++ callSitesAll members
  | .constant _ parts => callSitesAll parts
  | .field _ _ _ parts => callSitesAll parts
  | .method _ annotations parameters body =>
      callSitesAll annotations ++ callSitesAll parameters ++ callSitesAll body
  | .parameter _ _ _ annotations => callSitesAll annotations
  | .variables _ _ parts => callSitesAll parts
  | .caught _ _ => []
  | .primary link parts selectors =>
      callSitesAll parts ++ link.site [] ++ selectorSites [link] selectors
  | .group _ parts => callSitesAll parts

/-- The call sites of several trees. -/
def callSitesAll : List Node → List CallSite
  | [] => []
  | node :: nodes => node.callSites ++ callSitesAll nodes

/-- The call sites of selectors behind the given elements. -/
def selectorSites (chain : List Link) : List Node → List CallSite
  | [] => []
  | .primary link parts _ :: selectors =>
      callSitesAll parts ++ link.site chain ++ selectorSites (chain ++ [link]) selectors
  | _ :: selectors => selectorSites chain selectors

end

/-- The body of a method. -/
def Node.body : Node → List Node
  | .method _ _ _ body => body
  | _ => []

/-- The call sites in the body of a method. -/
def Node.bodySites (method : Node) : List CallSite :=
  callSitesAll method.body

/-- What a search for a method in a unit came to. -/
inductive MethodSearch where
  | noType
  | noMethod
  | found (method : Node)

/-- Whether a member is a method of the given name. -/
def Node.isMethodNamed (name : String) : Node → Bool
  | .method header _ _ _ => !header.isConstructor && header.name == name
  | _ => false

/-- Whether a member is a constructor. -/
def Node.isConstructor : Node → Bool
  | .method header _ _ _ => header.isConstructor
  | _ => false

/-- The first method of the given name among members.  The name of the type
means its first constructor, unless a method bears it. -/
def memberNamed? (typeName methodName : String) (members : List Node) : Option Node :=
  match members.find? (Node.isMethodNamed methodName) with
  | some method => some method
  | none => if methodName = typeName then members.find? Node.isConstructor else none

/-- The members of a declaration, if it declares the given name and is no
annotation type. -/
def membersOf? (typeName : String) : Node → Option (List Node)
  | .type header _ _ members =>
      if header.name.text = typeName ∧ header.kind ≠ .annotationType then some members else none
  | _ => none

/-- Look for a method in the first type of the given name. -/
def CompilationUnit.findMethod (unit : CompilationUnit) (typeName methodName : String) :
    MethodSearch :=
  match unit.declarations.findSome? (membersOf? typeName) with
  | none => .noType
  | some members =>
      match memberNamed? typeName methodName members with
      | some method => .found method
      | none => .noMethod

end JavaUml.Java
