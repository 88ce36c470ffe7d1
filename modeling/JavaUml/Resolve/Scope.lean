import JavaUml.Java.Tree
import JavaUml.Model.Record
import JavaUml.Ordered

/-!
# What a method body can see

The current type, and the declared types of parameters and local variables.  The
variables of all blocks of a method share one scope, in which parameters come
first, then variables, then the parameters of catch clauses; a later
declaration of a name wins.
-/

namespace JavaUml.Resolve

open JavaUml.Java

/-- What a call in a method body can see. -/
structure Scope where
  current : Model.TypeRecord
  locals : List (String × String)

/-- The parameters that a node declares. -/
def parametersOf : Node → List (String × String)
  | .parameter name type _ _ => [(name, type.text)]
  | _ => []

/-- The variables that a node declares. -/
def variablesOf : Node → List (String × String)
  | .variables type names _ => names.map fun name => (name, type.text)
  | _ => []

/-- The caught parameters that a node declares, each with its first type. -/
def caughtOf : Node → List (String × String)
  | .caught (type :: _) name => [(name, type)]
  | _ => []

/-- The types of the names that a method declares. -/
def localsOf (method : Node) : List (String × String) :=
  let nodes := method.preorder
  Ordered.ofList <|
    nodes.flatMap parametersOf ++ nodes.flatMap variablesOf ++ nodes.flatMap caughtOf

end JavaUml.Resolve
