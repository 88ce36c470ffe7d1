import JavaUml.Java.TypeText
import JavaUml.Model.Record

/-!
# Dependencies of a type

Every type named in the text of a member's type is a dependency, unless it is
primitive, a type variable or trusted.  A simple name is trusted only if it is
known to stand for a trusted full name, so a project type that happens to be
called `Date` stays a dependency.
-/

namespace JavaUml.Extract

open JavaUml.Model

/-- Which names are no dependencies: trusted packages, type variables in scope,
and the full names that simple names stand for. -/
structure NameRules where
  trusted : List String
  typeVariables : List String
  qualify : String → Option String

/-- The full name that a name stands for, if known.  A dotted name is its own
full name. -/
def NameRules.fullName? (rules : NameRules) (name : String) : Option String :=
  if Java.isDotted name then some name else rules.qualify name

/-- The full names in the text of a type that are compared with the trusted
packages. -/
def NameRules.compared (rules : NameRules) (type : String) : List String :=
  ((Java.typeNames type).filter fun name =>
    !Java.primitiveNames.contains name && !rules.typeVariables.contains name).filterMap
      rules.fullName?

/-- Whether a name is worth a dependency. -/
def NameRules.isDependency (rules : NameRules) (name : String) : Bool :=
  !Java.primitiveNames.contains name && !rules.typeVariables.contains name &&
    !(rules.fullName? name).any (Java.isTrusted rules.trusted)

/-- Add the dependencies that the text of a type brings. -/
def addDependencies (rules : NameRules) (record : TypeRecord) (type : String) : TypeRecord :=
  ((Java.typeNames type).filter rules.isDependency).foldl TypeRecord.addDependency record

end JavaUml.Extract
