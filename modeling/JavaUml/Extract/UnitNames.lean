import JavaUml.Java.Naming
import JavaUml.Java.Tree
import JavaUml.Ordered

/-!
# What simple names mean in a compilation unit

A simple name means, in this order, a type imported by name, a type declared in
the unit, a type of `java.lang`, or a type of `java.util` if that package is
imported as a whole.  Types of the same package in other files are unknown here.
-/

namespace JavaUml.Extract

open JavaUml.Java

/-- The names that a compilation unit brings into scope. -/
structure UnitNames where
  package : String
  imports : List (String × String)
  wildcards : List String
  declared : List String

namespace UnitNames

/-- The types imported by name.  A later import of the same simple name wins. -/
def importsOf (imports : List Import) : List (String × String) :=
  Ordered.ofList <| (imports.filter fun declaration =>
    !declaration.isStatic && !declaration.isWildcard).map fun declaration =>
      (simpleName declaration.path, declaration.path)

/-- The packages imported as a whole. -/
def wildcardsOf (imports : List Import) : List String :=
  ((imports.filter fun declaration =>
    !declaration.isStatic && declaration.isWildcard).map Import.path).eraseDups

/-- The simple name of a type declaration. -/
def declaredName? : Node → Option String
  | .type header _ _ _ => some header.name.text
  | _ => none

/-- The names of a unit. -/
def ofUnit (unit : CompilationUnit) : UnitNames where
  package := unit.package
  imports := importsOf unit.imports
  wildcards := wildcardsOf unit.imports
  declared := (unit.declarations.filterMap declaredName?).eraseDups

/-- The full name that a simple name stands for, if known. -/
def qualify (names : UnitNames) (name : String) : Option String :=
  match Ordered.get? name names.imports with
  | some path => some path
  | none =>
      if names.declared.contains name then some (nameIn names.package name)
      else if langNames.contains name then some ("java.lang." ++ name)
      else if utilNames.contains name && names.wildcards.contains "java.util" then
        some ("java.util." ++ name)
      else none

end UnitNames

end JavaUml.Extract
