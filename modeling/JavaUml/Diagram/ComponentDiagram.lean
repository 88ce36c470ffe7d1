import JavaUml.Diagram.Lines
import JavaUml.Model.Component

/-!
# Component diagrams

One box per component in the order of the names, with its provided interfaces
and the number of its classes, and then the dependencies between components
that are shown.
-/

namespace JavaUml.Diagram

open JavaUml.Model

/-- The alias of a component: dots become underscores, parentheses go. -/
def aliasOf (name : String) : String :=
  String.ofList <| (name.toList.map fun c => if c = '.' then '_' else c).filter fun c =>
    c != '(' && c != ')'

/-- The components by name. -/
def inOrder (components : List Component) : List Component :=
  components.mergeSort fun first second => decide (first.name ≤ second.name)

/-- The box of one component. -/
def componentBlock (component : Component) : List String :=
  let own := aliasOf component.name
  let provided := sorted component.provided
  let listed :=
    if provided.isEmpty then []
    else ["  [Provided Interfaces]"] ++ provided.map (fun name => "  interface " ++ name) ++ [""]
  let counted :=
    if component.classes.isEmpty then []
    else ["  [Classes: " ++ toString component.classes.length ++ "]"]
  ["component \"" ++ component.name ++ "\" as " ++ own ++ " <<component>> \x7b"] ++
    listed ++ counted ++ ["\x7d"] ++
    provided.map (fun name => own ++ " -up- () " ++ name) ++ [""]

/-- The edges of one component to components that are shown. -/
def componentEdges (names : List String) (component : Component) : List String :=
  ((sorted component.dependencies).filter names.contains).map fun target =>
    aliasOf component.name ++ " ..> " ++ aliasOf target ++ " : uses"

/-- The lines of the component diagram. -/
def componentLines (components : List Component) : List String :=
  let ordered := inOrder components
  ["@startuml",
    "skinparam componentStyle rectangle",
    "skinparam component \x7b",
    "  BackgroundColor<<component>> LightBlue",
    "  BorderColor DarkBlue",
    "  FontSize 12",
    "\x7d",
    "left to right direction",
    ""] ++
    ordered.flatMap componentBlock ++
    ["", "' Component Dependencies"] ++
    ordered.flatMap (componentEdges (components.map Component.name)) ++
    ["@enduml"]

/-- The component diagram of a list of components. -/
def componentDiagram (components : List Component) : String :=
  textOf (componentLines components)

end JavaUml.Diagram
