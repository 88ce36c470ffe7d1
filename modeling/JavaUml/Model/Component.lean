import JavaUml.Model.Index

/-!
# Components

A package is a component.  It provides the interfaces it declares, depends on
the other components that its types refer to, and requires the interfaces among
these references.

Two passes over the types build the components.  The first one adds each type to
the component of its package, and the second one follows the dependencies of each
type to the components that they lie in.
-/

namespace JavaUml.Model

/-- A package with what it declares, provides and needs.  The lists stand for
sets and hold no name twice. -/
structure Component where
  name : String
  classes : List String
  interfaces : List String
  dependencies : List String
  provided : List String
  required : List String
  deriving DecidableEq, Repr

namespace Component

/-- A component about which only the name is known. -/
def named (name : String) : Component where
  name := name
  classes := []
  interfaces := []
  dependencies := []
  provided := []
  required := []

/-- Count a type among those of the component if it is one of them. -/
def addMember (record : TypeRecord) (component : Component) : Component :=
  if component.name ≠ record.component then component
  else if record.isInterface then
    { component with
      interfaces := component.interfaces.insert record.name
      provided := component.provided.insert record.name }
  else { component with classes := component.classes.insert record.name }

/-- Follow one dependency of a type of the component.  Nothing comes of a name
that means no type, or one of the same component. -/
def follow (index : Index) (component : Component) (dependency : String) : Component :=
  match index.find? dependency with
  | none => component
  | some target =>
      if target.component = component.name then component
      else
        { component with
          dependencies := component.dependencies.insert target.component
          required :=
            if target.isInterface then component.required.insert dependency
            else component.required }

/-- Follow the dependencies of a type if it is one of the component. -/
def link (index : Index) (record : TypeRecord) (component : Component) : Component :=
  if component.name ≠ record.component then component
  else record.dependencies.foldl (follow index) component

end Component

/-- The components with one of the given name among them, at the end if it is
new. -/
def withPackage (known : List Component) (name : String) : List Component :=
  if known.any fun component => component.name == name then known
  else known ++ [.named name]

/-- The components of records, with their members only. -/
def gather (records : List TypeRecord) : List Component :=
  records.foldl (fun known record =>
    (withPackage known record.component).map (Component.addMember record)) []

/-- The components of a type map, in the order of their first types. -/
def components (types : TypeMap) : List Component :=
  types.records.foldl (fun known record => known.map (Component.link ⟨types⟩ record))
    (gather types.records)

/-- The log line about one component. -/
def Component.summary (component : Component) : LogEntry :=
  .info <| "  - Component: " ++ component.name ++ " (" ++
    toString component.classes.length ++ " classes, " ++
    toString component.interfaces.length ++ " interfaces, " ++
    toString component.dependencies.length ++ " dependencies)"

/-- What the search for components leaves in the log: ambiguous names on the
way, then a summary. -/
def componentsLog (types : TypeMap) : List LogEntry :=
  let index : Index := ⟨types⟩
  let found := components types
  (index.reports [] (types.records.flatMap TypeRecord.dependencies)).1 ++
    LogEntry.info ("Found " ++ toString found.length ++ " components") ::
      found.map Component.summary

end JavaUml.Model
