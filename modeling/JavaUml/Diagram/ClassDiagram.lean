import JavaUml.Diagram.Lines
import JavaUml.Model.Index

/-!
# Class diagrams

One block per type, grouped into packages in the order of their names, and
then the edges between types of the model: inheritance, realization and use.
Types without a package stand outside any group.
-/

namespace JavaUml.Diagram

open JavaUml.Model

/-- The packages of a type map, sorted. -/
def packages (types : TypeMap) : List String :=
  (sorted (types.records.map TypeRecord.package)).eraseDups

/-- The lines of one type: fields, then methods, with a separator if there are
both. -/
def classBlock (record : TypeRecord) : List String :=
  let indent := if record.package = "" then "" else "  "
  let separator :=
    if record.fields.isEmpty || record.methods.isEmpty then [] else [indent ++ "  --"]
  [indent ++ record.kind ++ " " ++ record.name ++ " \x7b"] ++
    record.fields.map (fun field => indent ++ "  " ++ field.text) ++ separator ++
    record.methods.map (fun method => indent ++ "  " ++ method.text) ++
    [indent ++ "\x7d"]

/-- The lines of one package, wrapped if the package has a name. -/
def packageBlock (types : TypeMap) (package : String) : List String :=
  let records := types.records.filter fun record => record.package == package
  let blocks := records.flatMap fun record => classBlock record ++ [""]
  if package = "" then blocks
  else ["package \"" ++ package ++ "\" \x7b"] ++ blocks ++ ["\x7d", ""]

/-- The targets of the `uses` edges of a record: simple names of dependencies
that the model has, without the record itself and its direct supertypes. -/
def usesTargets (index : Index) (record : TypeRecord) : List String :=
  let superclass := record.superclass?.map Java.simpleName
  let realized := record.interfaces.map Java.simpleName
  ((record.dependencies.map Java.simpleName).filter fun target =>
    some target != superclass && !realized.contains target && target != record.name &&
      index.hasSimpleName target).eraseDups

/-- How a type relates to another one. -/
inductive EdgeKind where
  | inherits
  | realizes
  | uses
  deriving DecidableEq, Repr

/-- An edge from a type to another one, both by their simple names. -/
structure Edge where
  kind : EdgeKind
  source : String
  target : String
  deriving DecidableEq, Repr

/-- The line of an edge.  A supertype stands in front of the type. -/
def Edge.text (edge : Edge) : String :=
  match edge.kind with
  | .inherits => edge.target ++ " <|-- " ++ edge.source
  | .realizes => edge.target ++ " <|.. " ++ edge.source
  | .uses => edge.source ++ " ..> " ++ edge.target ++ " : uses"

/-- The edges that one record brings. -/
def edgesOf (index : Index) (record : TypeRecord) : List Edge :=
  let inherited := (record.superclass?.map Java.simpleName).toList.filter fun parent =>
    parent != "" && index.hasSimpleName parent
  let realized := (record.interfaces.map Java.simpleName).filter index.hasSimpleName
  inherited.map (Edge.mk .inherits record.name) ++ realized.map (Edge.mk .realizes record.name) ++
    (usesTargets index record).map (Edge.mk .uses record.name)

/-- The edges between types of the model, record by record. -/
def classEdges (types : TypeMap) : List String :=
  (types.records.flatMap (edgesOf ⟨types⟩)).map Edge.text

/-- The lines of the class diagram. -/
def classLines (types : TypeMap) : List String :=
  ["@startuml",
    "skinparam classAttributeIconSize 0",
    "skinparam classFontSize 12",
    "skinparam packageStyle rectangle",
    "left to right direction",
    ""] ++
    (packages types).flatMap (packageBlock types) ++
    ["", "' Relationships"] ++ classEdges types ++ ["@enduml"]

/-- The class diagram of a type map. -/
def classDiagram (types : TypeMap) : String :=
  textOf (classLines types)

end JavaUml.Diagram
