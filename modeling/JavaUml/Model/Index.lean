import JavaUml.Log
import JavaUml.Model.TypeMap
import JavaUml.Ordered

/-!
# Looking types up by name

A simple name may belong to several records; the first one extracted is taken,
and the choice is reported the first time it is made.  A name with a dot in it
can only be a full name.

Two tables are made from the records: one by full name, and one from each simple
name to the records that share it.

What a look-up leaves behind is the name that was asked for: from the names asked
in turn, `Index.reports` gives the messages about ambiguous ones.  Questions of
all kinds, asked one after the other, are answered by `Index.answers`.
-/

namespace JavaUml.Model

/-- The records that names are looked up in. -/
structure Index where
  types : TypeMap

namespace Index

/-- The records by full name. -/
def byFullName (index : Index) : List (String × TypeRecord) :=
  Ordered.ofList (index.types.records.map fun record => (record.fullName, record))

/-- Add a record behind those that share its simple name. -/
def enroll (groups : List (String × List TypeRecord)) (record : TypeRecord) :
    List (String × List TypeRecord) :=
  Ordered.put record.name ((Ordered.get? record.name groups).getD [] ++ [record]) groups

/-- The records of each simple name, in extraction order. -/
def bySimpleName (index : Index) : List (String × List TypeRecord) :=
  index.types.records.foldl enroll []

/-- All records that a name may mean, in extraction order. -/
def candidates (index : Index) (name : String) : List TypeRecord :=
  if name = "" then []
  else if Java.isDotted name then (Ordered.get? name index.byFullName).toList
  else (Ordered.get? name index.bySimpleName).getD []

/-- The record that a name means: the first candidate. -/
def find? (index : Index) (name : String) : Option TypeRecord :=
  (index.candidates name).head?

/-- Whether a record has the given simple name. -/
def hasSimpleName (index : Index) (name : String) : Bool :=
  (Ordered.get? name index.bySimpleName).isSome

/-- The component of the type that a name means. -/
def componentOf? (index : Index) (name : String) : Option String :=
  (index.find? name).map TypeRecord.component

/-- The message about a name that means a first record and others. -/
def ambiguityEntry (name : String) (first : TypeRecord) (others : List TypeRecord) : LogEntry :=
  .debug <| "Ambiguous type name " ++ name ++ ": " ++
    ", ".intercalate ((first :: others).map TypeRecord.fullName) ++ ", using " ++ first.fullName

/-- The message about an ambiguous name, and nothing for other names. -/
def ambiguity? (index : Index) (name : String) : Option LogEntry :=
  match index.candidates name with
  | first :: second :: rest => some (ambiguityEntry name first (second :: rest))
  | _ => none

/-- The messages for names asked in turn, each name reported once, and the names
reported so far. -/
def reports (index : Index) : List String → List String → List LogEntry × List String
  | reported, [] => ([], reported)
  | reported, name :: names =>
      match index.ambiguity? name with
      | none => index.reports reported names
      | some entry =>
          if reported.contains name then index.reports reported names
          else
            let later := index.reports (reported ++ [name]) names
            (entry :: later.1, later.2)

end Index

/-- A question to an index. -/
inductive Query where
  | find (name : String)
  | candidates (name : String)
  | hasSimpleName (name : String)
  | component (name : String)
  deriving DecidableEq, Repr

/-- The names whose meaning a question decides on, and so reports on. -/
def Query.asked : Query → List String
  | find name => [name]
  | candidates _ => []
  | hasSimpleName _ => []
  | component name => [name]

/-- What an index says to a question. -/
inductive Answer where
  | type (found : Option TypeRecord)
  | types (all : List TypeRecord)
  | truth (value : Bool)
  | component (name : Option String)
  deriving DecidableEq, Repr

namespace Index

/-- The answer to a question. -/
def answer (index : Index) : Query → Answer
  | .find name => .type (index.find? name)
  | .candidates name => .types (index.candidates name)
  | .hasSimpleName name => .truth (index.hasSimpleName name)
  | .component name => .component (index.componentOf? name)

/-- The answers to questions in turn, each with what it leaves in the log.  The
names reported before are given. -/
def answers (index : Index) : List String → List Query → List (Answer × List LogEntry)
  | _, [] => []
  | reported, query :: queries =>
      let ambiguous := index.reports reported query.asked
      (index.answer query, ambiguous.1) :: index.answers ambiguous.2 queries

end Index

end JavaUml.Model
