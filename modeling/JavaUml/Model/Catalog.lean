import JavaUml.Model.TypeMap

/-!
# Catalogues

What one run of extraction gathers: the type records and the problems from
which the run recovered.  A type declared more than once is kept in its last
form, and a diagnostic says so.
-/

namespace JavaUml.Model

/-- What went wrong. -/
inductive DiagnosticKind where
  | parseFailure
  | readFailure
  | duplicateType
  | resolutionFailure
  | labelled (label : String)
  deriving DecidableEq, Repr

namespace DiagnosticKind

/-- The written label of a kind. -/
def label : DiagnosticKind → String
  | parseFailure => "parse_failure"
  | readFailure => "read_failure"
  | duplicateType => "duplicate_type"
  | resolutionFailure => "resolution_failure"
  | labelled label => label

/-- The kind with a given label. -/
def ofLabel (label : String) : DiagnosticKind :=
  if label = "parse_failure" then parseFailure
  else if label = "read_failure" then readFailure
  else if label = "duplicate_type" then duplicateType
  else if label = "resolution_failure" then resolutionFailure
  else labelled label

end DiagnosticKind

/-- A problem from which a run recovered.  A file that does not parse has no
message of its own. -/
structure Diagnostic where
  kind : DiagnosticKind
  path : String
  message : Option String
  deriving DecidableEq, Repr

/-- Whether a diagnostic tells of a file that gave no records. -/
def Diagnostic.isFileFailure (diagnostic : Diagnostic) : Bool :=
  diagnostic.kind == .parseFailure || diagnostic.kind == .readFailure

/-- The records and problems of one run, and the packages it trusts. -/
structure Catalog where
  types : TypeMap
  diagnostics : List Diagnostic
  trusted : List String

namespace Catalog

/-- A catalogue without entries. -/
def empty (trusted : List String) : Catalog where
  types := TypeMap.empty
  diagnostics := []
  trusted := trusted

/-- Note a problem. -/
def report (catalog : Catalog) (diagnostic : Diagnostic) : Catalog :=
  { catalog with diagnostics := catalog.diagnostics ++ [diagnostic] }

/-- The problem of a second declaration. -/
def duplicate (record : TypeRecord) : Diagnostic where
  kind := .duplicateType
  path := record.filePath.getD ""
  message := some (record.fullName ++ " declared more than once, keeping the last declaration")

/-- Store a record under its full name, and report a name that was taken. -/
def add (catalog : Catalog) (record : TypeRecord) : Catalog :=
  let noted :=
    if catalog.types.contains record.fullName then catalog.report (duplicate record) else catalog
  { noted with types := noted.types.store record }

/-- Store the records of a compilation unit in order. -/
def addAll (catalog : Catalog) (records : List TypeRecord) : Catalog :=
  records.foldl add catalog

end Catalog

end JavaUml.Model
