import JavaUml.Extract.Records
import JavaUml.Files.Search
import JavaUml.Java.Grammar.Unit
import JavaUml.Model.Catalog

/-!
# Runs of extraction

A run takes compilation units one after the other and gathers their records in
a catalogue.  A unit is taken as a whole or not at all: a text that cannot be
read or parsed leaves one diagnostic and no records, and a fault that ends the
run leaves nothing.

What is asked of a run is a step: one text, one file, or all source files under a
folder.  A step carries what reading and parsing came to for each of its units.
-/

namespace JavaUml.Extract

open JavaUml.Model

/-- What reading and parsing a unit came to. -/
inductive UnitOutcome where
  | tree (unit : Java.CompilationUnit)
  | unreadable (problem : Files.ReadProblem)
  | unparsable
  | broken (fault : Java.Fault)
  | unnamable (problem : Files.PathProblem)

/-- The outcome of parsing. -/
def UnitOutcome.ofParse : Except Java.Fault Java.CompilationUnit → UnitOutcome
  | .ok unit => .tree unit
  | .error .rejected => .unparsable
  | .error fault => .broken fault

/-- The outcome of a text. -/
def UnitOutcome.ofText (text : String) : UnitOutcome :=
  .ofParse (Java.parse text)

/-- The outcome of a file. -/
def UnitOutcome.ofFile (files : Files.Disk) (path : String) : UnitOutcome :=
  match Files.readText files path with
  | .ok text => .ofText text
  | .error (.path problem) =>
      if problem.isReported then .unreadable (.path problem) else .unnamable problem
  | .error problem => .unreadable problem

/-- A compilation unit: its path, and what reading and parsing it came to. -/
structure SourceUnit where
  path : String
  outcome : UnitOutcome

/-- The unit of a file. -/
def SourceUnit.ofFile (files : Files.Disk) (path : String) : SourceUnit where
  path := path
  outcome := .ofFile files path

/-- What a run is asked to take.  A folder that is none has no units. -/
inductive Step where
  | text (unit : SourceUnit)
  | file (unit : SourceUnit)
  | folder (path : String) (units : Option (List SourceUnit))

namespace Step

/-- Take a Java text under the given path. -/
def ofText (path text : String) : Step :=
  .text ⟨path, .ofText text⟩

/-- Take a file. -/
def ofFile (files : Files.Disk) (path : String) : Step :=
  .file (.ofFile files path)

/-- Take the files with a suffix under a folder. -/
def ofFolder (files : Files.Disk) (suffix path : String) : Step :=
  .folder path <|
    if Files.isFolderAt files path then
      some ((Files.sourceFiles files suffix path).map (.ofFile files))
    else none

end Step

/-- What ends a run early. -/
inductive RunFault where
  | noFolder (path : String)
  | broken (fault : Java.Fault)
  | unnamable (problem : Files.PathProblem)
  | beyondTrusted
  deriving DecidableEq, Repr

/-- The state of a run: the catalogue and the log so far. -/
structure Analysis where
  catalog : Catalog
  suffix : String
  log : List LogEntry
  /-- Whether the list of trusted packages goes on with something that is none.
  A name that none of them covers then ends the run. -/
  isOpenEnded : Bool

namespace Analysis

/-- A run that has taken no unit yet. -/
def start (trusted : List String) (suffix : String) : Analysis where
  catalog := .empty trusted
  suffix := suffix
  log := []
  isOpenEnded := false

/-- Write to the log. -/
def note (analysis : Analysis) (entry : LogEntry) : Analysis :=
  { analysis with log := analysis.log ++ [entry] }

/-- The log line about a stored record. -/
def processed (record : TypeRecord) : LogEntry :=
  .debug ("Processed " ++ record.kind ++ ": " ++ record.fullName)

/-- The log line about a file that does not parse. -/
def parseFailure (path : String) : LogEntry :=
  .warning ("Failed to parse file " ++ path ++ ": <parse error>")

/-- Take one unit. -/
def take (analysis : Analysis) (unit : SourceUnit) : Analysis × Except RunFault (List TypeRecord) :=
  match unit.outcome with
  | .tree tree =>
      if analysis.isOpenEnded && !isAllTrusted analysis.catalog.trusted tree then
        (analysis, .error .beyondTrusted)
      else
        let records := records analysis.catalog.trusted (some unit.path) tree
        ({ analysis with
            catalog := analysis.catalog.addAll records
            log := analysis.log ++ records.map processed },
          .ok records)
  | .unreadable problem =>
      let noted := analysis.note <|
        .warning ("Failed to read file " ++ unit.path ++ ": " ++ problem.message)
      ({ noted with
          catalog := noted.catalog.report ⟨.readFailure, unit.path, some problem.message⟩ },
        .ok [])
  | .unparsable =>
      let noted := analysis.note (parseFailure unit.path)
      ({ noted with catalog := noted.catalog.report ⟨.parseFailure, unit.path, none⟩ }, .ok [])
  | .broken fault => (analysis, .error (.broken fault))
  | .unnamable problem => (analysis, .error (.unnamable problem))

/-- Take a unit that was read from a file. -/
def takeRead (analysis : Analysis) (unit : SourceUnit) :
    Analysis × Except RunFault (List TypeRecord) :=
  (analysis.note (.debug ("Analyzing file: " ++ unit.path))).take unit

/-- Take units in order, up to the first one that ends the run. -/
def takeAll : Analysis → List SourceUnit → Analysis × Except RunFault Unit
  | analysis, [] => (analysis, .ok ())
  | analysis, unit :: units =>
      match analysis.takeRead unit with
      | (after, .ok _) => takeAll after units
      | (after, .error fault) => (after, .error fault)

/-- The log line at the start of a folder. -/
def opening (path : String) : LogEntry :=
  .info ("Analyzing Java files in directory: " ++ path)

/-- Take the units of a folder. -/
def takeListed (analysis : Analysis) (path : String) (units : List SourceUnit) :
    Analysis × Except RunFault Unit :=
  let begun := (analysis.note (opening path)).note
    (.info ("Found " ++ toString units.length ++ " Java files"))
  match begun.takeAll units with
  | (after, .ok ()) =>
      let failures := after.catalog.diagnostics.countP Diagnostic.isFileFailure
      if failures = 0 then (after, .ok ())
      else
        (after.note <| .warning (toString failures ++ " of " ++ toString units.length ++
          " files could not be analyzed"), .ok ())
  | (after, .error fault) => (after, .error fault)

/-- Take one step.  A folder yields all records there are. -/
def perform (analysis : Analysis) : Step → Analysis × Except RunFault (List TypeRecord)
  | .text unit => analysis.take unit
  | .file unit => analysis.takeRead unit
  | .folder path none => (analysis, .error (.noFolder path))
  | .folder path (some units) =>
      let (after, outcome) := analysis.takeListed path units
      (after, outcome.map fun _ => after.catalog.types.records)

/-- Take steps one after the other.  A step that fails does not keep later ones
from being taken. -/
def run (analysis : Analysis) (steps : List Step) : Analysis :=
  steps.foldl (fun analysis step => (analysis.perform step).1) analysis

/-- Take all source files under a folder. -/
def takeFolder (files : Files.Disk) (analysis : Analysis) (path : String) :
    Analysis × Except RunFault Unit :=
  let (after, outcome) := analysis.perform (.ofFolder files analysis.suffix path)
  (after, outcome.map fun _ => ())

end Analysis

end JavaUml.Extract
