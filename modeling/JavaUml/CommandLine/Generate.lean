import JavaUml.Diagram.ClassDiagram
import JavaUml.Diagram.ComponentDiagram
import JavaUml.Model.Component
import JavaUml.Render.Renderer
import JavaUml.Resolve.Sequence

/-!
# Generating diagrams

One action draws the class diagram of a source folder, with a component diagram
if asked for, and one draws the sequence diagram of an entry method.  Both read
their settings where they need them, so a setting of the wrong kind ends them
only there.
-/

namespace JavaUml.CommandLine

open Config (Setting)
open Session (Fault Action)
open Model (TypeMap TypeRecord)

/-! ## Settings -/

/-- The value of a key in a section. -/
def entryOf (group : Setting) (key : String) : Except Fault Setting :=
  match group with
  | .mapping entries =>
      match Ordered.get? (.text key) entries with
      | some value => .ok value
      | none => .error (.missingKey key)
  | _ => .error .wrongKind

/-- The value of a key in a section, as an action. -/
def demand (group : Setting) (key : String) : Action Setting :=
  Action.ofExcept (entryOf group key)

/-- The trusted packages up to the first item that is no text, and whether there
is such an item.  A pair counts as two items. -/
def trustedOf (setting : Setting) : Except Fault (List String × Bool) := do
  let items ← Render.Renderer.listed setting
  let texts := items.flatMap fun item =>
    match item with
    | .pair first second => [first.text?, second.text?]
    | item => [item.text?]
  return ((texts.takeWhile Option.isSome).filterMap id, texts.any Option.isNone)

/-- How many levels of calls are followed, if the setting can be compared with a
number. -/
def limitOf : Setting → Option Int
  | .scalar (.bool value) => some (if value then 1 else 0)
  | .scalar (.number (.whole value)) => some value
  | .scalar (.number (.floating value)) => some (if value.toFloat ≤ 0.0 then 0 else 1)
  | _ => none

/-- The text of an actor.  A sequence or mapping is none. -/
def actorOf (setting : Setting) : Except Fault String :=
  match setting with
  | .scalar value => if value.isUnwritable then .error .unwritable else .ok value.toText
  | _ => .error .wrongKind

/-! ## Analysis -/

/-- A fault of an analysis as one of the session. -/
def faultOfRun : Extract.RunFault → Fault
  | .noFolder path => .path ⟨.missing, path⟩
  | .broken fault => .java fault
  | .unnamable problem => .path problem
  | .beyondTrusted => .wrongKind

/-- A fault of tracing as one of the session. -/
def faultOfTrace : Resolve.TraceFault → Fault
  | .broken fault => .java fault
  | .unnamable problem => .path problem
  | .noLimit => .wrongKind

/-- An analysis of sources with the given trusted packages. -/
def beginAnalysis (trusted : Setting) : Action Extract.Analysis := do
  let (packages, isOpenEnded) ← Action.ofExcept (trustedOf trusted)
  return { Extract.Analysis.start packages "" with isOpenEnded := isOpenEnded }

/-- Analyse all source files under a folder.  With a suffix that is no text,
the first file whose name is compared with it ends the analysis. -/
def analyse (begun : Extract.Analysis) (suffix : Setting) (folder : String) :
    Action Extract.Analysis := do
  let files := (← get).files
  if suffix.text?.isNone && !(Files.sourceFiles files "" folder).isEmpty then
    Action.note (Extract.Analysis.opening folder)
    throw .wrongKind
  let start := { begun with suffix := suffix.text?.getD "" }
  let (analysis, outcome) := start.takeFolder files folder
  Action.noteAll analysis.log
  Action.ofExcept (outcome.mapError faultOfRun)
  return analysis

/-! ## Diagrams -/

/-- The log line about a folder that cannot be a source. -/
def noSourceLine (folder : String) : LogEntry :=
  .error ("Source directory does not exist or is not a directory: " ++ folder)

/-- Perform writes.  A failure to draw or to write is logged and gives no paths. -/
def written (subject : String) (writes : Action (List String)) :
    Action (Option (List String)) := do
  match ← Action.attempt writes with
  | .ok paths => return some paths
  | .error (.render problem) => do
      Action.note (.error ("Error rendering " ++ subject ++ ": " ++ problem.message))
      return none
  | .error (.path problem) =>
      if problem.isReported then
        Action.note (.error ("Cannot write diagram files: " ++ problem.message))
        return none
      else throw (.path problem)
  | .error fault => throw fault

/-- Print the paths of written files. -/
def printPaths (paths : List String) : Action Unit :=
  paths.forM fun path => Action.print ("✅ " ++ path)

/-- Write the class diagram and, if asked for, the component diagram. -/
def writeClassDiagrams (renderer : Render.Renderer) (types : TypeMap) (output formats : Setting)
    (withImages withComponents : Bool) : Action (List String) := do
  let base ← demand output "class_diagram"
  let paths ← renderer.writeDiagram (Diagram.classDiagram types) base formats withImages
  if withComponents then
    Action.noteAll (Model.componentsLog types)
    let base ← demand output "component_diagram"
    let more ← renderer.writeDiagram (Diagram.componentDiagram (Model.components types)) base
      formats withImages
    return paths ++ more
  else return paths

/-- Draw the class diagram of a source folder.  The result is the exit status. -/
def generateClassDiagrams (folder : String) (config : Setting) (renderer : Render.Renderer)
    (withImages withComponents : Bool) : Action Int := do
  let analysis ← demand config "analysis"
  let output ← demand config "output"
  unless Files.isFolderAt (← get).files folder do
    Action.note (noSourceLine folder)
    return 1
  Action.note (.info ("Source directory: " ++ folder))
  let base ← demand output "class_diagram"
  Action.note (.info ("Output base path: " ++ base.display))
  let trusted ← demand analysis "trusted_prefixes"
  let suffix ← demand analysis "source_suffix"
  let _ ← demand analysis "show_progress"
  let begun ← beginAnalysis trusted
  let found ← Action.phase "analysis" (analyse begun suffix folder)
  let records := found.catalog.types.records
  if records.isEmpty then
    Action.note (.warning "No Java classes found in the specified directory")
    return 0
  Action.note (.info ("Found " ++ toString records.length ++ " classes"))
  Action.noteAll (records.map fun record => .info ("  - " ++ record.kind ++ " " ++ record.fullName))
  let formats ← demand (← demand config "plantuml") "formats"
  let writes := writeClassDiagrams renderer found.catalog.types output formats withImages
    withComponents
  match ← written "UML diagram" writes with
  | none => return 1
  | some paths => do
      printPaths paths
      let problems := found.catalog.diagnostics.length
      if problems ≠ 0 then
        Action.print ("⚠️ " ++ toString problems ++
          " problem(s) recovered during analysis, see log")
      return 0

/-- Trace the calls of an entry method.  Its file cannot be looked for with a
suffix that is no text. -/
def traceCalls (tracer : Resolve.Tracer) (suffix : Setting) (typeName method : String) :
    Action (List Diagram.Trace × Resolve.Tracer) := do
  if suffix.text?.isNone then throw .wrongKind
  let outcome := tracer.trace typeName method
  Action.noteAll outcome.log
  let traces ← Action.ofExcept (outcome.traces.mapError faultOfTrace)
  return (traces, outcome.tracer)

/-- Draw the sequence diagram of an entry method.  The result is the exit
status. -/
def generateSequenceDiagram (folder typeName method : String) (config : Setting)
    (renderer : Render.Renderer) (withImages : Bool) : Action Int := do
  let sequence ← demand config "sequence"
  let analysis ← demand config "analysis"
  let base ← demand (← demand config "output") "sequence_diagram"
  unless Files.isFolderAt (← get).files folder do
    Action.note (noSourceLine folder)
    return 1
  Action.note (.info ("Source: " ++ folder))
  Action.note (.info ("Entry Point: " ++ typeName ++ "." ++ method))
  let depth ← demand sequence "max_depth"
  let suffix ← demand analysis "source_suffix"
  let trusted ← demand analysis "trusted_prefixes"
  let _ ← demand analysis "show_progress"
  let found ← analyse (← beginAnalysis trusted) suffix folder
  let tracer := Resolve.Tracer.ofIndex (← get).files folder (suffix.text?.getD "")
    (limitOf depth) found.catalog.types found.catalog.diagnostics
  let (traces, after) ← Action.phase "sequence analysis" (traceCalls tracer suffix typeName method)
  let actor ← Action.ofExcept (actorOf (← demand sequence "actor"))
  let diagram := Diagram.sequenceDiagram typeName method actor traces
  let formats := Setting.sequence [.text "png"]
  match ← written "sequence diagram" (renderer.writeDiagram diagram base formats withImages) with
  | none => return 1
  | some paths => do
      printPaths paths
      let unresolved := traces.countP fun trace => !trace.isResolved
      Action.print ("🔍 " ++ toString traces.length ++ " call(s) traced, " ++
        toString unresolved ++ " unresolved")
      let skipped := after.diagnostics.countP Model.Diagnostic.isFileFailure
      if skipped ≠ 0 then
        Action.print ("⚠️ " ++ toString skipped ++ " file(s) could not be indexed, see log")
      return 0

end JavaUml.CommandLine
