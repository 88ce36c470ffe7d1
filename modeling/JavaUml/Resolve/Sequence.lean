import JavaUml.Diagram.SequenceDiagram
import JavaUml.Extract.Analysis
import JavaUml.Resolve.Binding

/-!
# Tracing one entry method

The calls in the body of one method are bound one after the other.  Each call
gives one trace; a call that stays unresolved also gives a diagnostic.  The
bodies of the methods called are not followed.
-/

namespace JavaUml.Resolve

open JavaUml.Model JavaUml.Extract

/-- Everything that tracing works on: the files, the index, and what has been
reported so far.  Without a limit that can be compared, no body is traced. -/
structure Tracer where
  files : Files.Disk
  root : String
  suffix : String
  limit : Option Int
  index : Index
  diagnostics : List Diagnostic
  reported : List String

/-- What ends tracing early. -/
inductive TraceFault where
  | broken (fault : Java.Fault)
  | unnamable (problem : Files.PathProblem)
  | noLimit
  deriving DecidableEq, Repr

/-- What tracing an entry method came to. -/
structure TraceOutcome where
  tracer : Tracer
  log : List LogEntry
  traces : Except TraceFault (List Diagram.Trace)

/-- One call site after binding. -/
structure SiteOutcome where
  trace : Diagram.Trace
  failure : Option Unresolved
  asked : List String

/-- Bind one call site. -/
def traceSite (index : Index) (scope : Scope) (typeName : String) (site : Java.CallSite) :
    SiteOutcome :=
  let outcome := (bind index scope site).run
  match outcome.value with
  | .ok method =>
      ⟨⟨typeName, method.declaringType, method.name, method.returnType, 0⟩, none, outcome.names⟩
  | .error reason =>
      ⟨⟨typeName, Diagram.unknownTarget, site.call.name, "void", 0⟩, some reason, outcome.names⟩

namespace Tracer

/-- The diagnostic of a call that stays unresolved. -/
def unresolved (typeName : String) (outcome : SiteOutcome) : List Diagnostic :=
  outcome.failure.toList.map fun reason =>
    ⟨.resolutionFailure, typeName, some (outcome.trace.method ++ ": " ++ reason.message)⟩

/-- The log line about a call that stays unresolved. -/
def unresolvedEntry (outcome : SiteOutcome) : List LogEntry :=
  outcome.failure.toList.map fun reason =>
    .debug ("Could not resolve method call " ++ outcome.trace.method ++ ": " ++ reason.message)

/-- What binding call sites leaves in the log: ambiguous names at their first
use, and unresolved calls. -/
def siteLog (index : Index) : List String → List SiteOutcome → List LogEntry × List String
  | reported, [] => ([], reported)
  | reported, outcome :: outcomes =>
      let ambiguous := index.reports reported outcome.asked
      let later := siteLog index ambiguous.2 outcomes
      (ambiguous.1 ++ unresolvedEntry outcome ++ later.1, later.2)

/-- Trace the body of a method. -/
def traceBody (tracer : Tracer) (typeName : String) (record : TypeRecord) (method : Java.Node) :
    TraceOutcome :=
  match tracer.limit with
  | none => ⟨tracer, [], .error .noLimit⟩
  | some limit =>
      if limit ≤ 0 then ⟨tracer, [], .ok []⟩
      else
        let scope : Scope := ⟨record, localsOf method⟩
        let outcomes := method.bodySites.map (traceSite tracer.index scope typeName)
        let (log, reported) := siteLog tracer.index tracer.reported outcomes
        ⟨{ tracer with
            diagnostics := tracer.diagnostics ++ outcomes.flatMap (unresolved typeName)
            reported := reported },
          log, .ok (outcomes.map SiteOutcome.trace)⟩

/-- The record of the entry type: by its full name, or else by its simple
name. -/
def entryRecord (index : Index) (unit : Java.CompilationUnit) (typeName : String) :
    Asking (Option TypeRecord) :=
  let fullName := Java.nameIn unit.package typeName
  match index.find? fullName with
  | some record => ⟨some record, [fullName]⟩
  | none => ⟨index.find? typeName, [fullName, typeName]⟩

/-- Trace a method of a unit. -/
def traceUnit (tracer : Tracer) (unit : Java.CompilationUnit) (typeName methodName : String) :
    TraceOutcome :=
  match unit.findMethod typeName methodName with
  | .found method =>
      let entry := entryRecord tracer.index unit typeName
      let (ambiguous, reported) := tracer.index.reports tracer.reported entry.names
      let asked := { tracer with reported := reported }
      match entry.value with
      | none =>
          ⟨asked, ambiguous ++ [.error ("Type " ++ typeName ++
            " is missing from the symbol index")], .ok []⟩
      | some record =>
          let outcome := asked.traceBody typeName record method
          { outcome with
            log := ambiguous ++ .info ("Analyzing sequence starting from " ++ typeName ++ "." ++
              methodName) :: outcome.log }
  | _ =>
      ⟨tracer, [.error ("Method " ++ methodName ++ " not found in type " ++ typeName)], .ok []⟩

/-- Trace the calls of an entry method below a root that can be listed.  Its type
must have a file of its own name. -/
def traceListed (tracer : Tracer) (typeName methodName : String) : TraceOutcome :=
  let (path, searched) := Files.sourceFileOf tracer.files tracer.suffix tracer.root typeName
  let outcome : TraceOutcome :=
    match path with
    | none => ⟨tracer, [.error ("Could not find source file for type: " ++ typeName)], .ok []⟩
    | some path =>
        match UnitOutcome.ofFile tracer.files path with
        | .tree unit => tracer.traceUnit unit typeName methodName
        | .unreadable problem =>
            ⟨tracer, [.error ("Failed to read file " ++ path ++ ": " ++ problem.message)], .ok []⟩
        | .unparsable =>
            ⟨tracer, [.error ("Failed to parse file " ++ path ++ ": <parse error>")], .ok []⟩
        | .broken fault => ⟨tracer, [], .error (.broken fault)⟩
        | .unnamable problem => ⟨tracer, [], .error (.unnamable problem)⟩
  { outcome with log := searched ++ outcome.log }

/-- Trace the calls of an entry method. -/
def trace (tracer : Tracer) (typeName methodName : String) : TraceOutcome :=
  match Files.listable tracer.root with
  | .ok () => tracer.traceListed typeName methodName
  | .error problem => ⟨tracer, [], .error (.unnamable problem)⟩

/-- Set up tracing over an index that is given, with the problems met while it
was built. -/
def ofIndex (files : Files.Disk) (root suffix : String) (limit : Option Int)
    (types : TypeMap) (diagnostics : List Diagnostic) : Tracer where
  files := files
  root := root
  suffix := suffix
  limit := limit
  index := ⟨types⟩
  diagnostics := diagnostics
  reported := []

end Tracer

/-- How deep calls are traced unless told otherwise. -/
def defaultLimit : Int :=
  5

end JavaUml.Resolve
