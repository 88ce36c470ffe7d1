import JavaUml.CommandLine.Generate
import JavaUml.CommandLine.Options
import JavaUml.Config.Load
import JavaUml.Session.Logging

/-!
# The program

A command line is read, the configuration is loaded and one of the two
generators runs.  The program ends with an exit status, or with a fault that no
part of it expects.
-/

namespace JavaUml.CommandLine

open Config (Setting)
open Session (Fault Action Outside World)

/-- The settings that the command line overrides. -/
def overrides (options : Options) : Config.Entries :=
  let base (key : String) (path : Option String) : Setting :=
    .fields (path.toList.map fun path => (key, .text path))
  let output :=
    if options.sequence then base "sequence_diagram" options.arguments[3]?
    else base "class_diagram" options.arguments[1]?
  let logging : Config.Entries :=
    if options.verbose then [(.text "logging", .fields [("level", .text "DEBUG")])] else []
  (.text "output", output) :: logging

/-- The action that the options ask for, once the configuration is loaded. -/
def work (options : Options) (config : Setting) : Action Int := do
  let logging ← demand config "logging"
  let level ← demand logging "level"
  let file ← demand logging "file"
  Session.openLog level file
  Action.note (.info "=== Java Source UML Generator ===")
  let plantuml ← demand config "plantuml"
  let jar ← demand plantuml "jar_path"
  let server ← demand plantuml "server_url"
  let timeout ← demand plantuml "timeout"
  let renderer ← Action.ofExcept <|
    Render.Renderer.ofSettings (← read) (← get).files jar server timeout
  let argument (n : Nat) : String := options.arguments.getD n ""
  let withImages := !options.noRender
  if options.sequence then
    Action.timed "generate_sequence_diagrams" <|
      generateSequenceDiagram (argument 0) (argument 1) (argument 2) config renderer withImages
  else
    Action.timed "generate_class_diagrams" <|
      generateClassDiagrams (argument 0) config renderer withImages options.components

/-- How the program ended. -/
inductive Ending where
  | exit (status : Int)
  | refused (refusal : Refusal)
  | unconfigured (fault : Config.LoadFault)
  | fault (fault : Fault)

/-- The exit status of the program, if no fault ended it. -/
def Ending.status? : Ending → Option Int
  | exit status => some status
  | refused .help => some 0
  | refused _ => some 2
  | unconfigured cause => if cause.isForeseen then some 1 else none
  | fault _ => none

/-- The threshold before the configuration is known. -/
def firstThreshold : Nat :=
  Level.warning.rank

/-- Run the program on its arguments. -/
def run (outside : Outside) (files : Files.Disk) (clock : Timing.Clock)
    (arguments : List String) : Ending × World :=
  let start := World.start files clock firstThreshold
  match parse arguments with
  | .error refusal => (.refused refusal, start)
  | .ok options =>
      match Config.load files options.config (overrides options) with
      | .error fault => (.unconfigured fault, start)
      | .ok (config, log) =>
          let begun := log.foldl (fun world entry => world.note outside entry) start
          match (work options config).perform outside begun with
          | (.ok status, world) => (.exit status, world)
          | (.error fault, world) => (.fault fault, world)

end JavaUml.CommandLine
