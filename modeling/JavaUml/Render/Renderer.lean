import JavaUml.Session.World

/-!
# Drawing and writing diagrams

A renderer draws images with the local archive if there is one and Java can be
run, or else with a server if one is configured.  A diagram is written as text
and, if asked for, as an image in each format.
-/

namespace JavaUml.Render

open Config (Setting)
open Session (Fault Action Outside)

/-- The formats of images. -/
def knownFormats : List String :=
  ["png", "svg"]

/-- A renderer. -/
structure Renderer where
  jar : Option String
  server : Option String
  timeout : Setting
  /-- Whether Java can be run. -/
  runsJava : Bool

namespace Renderer

/-- Whether the local archive can draw. -/
def isLocal (renderer : Renderer) : Bool :=
  renderer.jar.isSome && renderer.runsJava

/-- The path where the archive is looked for: the configured one, the one that
the environment names, or the one in the working folder. -/
def jarCandidate (named : Option String) (configured : Setting) : Except Fault String :=
  if configured.isSet then
    match configured.text? with
    | some path => .ok path
    | none => .error .wrongKind
  else .ok ((named.filter (!·.isEmpty)).getD "plantuml.jar")

/-- An address without slashes at its end. -/
def withoutSlashes (address : String) : String :=
  String.ofList (address.toList.reverse.dropWhile (· = '/')).reverse

/-- The address of a server. -/
def serverAddress (configured : Setting) : Except Fault (Option String) :=
  if configured.isSet then
    match configured with
    | .scalar (.text address) => .ok (some (withoutSlashes address))
    | .scalar (.bytes _) => .error .wrongKind
    | _ => .error .noAddress
  else .ok none

/-- The renderer that settings describe. -/
def ofSettings (outside : Outside) (files : Files.Disk) (jar server timeout : Setting) :
    Except Fault Renderer := do
  let path := Files.cleanPath (← jarCandidate outside.namedJar jar)
  let isFile ← (Files.isFileAt files path).mapError .path
  let address ← serverAddress server
  return { jar := if isFile then some path else none
           server := address
           timeout := timeout
           runsJava := outside.java.isSome }

/-- Draw a diagram with the local archive. -/
def drawLocally (run : LocalRun) (java : LocalRun → Option LocalReply) :
    Action (List UInt8) := do
  modify fun world => { world with requests := world.requests ++ [.localRun run] }
  match java run with
  | some reply => Action.ofExcept ((reply.image run).mapError .render)
  | none => throw .unaskable

/-- Draw a diagram with a server. -/
def drawOnServer (query : ServerQuery) : Action (List UInt8) := do
  Action.note (.debug ("Rendering PlantUML via HTTP " ++ query.server))
  modify fun world => { world with requests := world.requests ++ [.server query] }
  match (← read).server query with
  | some reply => Action.ofExcept (reply.image.mapError .render)
  | none => throw .unaskable

/-- Draw a diagram in a format. -/
def draw (renderer : Renderer) (diagram : String) (format : Setting) : Action (List UInt8) := do
  let name := format.display
  unless format.text?.any knownFormats.contains do throw (.format name)
  match renderer.jar, (← read).java, renderer.server with
  | some jar, some java, _ => drawLocally ⟨jar, name, diagram, renderer.timeout⟩ java
  | _, _, some server =>
      if server.isEmpty then throw (.render .noRenderer)
      else drawOnServer ⟨server, name, diagram, renderer.timeout⟩
  | _, _, none => throw (.render .noRenderer)

end Renderer

/-- Write a file and make the folders around it. -/
def deliver (path : String) (content : List UInt8) : Action Unit := do
  let clean := Files.cleanPath path
  let made ← Action.ofExcept <|
    (Files.makeFolders (← get).files (Files.parentPath clean)).mapError Fault.path
  modify fun world => { world with files := made }
  let written ← Action.ofExcept ((Files.writeFile made clean content).mapError Fault.path)
  modify fun world => { world with files := written }

/-- Write a text. -/
def writeText (text path : String) : Action String := do
  deliver path (Text.Utf8.encode text)
  Action.note (.info ("PlantUML file saved to: " ++ path))
  return path

namespace Renderer

/-- Draw a diagram and write the image. -/
def writeImage (renderer : Renderer) (diagram path : String) (format : Setting) :
    Action String := do
  let image ← renderer.draw diagram format
  deliver path image
  Action.note (.info ("Diagram image saved to: " ++ path))
  return path

/-- Write images in several formats. -/
def writeImages (renderer : Renderer) (diagram base : String) :
    List Setting → Action (List String)
  | [] => return []
  | format :: rest => do
      let path ← renderer.writeImage diagram (base ++ "." ++ format.display) format
      return path :: (← writeImages renderer diagram base rest)

/-- What a setting lists: the items of a sequence, pair or set, the keys of a
mapping, the characters of a text or the numbers of bytes. -/
def listed : Setting → Except Fault (List Setting)
  | .sequence items => .ok items
  | .mapping entries => .ok (entries.map fun entry => .scalar entry.1)
  | .pair first second => .ok [first, second]
  | .set members => .ok (members.map Setting.scalar)
  | .scalar (.text value) => .ok (value.toList.map fun c => .text (String.singleton c))
  | .scalar (.bytes value) => .ok (value.map fun byte => .whole byte.toNat)
  | .scalar _ => .error .wrongKind

/-- Write a diagram as text and, if asked for, as images.  The paths of the
files that are written stand in order. -/
def writeDiagram (renderer : Renderer) (diagram : String) (base formats : Setting)
    (withImages : Bool) : Action (List String) := do
  match base.text? with
  | none => throw .wrongKind
  | some base => do
      let text ← writeText diagram (base ++ ".puml")
      if withImages then
        let formats ← Action.ofExcept (listed formats)
        return text :: (← renderer.writeImages diagram base formats)
      else return [text]

end Renderer

end JavaUml.Render
