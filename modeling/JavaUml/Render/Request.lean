import JavaUml.Config.Setting
import JavaUml.Pack.Radix64
import JavaUml.Text.Blank

/-!
# Requests for images

An image of a diagram is drawn by a local archive that runs on Java, or by a
server.  The local program reads the text from its input; the server takes it
packed into the address.
-/

namespace JavaUml.Render

open Config (Setting)

/-- A run of the local program. -/
structure LocalRun where
  jar : String
  format : String
  diagram : String
  timeout : Setting

/-- The command of a run. -/
def LocalRun.command (run : LocalRun) : List String :=
  ["java", "-Djava.awt.headless=true", "-jar", run.jar, "-charset", "UTF-8",
    "-t" ++ run.format, "-pipe"]

/-- A question to a server. -/
structure ServerQuery where
  server : String
  format : String
  diagram : String
  timeout : Setting

/-- The address of a question without the packed diagram. -/
def ServerQuery.folder (query : ServerQuery) : String :=
  query.server ++ "/" ++ query.format

/-- The address of a question. -/
def ServerQuery.address (query : ServerQuery) : String :=
  query.folder ++ "/" ++ Pack.packed query.diagram

/-- A request for an image. -/
inductive Request where
  | localRun (run : LocalRun)
  | server (query : ServerQuery)

/-- What came of a run of the local program. -/
inductive LocalReply where
  | timedOut
  | notStarted (reason : String)
  | finished (status : Int) (output errors : List UInt8)

/-- What came of a question to a server. -/
inductive ServerReply where
  | unreachable (reason : String)
  | answered (status : Int) (content : List UInt8)

/-- Why there is no image. -/
inductive Problem where
  | timedOut (timeout : Setting)
  | notStarted (reason : String)
  | failed (status : Int) (errors : List UInt8)
  | unreachable (reason : String)
  | refused (status : Int)
  | noRenderer

/-- The start of an error output: decoded, without blanks around it. -/
def errorText (errors : List UInt8) : String :=
  let text := Text.trim (Text.Utf8.decodeReplacing errors).toList
  if text.isEmpty then "(empty)" else String.ofList (text.take 300)

/-- The message of a problem. -/
def Problem.message : Problem → String
  | timedOut timeout => "PlantUML JAR timed out after " ++ timeout.display ++ "s"
  | notStarted reason => "PlantUML JAR execution failed: " ++ reason
  | failed status errors =>
      "PlantUML failed to generate image (exit=" ++ toString status ++ "): " ++ errorText errors
  | unreachable reason => "PlantUML server request failed: " ++ reason
  | refused status => "PlantUML server returned " ++ toString status
  | noRenderer =>
      "No PlantUML renderer available: set plantuml.jar_path or PLANTUML_JAR_PATH " ++
        "(java must be on PATH) or configure plantuml.server_url"

/-- The image or the problem of a local run. -/
def LocalReply.image (run : LocalRun) : LocalReply → Except Problem (List UInt8)
  | timedOut => .error (.timedOut run.timeout)
  | notStarted reason => .error (.notStarted reason)
  | finished status output errors =>
      if status = 0 then .ok output else .error (.failed status errors)

/-- The image or the problem of an answer. -/
def ServerReply.image : ServerReply → Except Problem (List UInt8)
  | unreachable reason => .error (.unreachable reason)
  | answered status content => if status = 200 then .ok content else .error (.refused status)

end JavaUml.Render
