import JavaUml.Extract.Analysis
import JavaUml.Render.Request
import JavaUml.Timing

/-!
# Sessions

A session is one use of the program.  Its actions change a world of files, log
entries, printed lines and requests, and a fault ends them.  What an action has
done before a fault stays done.
-/

namespace JavaUml.Session

open Timing (Clock)

/-- What ends an action early. -/
inductive Fault where
  /-- There is no image. -/
  | render (problem : Render.Problem)
  /-- A file or folder is not as it should be. -/
  | path (problem : Files.PathProblem)
  /-- An image format that does not exist. -/
  | format (name : String)
  /-- A section of the configuration without a key. -/
  | missingKey (key : String)
  /-- A setting that is not of the kind its use asks for. -/
  | wrongKind
  /-- An address of a server that is no text. -/
  | noAddress
  /-- A number that is too long to be written. -/
  | unwritable
  /-- A request for an image that cannot be made as it is. -/
  | unaskable
  /-- A text in the place of a level. -/
  | unknownLevel (content : String)
  /-- A time that cannot be told. -/
  | timing (fault : Timing.Fault)
  /-- A Java text that ends the reading of all texts. -/
  | java (fault : Java.Fault)

/-- What stands in a log for a fault that has no text of its own. -/
def unnamed : String := "<error>"

/-- The text of a fault. -/
def Fault.message : Fault → String
  | render problem => problem.message
  | path problem => problem.message
  | format name => "Unsupported image format: " ++ name
  | missingKey key => Text.quoted key
  | unknownLevel content => "Unknown level: " ++ Text.quoted content
  | unwritable => Config.unwritableMessage
  | java .negativeEscape => "chr() arg not in range(0x110000)"
  | java _ => unnamed
  | timing _ => unnamed
  | wrongKind => unnamed
  | noAddress => unnamed
  | unaskable => unnamed

/-- What the program meets outside of its files.  There is no reply to a request
that cannot be made as it is. -/
structure Outside where
  /-- The path of the archive that the environment names. -/
  namedJar : Option String
  /-- The local program, if Java can be run. -/
  java : Option (Render.LocalRun → Option Render.LocalReply)
  server : Render.ServerQuery → Option Render.ServerReply
  /-- What is written in front of each line of a log file. -/
  stamp : String

/-- Everything that actions read and change. -/
structure World where
  files : Files.Disk
  clock : Clock
  /-- The least number of a level that is logged. -/
  threshold : Nat
  logFile : Option String
  log : List LogEntry
  printed : List String
  requests : List Render.Request

/-- A world with nothing logged, printed or requested. -/
def World.start (files : Files.Disk) (clock : Clock) (threshold : Nat) : World where
  files := files
  clock := clock
  threshold := threshold
  logFile := none
  log := []
  printed := []
  requests := []

/-- Write an entry to the log and to the log file if there is one. -/
def World.note (outside : Outside) (entry : LogEntry) (world : World) : World :=
  if world.threshold ≤ entry.level.rank then
    let files := match world.logFile with
      | none => world.files
      | some path =>
          let line := outside.stamp ++ entry.line ++ "\n"
          match Files.appendFile world.files path (Text.Utf8.encode line) with
          | .ok files => files
          | .error _ => world.files
    { world with log := world.log ++ [entry], files := files }
  else world

/-- An action of a session. -/
abbrev Action := ReaderT Outside (ExceptT Fault (StateM World))

namespace Action

/-- Perform an action. -/
def perform {α : Type} (action : Action α) (outside : Outside) (world : World) :
    Except Fault α × World :=
  (action outside).run world

/-- Write to the log. -/
def note (entry : LogEntry) : Action Unit := do
  let outside ← read
  modify (World.note outside entry)

/-- Write entries to the log. -/
def noteAll (entries : List LogEntry) : Action Unit :=
  entries.forM note

/-- Print a line. -/
def print (line : String) : Action Unit :=
  modify fun world => { world with printed := world.printed ++ [line] }

/-- End with a fault unless there is a value. -/
def ofExcept {α : Type} (value : Except Fault α) : Action α :=
  match value with
  | .ok value => return value
  | .error fault => throw fault

/-- Read the clock. -/
def readClock : Action Decimal.Number := do
  let (now, later) := (← get).clock.read
  modify fun world => { world with clock := later }
  return now

/-- An action with its outcome as a value. -/
def attempt {α : Type} (action : Action α) : Action (Except Fault α) := do
  let outside ← read
  let (outcome, world) := action.perform outside (← get)
  set world
  return outcome

/-- End with a fault unless a time can be told. -/
def told {α : Type} (value : Except Timing.Fault α) : Action α :=
  ofExcept (value.mapError .timing)

/-- Measure a phase; its time is logged however it ends. -/
def phase {α : Type} (name : String) (action : Action α) : Action α := do
  let started ← readClock
  let outcome ← attempt action
  let ended ← readClock
  note (← told (Timing.tookLine name (← told (Timing.milliseconds started ended))))
  ofExcept outcome

/-- Measure work; the log tells how it ended. -/
def timed {α : Type} (name : String) (action : Action α) : Action α := do
  let started ← readClock
  let outcome ← attempt action
  let elapsed ← told (Timing.milliseconds started (← readClock))
  match outcome with
  | .ok value => do
      note (← told (Timing.finishedLine .info name elapsed))
      return value
  | .error fault => do
      note (← told (Timing.failedLine name elapsed fault.message))
      throw fault

end Action

end JavaUml.Session
