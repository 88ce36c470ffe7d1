import JavaUml.Session.World

/-!
# Where the log goes

The log goes to a file if the configuration names one.  The file is made at
once, and entries are added at its end.
-/

namespace JavaUml.Session

open Config (Setting)

/-- The path of a log file, given as text or as its bytes and told from the top.
A setting that is not set names none. -/
def logPath (here : List String) (file : Setting) : Except Fault (Option String) :=
  let opened (path : String) : Except Fault (Option String) :=
    .ok (some (Files.absolutePath here path))
  if !file.isSet then .ok none
  else
    match file with
    | .scalar (.text path) => opened path
    | .scalar (.bytes path) => opened (Text.Utf8.decodeReplacing path)
    | _ => .error .wrongKind

/-- The threshold that a setting names. -/
def thresholdOf (level : Setting) : Except Fault Nat :=
  if level.isWritable then
    match Threshold.ofName level.display with
    | .rank number => .ok number
    | .text content => .error (.unknownLevel content)
    | .other => .error .wrongKind
  else .error .unwritable

/-- Let the log go to a file from now on, if there is a path of one. -/
def openFile : Option String → Action Unit
  | none => return ()
  | some path => do
      let opened := (Files.appendFile (← get).files path []).mapError Fault.path
      let files ← Action.ofExcept opened
      modify fun world => { world with files := files, logFile := some path }

/-- Set the threshold and the file of the log. -/
def openLog (level file : Setting) : Action Unit := do
  let threshold ← Action.ofExcept (thresholdOf level)
  modify fun world => { world with threshold := threshold, logFile := none }
  openFile (← Action.ofExcept (logPath (← get).files.here file))

end JavaUml.Session
