import JavaUml.CommandLine.Program

/-!
# The executable

The files below the working folder are read into memory, the program runs on
them, and what it wrote is written back.  Files elsewhere are not looked at.
Images are left to a server or a local archive that this executable does not
reach, so a run that asks for them ends with the message that they cannot be
drawn.
-/

open JavaUml

/-- A file or folder and its name. -/
partial def readEntry (entry : IO.FS.DirEntry) : IO (String × Files.Entry) := do
  if ← entry.path.isDir then
    let mut folder := Files.Entry.empty
    for inner in ← entry.path.readDir do
      let (name, content) ← readEntry inner
      folder := Files.Entry.put content [name] folder
    return (entry.fileName, folder)
  else
    let bytes ← IO.FS.readBinFile entry.path
    return (entry.fileName, .file bytes.toList)

/-- The files below the working folder, at their place. -/
def readWorkingFolder : IO Files.Disk := do
  let mut folder := Files.Entry.empty
  for entry in ← (← IO.currentDir).readDir do
    let (name, content) ← readEntry entry
    folder := Files.Entry.put content [name] folder
  let here := Files.pathNames (← IO.currentDir).toString
  return ⟨Files.Entry.put folder here .empty, here⟩

/-- Write the files that are new or changed. -/
partial def writeChanges (path : String) (before : Option Files.Entry) :
    Files.Entry → IO Unit
  | .file content => do
      let isOld := match before with
        | some (.file old) => old == content
        | _ => false
      unless isOld do IO.FS.writeBinFile path ⟨content.toArray⟩
  | .folder entries => do
      if before.isNone then IO.FS.createDirAll path
      for (name, entry) in entries do
        writeChanges (path ++ "/" ++ name) (before.bind (Files.Entry.at? [name])) entry

/-- What the executable meets outside of its files. -/
def outside : IO Session.Outside := do
  return { namedJar := ← IO.getEnv "PLANTUML_JAR_PATH"
           java := none
           server := fun _ => some (.unreachable "no connection")
           stamp := "" }

/-- Tell how a run ended, as far as its log does not. -/
def report : CommandLine.Ending → IO Unit
  | .refused refusal => IO.eprintln ("error: " ++ refusal.message)
  | .unconfigured (.unreadable problem) =>
      IO.eprintln ("❌ Cannot load configuration: " ++ problem.message)
  | .unconfigured (.notMapping path) =>
      IO.eprintln ("❌ Cannot load configuration: " ++ Config.notMappingMessage path)
  | .unconfigured (.malformed fault) =>
      IO.eprintln ("❌ Cannot load configuration: " ++ fault.message?.getD "no YAML document")
  | .unconfigured (.unresolved .unwritable) =>
      IO.eprintln ("❌ Cannot load configuration: " ++ Config.unwritableMessage)
  | .unconfigured (.unresolved .endless) =>
      IO.eprintln "error: a part of the configuration stands inside itself"
  | .fault fault => IO.eprintln ("error: " ++ fault.message)
  | .exit _ => return ()

/-- Run the program in the working folder. -/
def main (arguments : List String) : IO UInt32 := do
  let files ← readWorkingFolder
  let (ending, world) := CommandLine.run (← outside) files [] arguments
  writeChanges "" (some files.top) world.files.top
  if world.logFile.isNone then
    for entry in world.log do IO.eprintln entry.line
  for line in world.printed do IO.println line
  report ending
  return ((ending.status?.getD 1).toNat).toUInt32
