import JavaUml.Files.Path
import JavaUml.Text.Quoted
import JavaUml.Text.Utf8

/-!
# File trees

All files of a machine, as a value, with the folder that a run works in.  The
entries of a folder stand in the order of their names, so a walk over a folder
needs no sorting.  Paths are followed step by step, from the top folder or from
the working folder.  A step back leads to the folder around; the top folder has
none around it, and a step back stays there.
-/

namespace JavaUml.Files

/-- A file or a folder. -/
inductive Entry where
  | file (content : List UInt8)
  | folder (entries : List (String × Entry))

/-- Why a path cannot be used. -/
inductive Problem where
  | missing
  | taken
  | noFolder
  | isFolder
  /-- A name in the path, or the path itself, is longer than any can be. -/
  | tooLong
  /-- The path holds a null character, so nothing can have it for a name. -/
  | unnamable
  deriving DecidableEq, Repr

/-- The number and the wording of a problem that a file system reports. -/
def Problem.report? : Problem → Option (Nat × String)
  | missing => some (2, "No such file or directory")
  | taken => some (17, "File exists")
  | noFolder => some (20, "Not a directory")
  | isFolder => some (21, "Is a directory")
  | tooLong => some (36, "File name too long")
  | unnamable => none

/-- A problem with the path where it arose. -/
structure PathProblem where
  problem : Problem
  path : String
  deriving DecidableEq, Repr

/-- The message of a problem. -/
def PathProblem.message (fault : PathProblem) : String :=
  match fault.problem.report? with
  | some (number, wording) =>
      "[Errno " ++ toString number ++ "] " ++ wording ++ ": " ++ Text.quoted fault.path
  | none => "embedded null byte"

/-- Whether a problem is one that a file system reports. -/
def PathProblem.isReported (fault : PathProblem) : Bool :=
  fault.problem.report?.isSome

/-- Whether nothing can have a path for its name. -/
def isUnnamable (path : String) : Bool :=
  path.toList.contains '\x00'

/-- The greatest number of bytes in a name. -/
def greatestName : Nat := 255

/-- The greatest number of bytes in a path. -/
def greatestPath : Nat := 4095

/-- Whether a name is too long for a file or folder. -/
def isLongName (name : String) : Bool :=
  greatestName < name.utf8ByteSize

/-- Why a path cannot be followed, whatever the files are. -/
def pathProblem? (path : String) : Option Problem :=
  if isUnnamable path then some .unnamable
  else if path = "" then some .missing
  else if greatestPath < path.utf8ByteSize then some .tooLong
  else none

/-- The entry of a name. -/
def entryNamed? (name : String) : List (String × Entry) → Option Entry
  | [] => none
  | (other, entry) :: rest => if other = name then some entry else entryNamed? name rest

/-- Set the entry of a name and keep the order of names. -/
def setEntry (name : String) (entry : Entry) : List (String × Entry) → List (String × Entry)
  | [] => [(name, entry)]
  | (other, old) :: rest =>
      if other = name then (name, entry) :: rest
      else if name < other then (name, entry) :: (other, old) :: rest
      else (other, old) :: setEntry name entry rest

namespace Entry

/-- The folder without entries. -/
def empty : Entry :=
  .folder []

def isFolder : Entry → Bool
  | folder _ => true
  | file _ => false

/-- The entry at a list of plain names. -/
def at? : List String → Entry → Option Entry
  | [], entry => some entry
  | name :: names, folder entries => (entryNamed? name entries).bind (at? names)
  | _ :: _, file _ => none

/-- Put an entry at a list of plain names.  Folders on the way are made; a file
on the way stays in the way. -/
def put (new : Entry) : List String → Entry → Entry
  | [], _ => new
  | name :: names, folder entries =>
      let old := (entryNamed? name entries).getD empty
      folder (setEntry name (put new names old) entries)
  | _ :: _, file content => file content

end Entry

/-- All files, and the names that lead from the top to the working folder. -/
structure Disk where
  top : Entry
  here : List String

/-- The names that lead from the top to the folder where a path starts. -/
def Disk.start (disk : Disk) (path : String) : List String :=
  if isAbsolute path then [] else disk.here

/-- Put an entry at a list of plain names that start at the top. -/
def Disk.put (new : Entry) (place : List String) (disk : Disk) : Disk :=
  { disk with top := Entry.put new place disk.top }

/-- Follow names from a place given by the plain names that lead to it.  The
result is given by plain names, too. -/
def follow (top : Entry) : List String → List String → Except Problem (List String)
  | place, [] => .ok place
  | place, name :: names =>
      match top.at? place with
      | some (.folder entries) =>
          if name = ".." then follow top place.dropLast names
          else if isLongName name then .error .tooLong
          else
            match entryNamed? name entries with
            | some _ => follow top (place ++ [name]) names
            | none => .error .missing
      | some (.file _) => .error .noFolder
      | none => .error .missing

/-- Whether a path ends in a slash or `/.`, and so must name a folder. -/
def endsAsFolder (path : String) : Bool :=
  match path.toList.reverse with
  | '/' :: _ => true
  | '.' :: '/' :: _ => true
  | _ => false

/-- The entry at a path. -/
def entryAt (disk : Disk) (path : String) : Except Problem Entry := do
  match pathProblem? path with
  | some problem => .error problem
  | none =>
      let place ← follow disk.top (disk.start path) (pathNames path)
      match disk.top.at? place with
      | some (.file content) =>
          if endsAsFolder path then .error .noFolder else .ok (.file content)
      | some entry => .ok entry
      | none => .error .missing

/-- Whether a path names a folder. -/
def isFolderAt (disk : Disk) (path : String) : Bool :=
  match entryAt disk path with
  | .ok entry => entry.isFolder
  | .error _ => false

/-- Whether a path names a file.  A path that is too long is a problem, others
that lead nowhere name none. -/
def isFileAt (disk : Disk) (path : String) : Except PathProblem Bool :=
  match entryAt disk path with
  | .ok entry => .ok !entry.isFolder
  | .error .tooLong => .error ⟨.tooLong, path⟩
  | .error _ => .ok false

/-- The entries of the folder at a path. -/
def listFolder (disk : Disk) (path : String) : Except PathProblem (List (String × Entry)) :=
  match entryAt disk path with
  | .ok (.folder entries) => .ok entries
  | .ok (.file _) => .error ⟨.noFolder, path⟩
  | .error problem => .error ⟨problem, path⟩

/-- The bytes of the file at a path. -/
def readBytes (disk : Disk) (path : String) : Except PathProblem (List UInt8) :=
  match entryAt disk path with
  | .ok (.file content) => .ok content
  | .ok (.folder _) => .error ⟨.isFolder, path⟩
  | .error problem => .error ⟨problem, path⟩

/-! ## Text -/

/-- Why a text could not be read. -/
inductive ReadProblem where
  | path (problem : PathProblem)
  | bytes (fault : Text.Utf8.Fault)
  deriving DecidableEq, Repr

/-- The message of a problem. -/
def ReadProblem.message : ReadProblem → String
  | path problem => problem.message
  | bytes fault => fault.message

/-- Write every line end as a line feed. -/
def lineFeeds : List Char → List Char
  | '\r' :: '\n' :: rest => '\n' :: lineFeeds rest
  | '\r' :: rest => '\n' :: lineFeeds rest
  | c :: rest => c :: lineFeeds rest
  | [] => []

/-- The text of the file at a path, every line end a line feed. -/
def readText (disk : Disk) (path : String) : Except ReadProblem String := do
  let content ← (readBytes disk path).mapError .path
  let text ← (Text.Utf8.decode content).mapError .bytes
  return String.ofList (lineFeeds text.toList)

/-! ## Writing -/

/-- The place of a name in the folder that leads to it. -/
def placeFor (disk : Disk) (path : String) : Except Problem (List String) := do
  match pathProblem? path with
  | some problem => .error problem
  | none =>
      let names := pathNames path
      match names.getLast? with
      | none => .ok (disk.start path)
      | some last =>
          let parent ← follow disk.top (disk.start path) names.dropLast
          if last = ".." then follow disk.top (disk.start path) names
          else
            match disk.top.at? parent with
            | some (.folder _) =>
                if isLongName last then .error .tooLong else .ok (parent ++ [last])
            | some (.file _) => .error .noFolder
            | none => .error .missing

/-- Make one folder. -/
def makeFolder (disk : Disk) (path : String) : Except Problem Disk := do
  let place ← placeFor disk path
  match disk.top.at? place with
  | some _ => .error .taken
  | none => .ok (disk.put .empty place)

/-- Make a folder and those around it, as far as they are missing.  The number
of names bounds the steps. -/
def makeFoldersIn : Nat → Disk → String → Except PathProblem Disk
  | steps, disk, path =>
      match makeFolder disk path with
      | .ok made => .ok made
      | .error .missing =>
          match steps with
          | 0 => .error ⟨.missing, path⟩
          | steps + 1 => do
              let around ← makeFoldersIn steps disk (parentPath path)
              match makeFolder around path with
              | .ok made => .ok made
              | .error problem =>
                  if isFolderAt around path then .ok around else .error ⟨problem, path⟩
      | .error problem => if isFolderAt disk path then .ok disk else .error ⟨problem, path⟩

/-- Make a folder and those around it, as far as they are missing. -/
def makeFolders (disk : Disk) (path : String) : Except PathProblem Disk :=
  makeFoldersIn (pathNames path).length disk (cleanPath path)

/-- Write a file into a folder that exists. -/
def writeFile (disk : Disk) (path : String) (content : List UInt8) :
    Except PathProblem Disk :=
  match placeFor disk path with
  | .error problem => .error ⟨problem, path⟩
  | .ok place =>
      match disk.top.at? place with
      | some (.folder _) => .error ⟨.isFolder, path⟩
      | _ => .ok (disk.put (.file content) place)

/-- Add to the end of a file, which is made if it is missing. -/
def appendFile (disk : Disk) (path : String) (content : List UInt8) :
    Except PathProblem Disk :=
  let old := match readBytes disk path with
    | .ok bytes => bytes
    | .error _ => []
  writeFile disk path (old ++ content)

end JavaUml.Files
