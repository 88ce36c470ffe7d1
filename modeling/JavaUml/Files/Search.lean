import JavaUml.Files.Tree
import JavaUml.Log

/-!
# Searching source files

Two walks over a folder.  One lists all files with a suffix, the files of a
folder before those of the folders in it.  The other looks for one file and
visits the files and folders of a folder together in the order of names.

On the way down the paths grow.  A folder whose path has become too long cannot
be listed, and both walks pass it over; the second one warns of it.
-/

namespace JavaUml.Files

/-- Whether a name ends with a suffix. -/
def hasSuffix (suffix name : String) : Bool :=
  suffix.toList.isSuffixOf name.toList

/-- Whether a path is too long for its folder to be listed. -/
def isLongPath (path : String) : Bool :=
  greatestPath < path.utf8ByteSize

/-- The warning about a folder that cannot be listed. -/
def unlistedWarning (fault : PathProblem) : LogEntry :=
  .warning ("Cannot list " ++ fault.path ++ ": " ++ fault.message)

/-- The paths of the files directly in a folder whose names end with a suffix. -/
def filesHere (suffix path : String) (entries : List (String × Entry)) : List String :=
  (entries.filter fun entry => !entry.2.isFolder && hasSuffix suffix entry.1).map fun entry =>
    joinPath path entry.1

mutual

/-- The paths of all files under an entry whose names end with a suffix. -/
def filesUnder (suffix path : String) : Entry → List String
  | .file _ => []
  | .folder entries =>
      if isLongPath path then []
      else filesHere suffix path entries ++ filesBelow suffix path entries

/-- The paths of the files in the folders among some entries. -/
def filesBelow (suffix path : String) : List (String × Entry) → List String
  | [] => []
  | (name, entry) :: rest =>
      filesUnder suffix (joinPath path name) entry ++ filesBelow suffix path rest

end

mutual

/-- The path of the first file of the given name under an entry, and what the
search leaves in the log. -/
def fileUnder (target path : String) : Entry → Option String × List LogEntry
  | .file _ => (none, [])
  | .folder entries =>
      if isLongPath path then (none, [unlistedWarning ⟨.tooLong, path⟩])
      else fileAmong target path entries

/-- The path of the first file of the given name among some entries, and what the
search leaves in the log. -/
def fileAmong (target path : String) : List (String × Entry) → Option String × List LogEntry
  | [] => (none, [])
  | (name, entry) :: rest =>
      if entry.isFolder then
        match fileUnder target (joinPath path name) entry with
        | (some found, log) => (some found, log)
        | (none, log) =>
            let (found, later) := fileAmong target path rest
            (found, log ++ later)
      else if name = target then (some (joinPath path name), [])
      else fileAmong target path rest

end

/-- The source files under a path.  A path that is no folder has none. -/
def sourceFiles (disk : Disk) (suffix path : String) : List String :=
  match listFolder disk path with
  | .ok entries => filesUnder suffix path (.folder entries)
  | .error _ => []

/-- The source file of a type under a path, and what the search leaves in the
log. -/
def sourceFileOf (disk : Disk) (suffix path typeName : String) :
    Option String × List LogEntry :=
  match listFolder disk path with
  | .ok entries => fileAmong (typeName ++ suffix) path entries
  | .error problem => (none, [unlistedWarning problem])

/-- Whether a path can be listed at all. -/
def listable (path : String) : Except PathProblem Unit :=
  if isUnnamable path then .error ⟨.unnamable, path⟩ else .ok ()

/-- The source files under a path, and for each of some types its source file
with what the search for it leaves in the log. -/
def search (disk : Disk) (suffix path : String) (types : List String) :
    Except PathProblem (List String × List (Option String × List LogEntry)) := do
  listable path
  return (sourceFiles disk suffix path, types.map (sourceFileOf disk suffix path))

end JavaUml.Files
