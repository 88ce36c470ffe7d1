import JavaUml.Text.Cut

/-!
# Paths

Paths are texts with `/` between names.  Cleaning a path drops empty names and
`.`; a step back stays as it is, because only the files it leads through tell
where it ends.
-/

namespace JavaUml.Files

/-- The names of a path, without empty ones and `.`. -/
def pathNames (path : String) : List String :=
  (Text.split '/' path).filter fun name => name != "" && name != "."

/-- Whether a path starts at the top of all files. -/
def isAbsolute (path : String) : Bool :=
  path.toList.head? == some '/'

/-- The slashes that a path starts with.  Two are kept, and more of them are one. -/
def leadOf (path : String) : String :=
  match path.toList with
  | '/' :: '/' :: '/' :: _ => "/"
  | '/' :: '/' :: _ => "//"
  | '/' :: _ => "/"
  | _ => ""

/-- The path of the given names behind slashes. -/
def pathOf (lead : String) (names : List String) : String :=
  if lead = "" ∧ names.isEmpty then "." else lead ++ "/".intercalate names

/-- A path without empty names and `.`. -/
def cleanPath (path : String) : String :=
  pathOf (leadOf path) (pathNames path)

/-- The path of the folder that a path lies in. -/
def parentPath (path : String) : String :=
  pathOf (leadOf path) (pathNames path).dropLast

/-- Names with every step back taken together with the name before it.  At the top a step
back leads nowhere. -/
def stepBack : List String → List String → List String
  | done, [] => done
  | done, name :: rest =>
      if name = ".." then stepBack done.dropLast rest else stepBack (done ++ [name]) rest

/-- A path told from the top, without steps back.  A path that does not start there starts in
the folder with the given names. -/
def absolutePath (here : List String) (path : String) : String :=
  if isAbsolute path then pathOf (leadOf path) (stepBack [] (pathNames path))
  else pathOf "/" (stepBack here (pathNames path))

/-- A name in a folder.  A slash at the end of the folder's path is kept as it
is. -/
def joinPath (folder name : String) : String :=
  if folder = "" then name
  else if folder.toList.getLast? = some '/' then folder ++ name
  else folder ++ "/" ++ name

end JavaUml.Files
