import TableScript.Data.Keyed

/-!
# Files

The files a run can see, as a value: a directory is a list of names, each a file with its bytes or a
directory again. Reading depends on nothing else, so a run on the same files always gives the same
answer.

A path is looked up name by name from the top directory. Empty names and `.` stay where they are, `..`
goes up, and whatever is passed through has to be a directory. What lies outside of the top directory is
not seen: there is nothing in the directories there.
-/

namespace TableScript

/-- Why a file cannot be read. -/
inductive FileError where
  | notFound
  | notDirectory
  | isDirectory
  | nameTooLong
  | nulInName
  | alreadyExists
deriving DecidableEq

/-- The text of the error. -/
def FileError.message : FileError → String
  | notFound => "No such file or directory (os error 2)"
  | notDirectory => "Not a directory (os error 20)"
  | isDirectory => "Is a directory (os error 21)"
  | nameTooLong => "File name too long (os error 36)"
  | nulInName => "file name contained an unexpected NUL byte"
  | alreadyExists => "File exists (os error 17)"

/-- A file with its bytes, or a directory. -/
inductive FileNode where
  | file (bytes : List UInt8)
  | directory (entries : List (String × FileNode))
deriving Inhabited

/-- The top directory's entries. -/
abbrev Files := Keyed FileNode

namespace Files

/-! ## Paths -/

/-- The names of a path, split at every slash. -/
def splitPath (path : String) : List String := path.splitOn "/"

/-- The names of a path that say where to go. -/
def pathNames (path : String) : List String :=
  (splitPath path).filter fun name => name ≠ "" && name ≠ "."

/-- The last name of a path, unless it goes up. -/
def lastName? (path : String) : Option String :=
  match (pathNames path).getLast? with
  | some name => if name = ".." then none else some name
  | none => none

/-- A name split at its last dot. A name that only begins with a dot is not split. -/
def splitExtension (name : String) : String × Option String :=
  let cs := name.toList.reverse
  match cs.dropWhile (· ≠ '.') with
  | [] => (name, none)
  | [_] => (name, none)
  | _ :: stem => (String.ofList stem.reverse, some (String.ofList (cs.takeWhile (· ≠ '.')).reverse))

/-- The last name of a path without its extension. -/
def stem? (path : String) : Option String := (lastName? path).map fun name => (splitExtension name).1

/-- The extension of the last name of a path. -/
def extension? (path : String) : Option String :=
  (lastName? path).bind fun name => (splitExtension name).2

/-- The path of the directory that holds what is at a path. -/
def parentOf (path : String) : String :=
  let above := ((splitPath path).reverse.dropWhile fun name => name = "" || name = ".").drop 1
  match above.reverse with
  | [] => "."
  | [""] => "/"
  | names => "/".intercalate names

/-- The path of a name in the directory at a path. -/
def join (path name : String) : String := if path.endsWith "/" then path ++ name else path ++ "/" ++ name

/-- Walk down the rest of a path; `above` are the directories passed through, the last first. -/
def walk (above : List FileNode) (here : FileNode) : List String → Except FileError FileNode
  | [] => .ok here
  | name :: rest =>
    match here with
    | .file _ => .error .notDirectory
    | .directory entries =>
      if name = "" || name = "." then walk above here rest
      else if name = ".." then
        match above with
        | [] => walk [] (.directory []) rest
        | up :: higher => walk higher up rest
      else if 255 < name.utf8ByteSize then .error .nameTooLong
      else
        match Keyed.get? entries name with
        | none => .error .notFound
        | some node => walk (here :: above) node rest

/-- The node at a path. -/
def node? (files : Files) (path : String) : Except FileError FileNode :=
  if path.contains '\x00' then .error .nulInName
  else if path = "" then .error .notFound
  else if 4095 < path.utf8ByteSize then .error .nameTooLong
  else if path.startsWith "/" then walk [] (.directory []) (splitPath path)
  else walk [] (.directory files) (splitPath path)

/-- There is a file or a directory at the path. -/
def isThere (files : Files) (path : String) : Bool := (files.node? path).isOk

/-- The entries of the directory at a path. -/
def entries? (files : Files) (path : String) : Option Files :=
  match files.node? path with
  | .ok (.directory entries) => some entries
  | _ => none

/-- The bytes of the file at a path. -/
def read (files : Files) (path : String) : Except FileError (List UInt8) :=
  match files.node? path with
  | .error e => .error e
  | .ok (.directory _) => .error .isDirectory
  | .ok (.file bytes) => .ok bytes

/-! ## Changing files -/

/-- Put a node at a path, making the directories on the way. -/
def putAt (node : FileNode) : Files → List String → Files
  | files, [] => files
  | files, [name] =>
    match node, files.get? name with
    | .directory _, some (.directory entries) => files.put name (.directory entries)
    | _, _ => files.put name node
  | files, name :: rest =>
    match files.get? name with
    | some (.directory entries) => files.put name (.directory (putAt node entries rest))
    | _ => files.put name (.directory (putAt node [] rest))

/-- Remove the node at a path. -/
def removeAt : Files → List String → Files
  | files, [] => files
  | files, [name] => files.erase name
  | files, name :: rest =>
    match files.get? name with
    | some (.directory entries) => files.put name (.directory (removeAt entries rest))
    | _ => files

/-- Write a file, making the directories on the way. -/
def write (files : Files) (path : String) (bytes : List UInt8) : Files :=
  putAt (.file bytes) files (pathNames path)

/-- Make a directory and those on the way. -/
def makeDirectory (files : Files) (path : String) : Files :=
  putAt (.directory []) files (pathNames path)

/-- Remove a file. -/
def remove (files : Files) (path : String) : Files := removeAt files (pathNames path)

/-! ## Saving -/

/-- The names that lead from the top directory to where a path leads, which must not be outside. -/
def settle (above : List String) : List String → Option (List String)
  | [] => some above.reverse
  | name :: rest =>
    if name = "" || name = "." then settle above rest
    else if name = ".." then
      match above with
      | [] => none
      | _ :: higher => settle higher rest
    else settle (name :: above) rest

/-- Save a file, over one that is there if need be. Its directory has to be there. -/
def save (files : Files) (path : String) (bytes : List UInt8) : Except FileError Files :=
  let names := splitPath path
  let place := if path.startsWith "/" then none else settle [] names
  match files.node? path, place with
  | .ok (.directory _), _ => .error .isDirectory
  | .ok (.file _), some place => .ok (putAt (.file bytes) files place)
  | .error .notFound, some place =>
    match walk [] (.directory files) names.dropLast with
    | .error e => .error e
    | .ok (.file _) => .error .notDirectory
    | .ok (.directory _) =>
      if names.getLast? = some "" then .error .isDirectory
      else if names.getLast? = some "." then .error .notFound
      else .ok (putAt (.file bytes) files place)
  | .error e, _ => .error e
  | _, none => .error .notFound

/-- Make the directories that a path leads through, and the one it leads to, as far as they are missing. -/
def makeAll (above : List String) (files : Files) : List String → Except FileError Files
  | [] => .ok files
  | name :: rest =>
    if name = "" || name = "." then makeAll above files rest
    else if name = ".." then makeAll above.dropLast files rest
    else
      let place := above ++ [name]
      match walk [] (.directory files) place with
      | .ok (.directory _) => makeAll place files rest
      | .ok (.file _) => .error (if rest.all (· = "") then .alreadyExists else .notDirectory)
      | .error .notFound => makeAll place (putAt (.directory []) files place) rest
      | .error e => .error e

/-- Make the directory at a path and those on the way. -/
def makePath (files : Files) (path : String) : Except FileError Files :=
  if path.contains '\x00' then .error .nulInName else makeAll [] files (splitPath path)

/-! ## Changes -/

mutual

/-- What is new at a path: its bytes, or nothing if it is a directory. -/
def nodeChanges (path : String) : FileNode → Option FileNode → List (String × Option (List UInt8))
  | .file bytes, some (.file before) => if bytes = before then [] else [(path, some bytes)]
  | .file bytes, _ => [(path, some bytes)]
  | .directory entries, some (.directory before) => changesIn path before entries
  | .directory entries, _ => (path, none) :: changesIn path [] entries

/-- What is new in a directory. -/
def changesIn (path : String) (before : Files) : List (String × FileNode) → List (String × Option (List UInt8))
  | [] => []
  | (name, node) :: rest =>
    nodeChanges (join path name) node (before.get? name) ++ changesIn path before rest

end

end Files

end TableScript
