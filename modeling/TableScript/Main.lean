import TableScript.CommandLine.Execution

/-!
# The program

Gathers what a run depends on, carries it out, and puts its changes into effect. A run sees the files in
the working directory and below it.
-/

namespace TableScript.CommandLine

/-- Files, and when they last changed, by path. -/
abbrev Snapshot := Files × Keyed Float

/-- Put a file that can be read, or a directory with what is in it, into a snapshot. -/
partial def addEntry (path : String) (taken : Snapshot) (entry : IO.FS.DirEntry) : IO Snapshot := do
  let inside := if path.isEmpty then entry.fileName else Files.join path entry.fileName
  let (files, times) := taken
  try
    let modified := (← entry.path.metadata).modified
    let time := Float.ofInt modified.sec + modified.nsec.toNat.toFloat / 1e9
    let times := times.put inside time
    if ← entry.path.isDir then
      (← entry.path.readDir).foldlM (addEntry inside) (files.makeDirectory inside, times)
    else
      let bytes ← IO.FS.readBinFile entry.path
      return (files.write inside bytes.toList, times)
  catch _ => return taken

/-- The bytes of a file of the system. -/
def readSystemFile (path : String) : IO (Except FileError (List UInt8)) := do
  try
    return .ok (← IO.FS.readBinFile path).toList
  catch _ => return .error .notFound

/-- The configuration of the user. -/
def readDefaultConfig : IO (Except FileError (List UInt8)) := do
  let place := "stepsheet/config.toml"
  match ← IO.getEnv "XDG_CONFIG_HOME", ← IO.getEnv "HOME" with
  | some directory, _ => readSystemFile (Files.join directory place)
  | none, some home => readSystemFile (Files.join home (".config/" ++ place))
  | none, none => return .error .notFound

/-- Put a change into effect. -/
def putChange : String × Option (List UInt8) → IO Unit
  | (path, none) => IO.FS.createDirAll path
  | (path, some bytes) => IO.FS.writeBinFile path bytes.toByteArray

end TableScript.CommandLine

open TableScript TableScript.CommandLine in
/-- Run the program. -/
def main (arguments : List String) : IO UInt32 := do
  let here ← IO.currentDir
  let (files, times) ← (← here.readDir).foldlM (addEntry "") ([], [])
  let timeOf (path : String) : Option Float :=
    (Files.settle [] (Files.splitPath path)).bind fun names => times.get? ("/".intercalate names)
  let outcome := execute ⟨files, timeOf, here.toString, ← readDefaultConfig⟩ arguments
  IO.print outcome.printed
  IO.eprint outcome.errors
  (Files.changesIn "." files outcome.files).forM putChange
  return outcome.code.toUInt32
