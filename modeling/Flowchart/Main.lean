import Flowchart.Command.Run
import Flowchart.Tree.Rows

set_option autoImplicit false

/-!
# The program

The command line on the files of the system. Grammars are programs of their own, which leave the
listing of the tree of a script next to it, in a file of the same name with `.tree` behind it.

## Main definitions

* `main`: takes a picture of the files that a command line names, runs it on the picture, and makes
  the changes and prints the texts of its outcome.
-/

namespace Flowchart.Main

/-- The names of an absolute path. -/
def placeOf (path : String) : Disk.Place :=
  (Path.ofString path).names

/-- The paths that a command line reads or writes. -/
def pathsOf (invocation : Invocation) : List Path :=
  match invocation.command with
  | none => []
  | some (task, files) =>
    let named := match task with
      | .sections _ _ => []
      | .rendering output _ => output.toList
      | .checking document => document.toList
    ((files ++ named).filter fun name => !name.contains '\x00').map Path.ofString

/-- The paths that lead to a path, from the first name on. -/
def leadingPaths (path : Path) : List Path :=
  (List.range (path.names.length + 1)).map fun count => { path with names := path.names.take count }

/-- The place of a path from a working directory, going up where the path does. -/
def placeFrom (working : Disk.Place) (path : Path) : Disk.Place :=
  path.names.foldl (fun place name => if name = ".." then place.dropLast else place ++ [name])
    (if path.root = .working then working else [])

/-- What stands at a path of the system. -/
def lookUp (path : Path) : IO (Option Disk.Entry) := do
  let file := (← IO.currentDir) / path.toString
  if ← file.isDir then return some .directory
  else if ← file.pathExists then return some (.file (← IO.FS.readBinFile file).toList)
  else return none

/-- A picture of the files at paths. -/
def picture (paths : List Path) : IO Disk := do
  let working := placeOf (← IO.currentDir).toString
  let mut disk : Disk := ⟨working, []⟩
  for path in paths.flatMap leadingPaths do
    if let some entry ← lookUp path then
      disk := disk.put (placeFrom working path) entry
  return disk

/-- The tree of the script at a path, if it is supported and has a listing. -/
def knownTree (disk : Disk) (path : Path) : IO (Option ((Language × String) × Tree)) := do
  let some language := Language.ofPath? path | return none
  let .ok text := (Run.readText disk path).result | return none
  let some (.file listing) ← lookUp (.ofString (path.toString ++ ".tree")) | return none
  let script := Text.Utf8.encode text
  return (Tree.ofListing script (Text.Utf8.decodeLossy listing)).map fun t => ((language, text), t)

/-- Makes the changes from one disk to another. -/
def commit (before after : Disk) : IO Unit := do
  for (place, entry) in after.entries.reverse do
    unless before.at? place == some entry do
      let path := "/" ++ "/".intercalate place
      match entry with
      | .directory => IO.FS.createDirAll path
      | .file bytes => IO.FS.writeBinFile path ⟨bytes.toArray⟩

end Flowchart.Main

open Flowchart Flowchart.Main in
/-- Runs a command line; a fault ends it with the status 1. -/
def main (arguments : List String) : IO UInt32 := do
  let paths := match Invocation.parse arguments with
    | .ok invocation => pathsOf invocation
    | .error _ => []
  let disk ← picture paths
  let known ← paths.filterMapM (knownTree disk)
  let outcome := run (.ofKnown known) disk arguments
  commit disk outcome.disk
  (← IO.getStdout).putStr outcome.printed
  (← IO.getStderr).putStr outcome.reported
  match outcome.ending with
  | .status code => return code.toUInt32
  | .fault fault =>
    (← IO.getStderr).putStrLn ("flowdoc: " ++ fault.message)
    return 1
