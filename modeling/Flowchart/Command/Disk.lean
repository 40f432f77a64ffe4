import Flowchart.Path
import Flowchart.Text.Quoted

set_option autoImplicit false

/-!
# Disks

The files and directories that a run of the program sees, and the ways in which reading, writing and
making directories fail.

## Main definitions

* `Flowchart.Disk`: files and directories by their places.
* `Flowchart.Disk.locate`: the place that a path leads to.
* `Flowchart.Disk.read`, `Flowchart.Disk.write`, `Flowchart.Disk.makeDirectory`: the operations.
* `Flowchart.Disk.makeDirectories`: making a directory with all that lie above it.
* `Flowchart.DiskError`: a failed operation.
* `Flowchart.Disk.Change`: the disk that an operation leaves, whether it fails or not.

## Design

A place is a list of names from the root directory. A directory exists if it is the root, if it is
listed, or if something is listed below it. Names are looked up one after the other, so the name
`..` leads up from the directory reached so far, and every name but the last must be a directory.
The lengths of names and paths are limited, and a path that holds a null character is never looked
up.
-/

namespace Flowchart

/-- Why an operation on a disk fails. -/
inductive DiskError.Reason where
  | missing
  | exists
  | notDirectory
  | isDirectory
  | tooLong
  deriving DecidableEq, Repr

/-- The number of a reason. -/
def DiskError.Reason.number : DiskError.Reason → Nat
  | .missing => 2
  | .exists => 17
  | .notDirectory => 20
  | .isDirectory => 21
  | .tooLong => 36

/-- The wording of a reason. -/
def DiskError.Reason.text : DiskError.Reason → String
  | .missing => "No such file or directory"
  | .exists => "File exists"
  | .notDirectory => "Not a directory"
  | .isDirectory => "Is a directory"
  | .tooLong => "File name too long"

/-- An operation that failed. -/
inductive DiskError where
  /-- The disk refuses the operation on a path. -/
  | refused (reason : DiskError.Reason) (path : Path)
  /-- The path holds a null character and so cannot be passed to the disk. -/
  | nullCharacter
  deriving DecidableEq, Repr

/-- The message for a failed operation. -/
def DiskError.message : DiskError → String
  | .refused reason path =>
    "[Errno " ++ toString reason.number ++ "] " ++ reason.text ++ ": "
      ++ Text.quote path.toString
  | .nullCharacter => "embedded null byte"

/-- What stands in a place of a disk. -/
inductive Disk.Entry where
  | file (bytes : List UInt8)
  | directory
  deriving DecidableEq, Repr

/-- A place on a disk: the names from the root directory on. -/
abbrev Disk.Place := List String

/-- A disk with a working directory. -/
structure Disk where
  working : Disk.Place
  entries : List (Disk.Place × Disk.Entry)
  deriving DecidableEq, Repr

namespace Disk

/-! ### Places -/

/-- What stands in a place. -/
def at? (d : Disk) (place : Place) : Option Entry :=
  match d.entries.find? fun e => e.1 == place with
  | some e => some e.2
  | none =>
    if place.isPrefixOf d.working || d.entries.any fun e => place.isPrefixOf e.1 then
      some .directory
    else none

/-- The number of bytes that a name can have. -/
def nameLimit : Nat := 255

/-- The number of bytes that a path can have. -/
def pathLimit : Nat := 4095

/-- The place that names lead to from a place. -/
def follow (d : Disk) : Place → List String → Except DiskError.Reason Place
  | place, [] => .ok place
  | place, name :: names =>
    match d.at? place with
    | none => .error .missing
    | some (.file _) => .error .notDirectory
    | some .directory =>
      if nameLimit < name.utf8ByteSize then .error .tooLong
      else d.follow (if name = ".." then place.dropLast else place ++ [name]) names

/-- The place that a path leads to; nothing needs to stand there. -/
def locate (d : Disk) (path : Path) : Except DiskError Place :=
  if '\x00' ∈ path.toString.toList then .error .nullCharacter
  else if pathLimit < path.toString.utf8ByteSize then .error (.refused .tooLong path)
  else
    (d.follow (if path.root = .working then d.working else []) path.names).mapError fun reason =>
      .refused reason path

/-- A disk with an entry in a place, instead of the one before. -/
def put (d : Disk) (place : Place) (entry : Entry) : Disk :=
  { d with entries := (place, entry) :: d.entries.filter fun e => e.1 != place }

/-! ### Reading -/

/-- The bytes of the file that a path leads to. -/
def read (d : Disk) (path : Path) : Except DiskError (List UInt8) :=
  match d.locate path with
  | .error e => .error e
  | .ok place =>
    match d.at? place with
    | some (.file bytes) => .ok bytes
    | some .directory => .error (.refused .isDirectory path)
    | none => .error (.refused .missing path)

/-- Whether a path leads to a directory. -/
def isDirectory (d : Disk) (path : Path) : Bool :=
  match d.locate path with
  | .ok place => d.at? place == some .directory
  | .error _ => false

/-! ### Changes -/

/-- The disk after an operation, and why the operation failed if it did. -/
structure Change where
  disk : Disk
  error : Option DiskError
  deriving DecidableEq, Repr

/-- A change followed by another one, unless the first fails. -/
def Change.andThen (c : Change) (next : Disk → Change) : Change :=
  if c.error.isSome then c else next c.disk

/-- Writes bytes to the file that a path leads to. -/
def write (d : Disk) (path : Path) (bytes : List UInt8) : Change :=
  match d.locate path with
  | .error e => ⟨d, some e⟩
  | .ok place =>
    match d.at? place with
    | some .directory => ⟨d, some (.refused .isDirectory path)⟩
    | _ => ⟨d.put place (.file bytes), none⟩

/-- Makes a directory at the place that a path leads to. -/
def makeDirectory (d : Disk) (path : Path) : Change :=
  match d.locate path with
  | .error e => ⟨d, some e⟩
  | .ok place =>
    match d.at? place with
    | some _ => ⟨d, some (.refused .exists path)⟩
    | none => ⟨d.put place .directory, none⟩

/-- Makes a directory at the place that a path leads to, unless there is one. -/
def ensureDirectory (d : Disk) (path : Path) : Change :=
  let c := d.makeDirectory path
  if c.error.isSome && d.isDirectory path then ⟨d, none⟩ else c

/-- Makes the directory that a root and names lead to and the missing ones above it, where the names
are given from the last to the first. The directories above are made only if the one itself cannot
be made for lack of them. -/
def ensureAll (root : Path.Root) : List String → Disk → Change
  | [], d => d.ensureDirectory ⟨root, []⟩
  | name :: names, d =>
    let path : Path := ⟨root, (name :: names).reverse⟩
    if (d.makeDirectory path).error = some (.refused .missing path) then
      (ensureAll root names d).andThen fun d => d.ensureDirectory path
    else d.ensureDirectory path

/-- Makes the directory of a path and all directories above it. -/
def makeDirectories (d : Disk) (path : Path) : Change :=
  ensureAll path.root path.names.reverse d

end Disk

end Flowchart
