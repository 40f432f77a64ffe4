set_option autoImplicit false

/-!
# Paths

File paths as they are written on a command line: names between slashes, relative to the working
directory unless they start with a slash.

## Main definitions

* `Flowchart.Path`: the leading slashes of a path and the names after them.
* `Flowchart.Path.ofString`, `Flowchart.Path.toString`: reading and writing.
* `Flowchart.Path.extension`: the part of the last name from its last dot on.
* `Flowchart.Path.parent`: the directory that holds the last name.

## Design

Empty names and single dots stand for nothing and are dropped. A name of two dots is kept, because
what it leads to depends on the directories of the disk. Exactly two leading slashes are a root of
their own, any other number is one slash.
-/

namespace Flowchart

/-- Where the names of a path start. -/
inductive Path.Root where
  /-- The working directory. -/
  | working
  /-- The root directory, written with one slash. -/
  | slash
  /-- The root directory, written with two slashes. -/
  | doubleSlash
  deriving DecidableEq, Repr

/-- A path in normal form. -/
structure Path where
  root : Path.Root
  names : List String
  deriving DecidableEq, Repr

namespace Path

/-- The text of a root. -/
def Root.text : Root → String
  | .working => ""
  | .slash => "/"
  | .doubleSlash => "//"

/-- The root that a number of leading slashes denotes. -/
def Root.ofSlashes : Nat → Root
  | 0 => .working
  | 2 => .doubleSlash
  | _ => .slash

/-- The path that a text denotes. -/
def ofString (s : String) : Path where
  root := Root.ofSlashes (s.toList.takeWhile (· == '/')).length
  names := ((s.toList.splitOn '/').map String.ofList).filter fun n => n != "" && n != "."

/-- The text of a path; the working directory is a dot. -/
def toString (p : Path) : String :=
  if p.root = .working ∧ p.names = [] then "." else p.root.text ++ "/".intercalate p.names

/-- The last name of a path, empty if it has none. -/
def name (p : Path) : String :=
  p.names.getLastD ""

/-- The characters from the last dot on, if it is neither the first nor the last character. -/
def dotted (cs : List Char) : List Char :=
  let after := cs.reverse.takeWhile (· != '.')
  let before := cs.length - after.length - 1
  if after = [] ∨ before = 0 then [] else (cs.drop before)

/-- The part of the last name from its last dot on; empty if the dot starts or ends the name. -/
def extension (p : Path) : String :=
  String.ofList (dotted p.name.toList)

/-- The directory that holds the last name; a path without names is its own parent. -/
def parent (p : Path) : Path :=
  { p with names := p.names.dropLast }

end Path

end Flowchart
