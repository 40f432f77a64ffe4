import Flowchart.Command.Disk
import Flowchart.Command.Invocation
import Flowchart.Document.Drift
import Flowchart.Flow.Report

set_option autoImplicit false

/-!
# Runs

What the program does with a command line on a disk: the text that it prints, the disk that it
leaves, and how it ends.

## Main definitions

* `Flowchart.Outcome`: all that a run leaves behind.
* `Flowchart.Run.load`: reading files into artifacts.
* `Flowchart.Run.perform`: carrying out a task.
* `Flowchart.run`: the run of a command line.

## Design

A run is a function of the arguments, the disk and the grammar, so that all it does can be seen in
its outcome. Files are read one after the other, and the first one that cannot be read ends the run
before anything is printed or written.
-/

namespace Flowchart

/-- A fault that ends a run without a status. -/
inductive Fault where
  /-- A file is not UTF-8. -/
  | undecodable (fault : Text.Utf8.Fault)
  /-- An operation on the disk fails in a way that is not reported otherwise. -/
  | disk (error : DiskError)
  /-- The value that should name the document was dropped. -/
  | unnamed
  /-- A chart has an edge without an end. -/
  | dangling (error : Draft.DanglingEdge)
  deriving DecidableEq, Repr

/-- The message for a fault. -/
def Fault.message : Fault → String
  | .undecodable f => f.message
  | .disk e => e.message
  | .unnamed => "expected str, bytes or os.PathLike object, not list"
  | .dangling e => e.message

/-- How a run ends. -/
inductive Ending where
  | status (code : Nat)
  | fault (fault : Fault)
  deriving DecidableEq, Repr

/-- What a run leaves behind. -/
structure Outcome where
  ending : Ending
  /-- The text on the standard output. -/
  printed : String
  /-- The text on the standard error output. -/
  reported : String
  disk : Disk
  deriving DecidableEq, Repr

namespace Run

/-- The status of a run without findings. -/
def statusDone : Nat := 0

/-- The status of a run that finds a document out of date. -/
def statusOutdated : Nat := 1

/-- The status of a run that finds no artifact of an owner. -/
def statusNotFound : Nat := 1

/-- The status of a run that cannot be carried out. -/
def statusUnusable : Nat := 2

/-- Lines, each with its end. -/
def unlines (lines : List String) : String :=
  String.join (lines.map fun line => line ++ "\n")

/-! ### Reading files -/

/-- The result of a part of a run, with the lines that it reports. -/
structure Step (α : Type) where
  reported : List String
  result : Except Ending α

/-- The step that reports lines and goes on with a value. -/
def Step.done {α : Type} (reported : List String) (value : α) : Step α :=
  ⟨reported, .ok value⟩

/-- The step that reports lines and ends the run. -/
def Step.stop {α : Type} (reported : List String) (ending : Ending) : Step α :=
  ⟨reported, .error ending⟩

/-- A step followed by one that its value determines. -/
def Step.bind {α β : Type} (s : Step α) (next : α → Step β) : Step β :=
  match s.result with
  | .error e => .stop s.reported e
  | .ok a => let t := next a; ⟨s.reported ++ t.reported, t.result⟩

/-- The text of a file with unified line ends. A refused reading is reported. -/
def readText (disk : Disk) (path : Path) : Step String :=
  match disk.read path with
  | .error .nullCharacter => .stop [] (.fault (.disk .nullCharacter))
  | .error e =>
    .stop ["Error reading " ++ path.toString ++ ": " ++ e.message] (.status statusUnusable)
  | .ok bytes =>
    match Text.Utf8.decode bytes with
    | .error f => .stop [] (.fault (.undecodable f))
    | .ok text => .done [] (Text.Utf8.unifyNewlines text)

/-- The lines that notes take in a run. -/
def noteLines (verbose : Bool) (notes : List Note) : List String :=
  if verbose then notes.map Note.text else []

/-- The grammars: the tree of a text in a language. -/
abbrev Parser := Language → String → Tree

/-- The grammars that know the trees of some texts; any other text counts as blank. -/
def Parser.ofKnown (known : List ((Language × String) × Tree)) : Parser := fun language text =>
  (known.lookup (language, text)).getD .blank

/-- The artifacts of the text of a file. -/
def extract (parser : Parser) (verbose : Bool) (path : Path) (text : String) :
    Step (List Artifact) :=
  match Report.ofFile path fun language => parser language text with
  | .error e => .stop [] (.fault (.dangling e))
  | .ok r =>
    .done (noteLines verbose r.notes
      ++ [path.toString ++ ": " ++ toString r.artifacts.length ++ " flow(s)"]) r.artifacts

/-- The artifacts of a file; a file that no grammar reads has none. -/
def loadFile (parser : Parser) (disk : Disk) (verbose : Bool) (path : Path) :
    Step (List Artifact) :=
  if (Language.ofPath? path).isNone then
    .done ["Skipping unsupported file: " ++ path.toString] []
  else (readText disk path).bind (extract parser verbose path)

/-- The artifacts of files, one after the other. -/
def load (parser : Parser) (disk : Disk) (verbose : Bool) : List Path → Step (List Artifact)
  | [] => .done [] []
  | path :: paths =>
    (loadFile parser disk verbose path).bind fun found =>
      (load parser disk verbose paths).bind fun more => .done [] (found ++ more)

/-! ### Tasks -/

/-- The outcome of printing the sections of artifacts. -/
def sections (disk : Disk) (json : Bool) (owner : Option String) (artifacts : List Artifact) :
    Outcome :=
  let chosen := match owner with
    | some id => artifacts.filter fun a => a.ownerId == id
    | none => artifacts
  match owner, chosen with
  | some id, [] =>
    ⟨.status statusNotFound, "", unlines ["No contract or scenario named: " ++ id], disk⟩
  | _, _ =>
    let printed :=
      if json then unlines [(Json.array (chosen.map Artifact.toJson)).render]
      else unlines (chosen.flatMap Artifact.documentLines)
    ⟨.status statusDone, printed, "", disk⟩

/-- The outcome of rendering artifacts. -/
def rendering (disk : Disk) (output : Option String) (title : String)
    (artifacts : List Artifact) : Outcome :=
  let document := Document.render title artifacts
  match output with
  | none => ⟨.status statusDone, unlines [document], "", disk⟩
  | some name =>
    let path := Path.ofString name
    let change := (disk.makeDirectories path.parent).andThen fun disk =>
      disk.write path (Text.Utf8.encode document)
    match change.error with
    | some e => ⟨.fault (.disk e), "", "", change.disk⟩
    | none =>
      ⟨.status statusDone, "",
        unlines ["Wrote " ++ toString artifacts.length ++ " flow(s) to " ++ path.toString],
        change.disk⟩

/-- The outcome of comparing the text of a document with artifacts. -/
def comparing (disk : Disk) (verbose : Bool) (path : Path) (artifacts : List Artifact)
    (document : String) : Outcome :=
  let drift := Drift.check artifacts document
  let notes := noteLines verbose [drift.note document]
  if drift.isCurrent then
    ⟨.status statusDone, "",
      unlines (notes ++ [path.toString ++ " is up to date (" ++ toString artifacts.length
        ++ " flow(s))"]), disk⟩
  else
    ⟨.status statusOutdated, unlines drift.describe,
      unlines (notes ++ [path.toString ++ " is out of date; run `flowdoc render ... -o "
        ++ path.toString ++ "`"]), disk⟩

/-- The outcome of comparing a document with artifacts. -/
def checking (disk : Disk) (verbose : Bool) (document : Option String)
    (artifacts : List Artifact) : Outcome :=
  match document with
  | none => ⟨.fault .unnamed, "", "", disk⟩
  | some name =>
    let path := Path.ofString name
    match readText disk path with
    | ⟨lines, .error e⟩ => ⟨e, "", unlines lines, disk⟩
    | ⟨_, .ok text⟩ => comparing disk verbose path artifacts text

/-- The outcome of a task on artifacts. -/
def perform (disk : Disk) (verbose : Bool) (task : Task) (artifacts : List Artifact) : Outcome :=
  match task with
  | .sections json owner => sections disk json owner artifacts
  | .rendering output title => rendering disk output title artifacts
  | .checking document => checking disk verbose document artifacts

/-! ### Command lines -/

/-- The outcome of a refused command line. -/
def refused (disk : Disk) (r : Invocation.Refusal) : Outcome :=
  match r.halt with
  | .help => ⟨.status statusDone, r.topic.help, "", disk⟩
  | .misuse m => ⟨.status statusUnusable, "", r.topic.complaint m, disk⟩

/-- The outcome of a task on files. -/
def execute (parser : Parser) (disk : Disk) (verbose : Bool) (task : Task) (files : List String) :
    Outcome :=
  match load parser disk verbose (files.map Path.ofString) with
  | ⟨lines, .error e⟩ => ⟨e, "", unlines lines, disk⟩
  | ⟨lines, .ok artifacts⟩ =>
    let outcome := perform disk verbose task artifacts
    { outcome with reported := unlines lines ++ outcome.reported }

end Run

/-- The run of a command line. Without a command the help of the program is printed. -/
def run (parser : Run.Parser) (disk : Disk) (arguments : List String) : Outcome :=
  match Invocation.parse arguments with
  | .error r => Run.refused disk r
  | .ok ⟨_, none⟩ => ⟨.status Run.statusUnusable, Usage.Topic.program.help, "", disk⟩
  | .ok ⟨verbose, some (task, files)⟩ => Run.execute parser disk verbose task files

end Flowchart
