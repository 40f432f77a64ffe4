import Flowchart.Command.Usage
import Flowchart.Document.Section

set_option autoImplicit false

/-!
# Invocations

What the arguments of the program ask for.

## Main definitions

* `Flowchart.Task`: the commands with their settings.
* `Flowchart.Invocation`: a whole command line.
* `Flowchart.Invocation.parse`: the invocation that arguments spell, or why there is none.
-/

namespace Flowchart

/-- What a command does with its files. -/
inductive Task where
  /-- Prints the sections of artifacts, as text or as data; of one owner only, if one is named. -/
  | sections (json : Bool) (owner : Option String)
  /-- Writes the document of artifacts to a file, or prints it if no file is named. -/
  | rendering (output : Option String) (title : String)
  /-- Compares a document with artifacts; the name of the document may have been dropped. -/
  | checking (document : Option String)
  deriving DecidableEq, Repr

/-- A command line. -/
structure Invocation where
  /-- Whether notes are told. -/
  verbose : Bool
  /-- The files and what to do with them; nothing to do if no command is named. -/
  command : Option (Task × List String)
  deriving DecidableEq, Repr

namespace Invocation

open Options Usage

/-- Why a command line is not carried out, with the topic that it concerns. -/
structure Refusal where
  topic : Topic
  halt : Halt
  deriving DecidableEq, Repr

/-! ### Grammars -/

/-- The option that asks for help. -/
def helpOption {σ : Type} : Opt σ :=
  ⟨["-h", "--help"], .help⟩

/-- The options of the program; the setting is whether notes are told. -/
def programGrammar : Grammar Bool where
  options := [helpOption, ⟨["--verbose", "-v"], .flag fun _ => true⟩]
  operands := .command

/-- A value that counts as absent if it is empty. -/
def nonempty (value : Option String) : Option String :=
  value.filter fun s => s != ""

/-- The title that a value makes; a dropped one shows as an empty list. -/
def titleOf (value : Option String) : String :=
  value.getD "[]"

/-- The options of printing sections; the settings are those of the task. -/
def sectionsGrammar : Grammar (Bool × Option String) where
  options :=
    [helpOption, ⟨["--json", "-j"], .flag fun s => (true, s.2)⟩,
      ⟨["--owner"], .value fun v s => (s.1, nonempty v)⟩]
  operands := .words

/-- The options of rendering; the settings are those of the task. -/
def renderingGrammar : Grammar (Option String × String) where
  options :=
    [helpOption, ⟨["--output", "-o"], .value fun v s => (nonempty v, s.2)⟩,
      ⟨["--title"], .value fun v s => (s.1, titleOf v)⟩]
  operands := .words

/-- The options of checking; the setting is the name of the document, if the option for it is given.
-/
def checkingGrammar : Grammar (Option (Option String)) where
  options := [helpOption, ⟨["--doc"], .value fun v _ => some v⟩]
  operands := .words

/-! ### Parsing -/

/-- The files of a command and the task that its settings make, where `missing` names the required
options that the settings lack. -/
def complete {σ : Type} (parsed : Parsed σ) (task : Option Task) (missing : List String) :
    Except Halt ((Task × List String) × List String) :=
  match parsed.operands, task with
  | some files, some task => .ok ((task, files), parsed.extras)
  | some _, none => .error (.misuse (.missingArguments missing))
  | none, some _ => .error (.misuse (.missingArguments ["files"]))
  | none, none => .error (.misuse (.missingArguments ("files" :: missing)))

/-- The command that the arguments behind its name spell, and the arguments left over. -/
def parseCommand (verb : Verb) (arguments : List String) :
    Except Halt ((Task × List String) × List String) :=
  match verb with
  | .sections => do
    let p ← sectionsGrammar.parse (false, none) arguments
    complete p (some (.sections p.settings.1 p.settings.2)) []
  | .rendering => do
    let p ← renderingGrammar.parse (none, Document.defaultTitle) arguments
    complete p (some (.rendering p.settings.1 p.settings.2)) []
  | .checking => do
    let p ← checkingGrammar.parse none arguments
    complete p (p.settings.map .checking) ["--doc"]

/-- A result that concerns a topic. -/
def refuse {α : Type} (topic : Topic) (result : Except Halt α) : Except Refusal α :=
  result.mapError fun halt => ⟨topic, halt⟩

/-- The command that the operands of the program spell, if there are any, and the arguments left
over. -/
def parseOperands : Option (List String) →
    Except Refusal (Option (Task × List String) × List String)
  | none | some [] => .ok (none, [])
  | some (name :: arguments) =>
    match Verb.ofName? name with
    | none =>
      refuse .program (.error (.misuse (.unknownCommand name (Verb.all.map Verb.name))))
    | some verb => do
      let (command, extras) ← refuse (.command verb) (parseCommand verb arguments)
      return (some command, extras)

/-- The invocation that arguments spell. Arguments left over by a command are reported with those
left over by the program, once all else is in order. -/
def parse (arguments : List String) : Except Refusal Invocation := do
  let p ← refuse .program (programGrammar.parse false arguments)
  let (command, extras) ← parseOperands p.operands
  if p.extras ++ extras = [] then return ⟨p.settings, command⟩
  else refuse .program (.error (.misuse (.unrecognized (p.extras ++ extras))))

end Invocation

end Flowchart
