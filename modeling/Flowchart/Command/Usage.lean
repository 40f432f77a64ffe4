import Flowchart.Command.Options

set_option autoImplicit false

/-!
# Usage

The help of the program and of its commands, and the messages for arguments that it cannot use.

## Main definitions

* `Flowchart.Usage.Verb`: the commands of the program.
* `Flowchart.Usage.Topic`: the program as a whole, or one of its commands.
* `Flowchart.Usage.Topic.help`: the help on a topic, whose first line is its usage.
* `Flowchart.Usage.Topic.complaint`: the message for a misuse.
-/

namespace Flowchart.Usage

/-- A command of the program. -/
inductive Verb where
  /-- Prints sections. -/
  | sections
  /-- Renders a document. -/
  | rendering
  /-- Checks a document. -/
  | checking
  deriving DecidableEq, Repr

/-- What help is given on. -/
inductive Topic where
  | program
  | command (verb : Verb)
  deriving DecidableEq, Repr

/-- The name of a command. -/
def Verb.name : Verb → String
  | .sections => "show"
  | .rendering => "render"
  | .checking => "check"

/-- The commands in the order in which they are listed. -/
def Verb.all : List Verb :=
  [.sections, .rendering, .checking]

/-- The command of a name. -/
def Verb.ofName? (name : String) : Option Verb :=
  Verb.all.find? fun v => v.name == name

namespace Topic

/-- The words that a topic is called by. -/
def name : Topic → String
  | .program => "flowdoc"
  | .command verb => "flowdoc " ++ verb.name

/-- The usage line of a topic. -/
def usage : Topic → String
  | .program => "usage: flowdoc [-h] [--verbose] \x7bshow,render,check\x7d ..."
  | .command .sections => "usage: flowdoc show [-h] [--json] [--owner OWNER] files [files ...]"
  | .command .rendering =>
    "usage: flowdoc render [-h] [--output OUTPUT] [--title TITLE] files [files ...]"
  | .command .checking => "usage: flowdoc check [-h] --doc DOC files [files ...]"

/-- The lines of the help on a topic behind its usage line. -/
def details : Topic → List String
  | .program =>
    ["",
      "flowdoc: flow diagrams for contracts and scenarios",
      "",
      "positional arguments:",
      "  \x7bshow,render,check\x7d  Commands",
      "    show               Print flow sections",
      "    render             Render the flow document",
      "    check              Check a flow document for drift",
      "",
      "options:",
      "  -h, --help           show this help message and exit",
      "  --verbose, -v        Enable debug logging",
      "",
      "Examples:",
      "    flowdoc show src/cart.ts",
      "    flowdoc show src/cart.ts --owner cart.add --json",
      "    flowdoc render src/*.ts -o docs/flows.md",
      "    flowdoc check src/*.ts --doc docs/flows.md",
      "        "]
  | .command .sections =>
    ["",
      "positional arguments:",
      "  files          Source files",
      "",
      "options:",
      "  -h, --help     show this help message and exit",
      "  --json, -j     Output as JSON",
      "  --owner OWNER  Only show the contract/scenario with this id"]
  | .command .rendering =>
    ["",
      "positional arguments:",
      "  files                 Source files",
      "",
      "options:",
      "  -h, --help            show this help message and exit",
      "  --output OUTPUT, -o OUTPUT",
      "                        Output file path (default: stdout)",
      "  --title TITLE         Document title"]
  | .command .checking =>
    ["",
      "positional arguments:",
      "  files       Source files",
      "",
      "options:",
      "  -h, --help  show this help message and exit",
      "  --doc DOC   Generated document to check"]

/-- The help on a topic. -/
def help (t : Topic) : String :=
  String.join ((t.usage :: t.details).map fun line => line ++ "\n")

/-- The message for a misuse: the usage and what is wrong. -/
def complaint (t : Topic) (m : Options.Misuse) : String :=
  t.usage ++ "\n" ++ t.name ++ ": error: " ++ m.message ++ "\n"

end Topic

end Flowchart.Usage
