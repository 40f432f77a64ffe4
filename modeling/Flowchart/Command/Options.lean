import Flowchart.Text.Digit
import Flowchart.Text.Quoted

set_option autoImplicit false

/-!
# Options

Reading the arguments of a command: which of them are options, which values belong to options, and
which are operands.

## Main definitions

* `Flowchart.Options.Grammar`: the options of a command and the form of its operands.
* `Flowchart.Options.Misuse`: what can be wrong with arguments.
* `Flowchart.Options.classify`: whether an argument is a word or an option.
* `Flowchart.Options.Grammar.parse`: the settings, the operands and the rest.

## Design

Reading takes two passes. The first one classifies each argument by itself: a long option may be cut
as long as it is not ambiguous and may have its value behind an equals sign, a short one may have
its value or further short options right behind it, and `--` makes words of all arguments behind it.
The second pass goes through the classified arguments and applies the options in order. Unknown
options and words that no operand takes are left over and do not stop it.
-/

namespace Flowchart.Options

/-! ### Grammars -/

/-- What an option does to settings of some type. -/
inductive Effect (σ : Type) where
  /-- Asks for help. -/
  | help
  /-- Takes no value. -/
  | flag (set : σ → σ)
  /-- Takes a value, which may be dropped. -/
  | value (set : Option String → σ → σ)

/-- An option. -/
structure Opt (σ : Type) where
  /-- The names with their dashes. -/
  names : List String
  effect : Effect σ

/-- The form of the operands of a command. -/
inductive Operands where
  /-- One or more words in a row. -/
  | words
  /-- A word and all arguments behind it. -/
  | command
  deriving DecidableEq, Repr

/-- The options of a command and the form of its operands. -/
structure Grammar (σ : Type) where
  options : List (Opt σ)
  operands : Operands

/-- What is wrong with the arguments of a command. -/
inductive Misuse where
  /-- A cut option may mean several ones. -/
  | ambiguous (argument : String) (candidates : List String)
  /-- An option that takes no value is given one. -/
  | ignoredText (option : String) (text : String)
  /-- An option lacks its value. -/
  | missingValue (option : String)
  /-- Operands or options that must be there are not. -/
  | missingArguments (names : List String)
  /-- A word is not one of the commands. -/
  | unknownCommand (name : String) (commands : List String)
  /-- Arguments are left over. -/
  | unrecognized (arguments : List String)
  deriving DecidableEq, Repr

/-- The message for a misuse. -/
def Misuse.message : Misuse → String
  | .ambiguous argument candidates =>
    "ambiguous option: " ++ argument ++ " could match " ++ ", ".intercalate candidates
  | .ignoredText option text =>
    "argument " ++ option ++ ": ignored explicit argument " ++ Text.quote text
  | .missingValue option => "argument " ++ option ++ ": expected one argument"
  | .missingArguments names =>
    "the following arguments are required: " ++ ", ".intercalate names
  | .unknownCommand name commands =>
    "argument command: invalid choice: " ++ Text.quote name ++ " (choose from "
      ++ ", ".intercalate (commands.map Text.quote) ++ ")"
  | .unrecognized arguments => "unrecognized arguments: " ++ " ".intercalate arguments

/-- Why a command is not carried out. -/
inductive Halt where
  /-- Help is asked for. -/
  | help
  | misuse (misuse : Misuse)
  deriving DecidableEq, Repr

/-! ### Classification -/

variable {σ : Type}

/-- The title of an option in messages. -/
def Opt.title (o : Opt σ) : String :=
  "/".intercalate o.names

/-- The names of options in order, each with its option. -/
def nameTable (options : List (Opt σ)) : List (String × Opt σ) :=
  options.flatMap fun o => o.names.map fun name => (name, o)

/-- The option of a name. -/
def named? (options : List (Opt σ)) (name : String) : Option (Opt σ) :=
  ((nameTable options).find? fun entry => entry.1 == name).map Prod.snd

/-- An argument read as an option. -/
structure Reading (σ : Type) where
  option : Opt σ
  /-- The name that the argument spells or abbreviates. -/
  name : String
  /-- The text that stands behind the name in the same argument. -/
  attached : Option (List Char)

/-- A classified argument. -/
inductive Token (σ : Type) where
  | word (text : String)
  /-- The argument behind which there are only words. -/
  | marker
  /-- An option; one that the grammar does not have is not read. -/
  | option (text : String) (reading : Option (Reading σ))

/-- The argument that a token was made of. -/
def Token.text : Token σ → String
  | .word s => s
  | .marker => "--"
  | .option s _ => s

/-- The text behind the first equals sign. -/
def attachedText? (cs : List Char) : Option (List Char) :=
  match cs.dropWhile (· != '=') with
  | [] => none
  | _ :: text => some text

/-- All readings of an argument that starts with a dash and is no full name. -/
def readings (options : List (Opt σ)) (cs : List Char) : List (Reading σ) :=
  if "--".toList.isPrefixOf cs then
    let cutName := cs.takeWhile (· != '=')
    (nameTable options).filterMap fun (name, o) =>
      if cutName.isPrefixOf name.toList then some ⟨o, name, attachedText? cs⟩ else none
  else
    (nameTable options).filterMap fun (name, o) =>
      if name.toList = cs.take 2 then some ⟨o, name, some (cs.drop 2)⟩
      else if cs.isPrefixOf name.toList then some ⟨o, name, none⟩
      else none

/-- Whether an argument is a negative decimal number; a line feed may follow it. -/
def isNegativeNumber (cs : List Char) : Bool :=
  match if cs.getLast? = some '\n' then cs.dropLast else cs with
  | '-' :: number =>
    match number.dropWhile Text.isDigit with
    | [] => number != []
    | '.' :: fraction => fraction != [] && fraction.all Text.isDigit
    | _ => false
  | _ => false

/-- The token of an argument. One that starts with a dash is an option unless it is a single dash, a
negative number or a phrase with spaces. -/
def classify (options : List (Opt σ)) (argument : String) : Except Misuse (Token σ) :=
  let cs := argument.toList
  if cs.head? = some '-' ∧ 1 < cs.length then
    let spelled := String.ofList (cs.takeWhile (· != '='))
    match named? options argument, named? options spelled with
    | some o, _ => .ok (.option argument (some ⟨o, argument, none⟩))
    | none, some o => .ok (.option argument (some ⟨o, spelled, attachedText? cs⟩))
    | none, none =>
      match readings options cs with
      | [] =>
        if isNegativeNumber cs || ' ' ∈ cs then .ok (.word argument)
        else .ok (.option argument none)
      | [r] => .ok (.option argument (some r))
      | rs => .error (.ambiguous argument (rs.map Reading.name))
  else .ok (.word argument)

/-- The tokens of arguments. -/
def tokens (options : List (Opt σ)) : List String → Except Misuse (List (Token σ))
  | [] => .ok []
  | a :: arguments =>
    if a = "--" then .ok (.marker :: arguments.map .word)
    else do
      let t ← classify options a
      return t :: (← tokens options arguments)

/-! ### Options in one argument -/

/-- The options that one argument holds. -/
structure Cluster (σ : Type) where
  /-- The options that are complete, with their values. -/
  complete : List (Opt σ × Option String)
  /-- The last option, if it takes its value from the next argument. -/
  pending : Option (Opt σ)

/-- Whether an option takes a value. -/
def Opt.takesValue (o : Opt σ) : Bool :=
  match o.effect with
  | .value _ => true
  | _ => false

/-- The cluster of a single option that has no text attached. -/
def Cluster.bare (o : Opt σ) : Cluster σ :=
  if o.takesValue then ⟨[], some o⟩ else ⟨[(o, none)], none⟩

/-- A cluster with one more option before it. -/
def Cluster.after (o : Opt σ) (c : Cluster σ) : Cluster σ :=
  { c with complete := (o, none) :: c.complete }

/-- The value that attached text makes. Two dashes are dropped, as they are among words, so that no
value is left. -/
def attachedValue (text : List Char) : Option String :=
  if text = ['-', '-'] then none else some (String.ofList text)

/-- The cluster of an option with text attached. The text is the value of an option that takes one;
behind a short option that takes none it is further short options. -/
def cluster (options : List (Opt σ)) (o : Opt σ) (short : Bool) :
    List Char → Except Misuse (Cluster σ)
  | [] =>
    if o.takesValue then .ok ⟨[(o, some "")], none⟩ else .error (.ignoredText o.title "")
  | c :: cs =>
    if o.takesValue then .ok ⟨[(o, attachedValue (c :: cs))], none⟩
    else
      match if short then named? options (String.ofList ['-', c]) else none with
      | none => .error (.ignoredText o.title (String.ofList (c :: cs)))
      | some next =>
        .after o <$> if cs = [] then .ok (.bare next) else cluster options next true cs

/-- Whether a name is short: one dash and a letter. -/
def isShort (name : String) : Bool :=
  (name.toList.drop 1).head? != some '-'

/-- The options in an argument. -/
def Reading.cluster (options : List (Opt σ)) (r : Reading σ) : Except Misuse (Cluster σ) :=
  match r.attached with
  | none => .ok (.bare r.option)
  | some text => Options.cluster options r.option (isShort r.name) text

/-- Settings after options in their order; a request for help ends the reading. -/
def applyAll : List (Opt σ × Option String) → σ → Except Halt σ
  | [], settings => .ok settings
  | (o, text) :: rest, settings =>
    match o.effect with
    | .help => .error .help
    | .flag set => applyAll rest (set settings)
    | .value set => applyAll rest (set text settings)

/-! ### Arguments -/

/-- What is read of arguments. -/
structure Parsed (σ : Type) where
  settings : σ
  /-- The operands, if there are any. -/
  operands : Option (List String)
  /-- The arguments that nothing takes. -/
  extras : List String

/-- What is read after a run of words, which are operands unless there are operands already. -/
def Parsed.close (p : Parsed σ) (run : List (Token σ)) : Parsed σ :=
  let words := run.filterMap fun
    | .word s => some s
    | _ => none
  if p.operands.isNone && !words.isEmpty then { p with operands := some words }
  else { p with extras := p.extras ++ run.map Token.text }

/-- Reads tokens, where `run` holds the words since the last option. -/
def consume (g : Grammar σ) (p : Parsed σ) (run : List (Token σ)) :
    List (Token σ) → Except Halt (Parsed σ)
  | [] => .ok (p.close run)
  | .marker :: rest => consume g p (run ++ [.marker]) rest
  | .word s :: rest =>
    if g.operands = .command ∧ p.operands.isNone then
      .ok { p with operands := some ((run ++ .word s :: rest).map Token.text) }
    else consume g p (run ++ [.word s]) rest
  | .option text none :: rest =>
    let p := p.close run
    consume g { p with extras := p.extras ++ [text] } [] rest
  | .option _ (some r) :: rest =>
    let p := p.close run
    match r.cluster g.options with
    | .error m => .error (.misuse m)
    | .ok c =>
      match c.pending, rest with
      | none, rest =>
        match applyAll c.complete p.settings with
        | .error halt => .error halt
        | .ok settings =>
          consume g { p with settings := settings } [] rest
      | some o, .word s :: rest =>
        match applyAll (c.complete ++ [(o, some s)]) p.settings with
        | .error halt => .error halt
        | .ok settings =>
          consume g { p with settings := settings } [] rest
      | some o, _ => .error (.misuse (.missingValue o.title))

/-- What is read of the arguments of a command, from the settings that hold without options. -/
def Grammar.parse (g : Grammar σ) (settings : σ) (arguments : List String) :
    Except Halt (Parsed σ) :=
  match tokens g.options arguments with
  | .error m => .error (.misuse m)
  | .ok ts => consume g ⟨settings, none, []⟩ [] ts

end Flowchart.Options
