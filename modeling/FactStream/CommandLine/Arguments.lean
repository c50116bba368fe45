import FactStream.Dictionary

/-!
# Arguments

The arguments of the command line. Options have a value, after an equals sign or as the next
argument; they may stand anywhere before a double dash. The options `--config` and `--log-level`
may be given to the program and to its commands, and those of a command win.

A value that is an argument of its own is checked only when the next option or word of the same form
comes, or at the end. So help on a command can be had after a bad option of the program.
-/

namespace FactStream.CommandLine

/-- What the program is asked to do. -/
inductive Command where
  /-- Write the facts of a project. -/
  | parseProject (language trunkKey base : String) (files : List String)
  /-- Write the changes of the properties of a fact. -/
  | replaceProperties (fact : String) (properties : List String)
  /-- List the languages. -/
  | languages
  deriving DecidableEq, Repr

/-- A command with the options of the program. -/
structure Invocation where
  config : Option String
  logLevel : Option String
  command : Command
  deriving DecidableEq, Repr

/-- What a text of help is about. -/
inductive Topic where
  | program | parseProject | replaceProperties | languages | help
  deriving DecidableEq, Repr

/-- Why there is no command to run. -/
inductive Stop where
  /-- The arguments make no sense. -/
  | usage
  /-- Help is asked for. -/
  | help (topic : Topic)
  deriving DecidableEq, Repr

/-- What the arguments say so far. -/
structure Given where
  options : Dictionary String := .empty
  /-- The last option, if its value is still to be checked. -/
  pending : Option (String × String) := none
  words : List String := []

/-- A kind of arguments: those of the program, or those of a command. -/
structure Form where
  topic : Topic
  /-- The names of its options. -/
  options : List String
  /-- Whether a word makes sense after some others. -/
  word : List String → String → Bool

/-! ## Reading -/

/-- Takes in an option. It must not come twice, and the name of a settings file is not empty. -/
def Given.addOption (given : Given) (name value : String) : Except Stop Given :=
  if (given.options.get? name).isSome || (name == "config" && value == "") then throw .usage
  else pure { given with options := given.options.insert name value }

/-- Checks the value of the last option. -/
def Given.settle (given : Given) : Except Stop Given :=
  match given.pending with
  | none => pure given
  | some (name, value) => { given with pending := none }.addOption name value

/-- Takes in a word. -/
def Given.addWord (form : Form) (given : Given) (word : String) : Except Stop Given :=
  if form.word given.words word then pure { given with words := given.words ++ [word] }
  else throw .usage

/-- Whether an argument looks like an option. -/
def isFlag (arg : String) : Bool :=
  arg.toList.head? == some '-' && arg != "-"

/-- An argument. -/
inductive Argument where
  | word
  /-- A double dash, after which all arguments are words. -/
  | dash
  | long (name : String) (value : Option String)
  | short (letters : List Char)

/-- The kind of an argument. -/
def Argument.of (arg : String) : Argument :=
  match arg.toList with
  | ['-', '-'] => .dash
  | '-' :: '-' :: rest =>
    let name := String.ofList (rest.takeWhile (· ≠ '='))
    match rest.dropWhile (· ≠ '=') with
    | [] => .long name none
    | _ :: value => .long name (some (String.ofList value))
  | '-' :: c :: rest => .short (c :: rest)
  | _ => .word

/-- Reads arguments one after the other. The last option may be left unchecked. With `stopAtWord`,
the first word and what follows it are left. -/
def Form.read (form : Form) (stopAtWord : Bool) :
    List String → Given → Except Stop (Given × List String)
  | [], given => pure (given, [])
  | arg :: rest, given =>
    match Argument.of arg with
    | .dash => do pure (← rest.foldlM (Given.addWord form) (← given.settle), [])
    | .short letters => do
      let _ ← given.settle
      throw (if letters.head? = some 'h' then .help form.topic else .usage)
    | .long name (some value) =>
      if form.options.contains name then do
        form.read stopAtWord rest (← (← given.settle).addOption name value)
      else throw .usage
    | .long name none =>
      if form.options.contains name then
        match rest with
        | [] => throw .usage
        | value :: rest =>
          if isFlag value then throw .usage
          else do
            form.read stopAtWord rest { ← given.settle with pending := some (name, value) }
      else do
        let _ ← given.settle
        throw (if name = "help" then .help form.topic else .usage)
    | .word =>
      if stopAtWord then pure (given, arg :: rest)
      else do form.read stopAtWord rest (← (← given.settle).addWord form arg)

/-! ## Commands -/

/-- The options that the program and all commands have. -/
def sharedOptions : List String := ["config", "log-level"]

/-- The arguments of the program before the command. -/
def programForm : Form where
  topic := .program
  options := sharedOptions
  word _ _ := false

/-- The arguments of a command. The directory of a project is not empty. -/
def commandForm : Topic → Form
  | .program => programForm
  | .parseProject =>
    { topic := .parseProject
      options := "lang" :: sharedOptions
      word := fun before word => !(before.length == 1 && word == "") }
  | .replaceProperties =>
    { topic := .replaceProperties, options := sharedOptions, word := fun _ _ => true }
  | .languages => { topic := .languages, options := sharedOptions, word := fun _ _ => false }
  | .help => { topic := .help, options := [], word := fun _ _ => true }

/-- The command with a name. -/
def topicOf : String → Option Topic
  | "parse-project" => some .parseProject
  | "replace-properties" => some .replaceProperties
  | "languages" => some .languages
  | _ => none

/-- A command of what was given to it. -/
def commandOf (topic : Topic) (given : Given) : Except Stop Command :=
  match topic, given.options.get? "lang", given.words with
  | .parseProject, some language, trunkKey :: base :: files =>
    pure (.parseProject language trunkKey base files)
  | .replaceProperties, _, fact :: properties => pure (.replaceProperties fact properties)
  | .languages, _, [] => pure .languages
  | _, _, _ => throw .usage

/-- Help on a command by name; without a name, on the program. -/
def helpOn : List String → Stop
  | [] => .help .program
  | [name] =>
    match topicOf name with
    | some topic => .help topic
    | none => if name = "help" then .help .help else .usage
  | _ => .usage

/-- Reads the arguments of the program. -/
def parse (args : List String) : Except Stop Invocation := do
  let (before, rest) ← programForm.read true args {}
  match rest with
  | [] => throw .usage
  | name :: rest =>
    if name = "help" then throw (helpOn rest)
    match topicOf name with
    | none => throw .usage
    | some topic =>
      let (given, _) ← (commandForm topic).read false rest {}
      let given ← given.settle
      let command ← commandOf topic given
      let before ← before.settle
      let option (name : String) : Option String :=
        (given.options.get? name).or (before.options.get? name)
      pure { config := option "config", logLevel := option "log-level", command }

/-! ## Help -/

/-- The line on the settings file. -/
def configHelp : String :=
  "      --config <CONFIG>        Configuration file (defaults to ./astfacts.toml, then " ++
    "the user config)\n"

/-- The line on the level of notices. -/
def levelHelp : String :=
  "      --log-level <LOG_LEVEL>  Log level used when RUST_LOG is unset (error, warn, " ++
    "info, debug, trace)\n"

/-- The line on help itself. -/
def helpHelp : String := "  -h, --help                   Print help\n"

/-- The text of help. -/
def helpText : Topic → String
  | .program =>
    "Emit keyed syntax-tree facts for a C#, PHP or TypeScript/JavaScript project\n\n" ++
    "Usage: astfacts [OPTIONS] <COMMAND>\n\n" ++
    "Commands:\n" ++
    "  parse-project       Parse a project directory and write its facts as NDJSON to stdout\n" ++
    "  replace-properties  Compute property deltas for a fact (`name value` pairs)\n" ++
    "  languages           List the supported languages and their extensions\n" ++
    "  help                Print this message or the help of the given subcommand(s)\n\n" ++
    "Options:\n" ++ configHelp ++ levelHelp ++ helpHelp
  | .parseProject =>
    "Parse a project directory and write its facts as NDJSON to stdout\n\n" ++
    "Usage: astfacts parse-project [OPTIONS] --lang <LANG> <TRUNK_KEY> <BASE_DIR> [FILES]...\n\n" ++
    "Arguments:\n" ++
    "  <TRUNK_KEY>  Key prefix for this run, `<int>` or `<int>_<int>`\n" ++
    "  <BASE_DIR>   Project root\n" ++
    "  [FILES]...   Restrict the run to these files, relative to the project root\n\n" ++
    "Options:\n" ++ configHelp ++
    "      --lang <LANG>            Front end: csharp, php or ts (aliases accepted)\n" ++
    levelHelp ++ helpHelp
  | .replaceProperties =>
    "Compute property deltas for a fact (`name value` pairs)\n\n" ++
    "Usage: astfacts replace-properties [OPTIONS] <FACT> [PROPERTIES]...\n\n" ++
    "Arguments:\n" ++
    "  <FACT>           Fact name\n" ++
    "  [PROPERTIES]...  Alternating property names and values\n\n" ++
    "Options:\n" ++ configHelp ++ levelHelp ++ helpHelp
  | .languages =>
    "List the supported languages and their extensions\n\n" ++
    "Usage: astfacts languages [OPTIONS]\n\n" ++
    "Options:\n" ++ configHelp ++ levelHelp ++ helpHelp
  | .help =>
    "Print this message or the help of the given subcommand(s)\n\n" ++
    "Usage: astfacts help [COMMAND]...\n\n" ++
    "Arguments:\n" ++
    "  [COMMAND]...  Print help for the subcommand(s)\n"

end FactStream.CommandLine
