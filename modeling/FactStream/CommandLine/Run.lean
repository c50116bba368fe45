import FactStream.CommandLine.Arguments
import FactStream.LogFilter
import FactStream.Project
import FactStream.PropertyRule
import FactStream.Registry
import FactStream.Settings.Load
import FactStream.Wire

/-!
# Running the command line

What a command writes, what it reports and the code it exits with. What was written before a command
fails stays written.
-/

namespace FactStream.CommandLine

/-- What the program finds around it. -/
structure World where
  /-- The working directory. -/
  disk : Disk
  environment : Settings.Environment := .empty
  /-- The settings file of the user. -/
  userFile : Except ReadError ByteArray := .error .notFound
  /-- How the log reads what is to be shown. -/
  readFilter : String → Option LogFilter := LogFilter.parse?

/-- How the program ends. -/
structure Result where
  exitCode : Nat := 0
  /-- What goes to standard output. -/
  output : String := ""
  /-- What is told on the way. -/
  notices : List Notice := []
  /-- Which notices are shown. -/
  log : LogFilter := .atLeast .warn
  /-- What is reported as an error. -/
  reports : List String := []

/-- What goes to standard error: the notices that are shown, and then what is reported. -/
def Result.messages (r : Result) : List String :=
  (r.notices.filter r.log.passes).map (·.text) ++ r.reports

/-- The settings that an invocation asks for. -/
def settings (world : World) (config : Option String) : Except SettingsError Settings :=
  match config with
  | some path => Settings.ofReadFile (world.disk.read path) world.environment
  | none => Settings.load [world.disk.read Settings.projectFile, world.userFile] world.environment

/-- A text filled up with blanks to a width. -/
def padded (width : Nat) (s : String) : String :=
  s ++ String.ofList (List.replicate (width - s.length) ' ')

/-- The line of a language in the list of languages. -/
def languageLine (registry : Registry) (language : Language) : String :=
  padded 8 language.nameSpace ++ " " ++ padded 24 language.title ++ " " ++
    Text.join ", " (registry.extensionsOf language.nameSpace) ++ "\n"

/-- Which notices are shown: what the environment asks for, or else the level that is given, or else
warnings. A text that cannot be read is passed over. -/
def logFilter (world : World) (level : String) : LogFilter :=
  (((world.environment.get? "RUST_LOG").bind world.readFilter).or (world.readFilter level)).getD
    (.atLeast .warn)

/-- What comes of a command: what it has written and told, and why it failed if it did. -/
structure Outcome where
  output : String := ""
  notices : List Notice := []
  failure : Option Failure := none

/-- Runs a command. -/
def runCommand (world : World) (settings : Settings) (command : Command) : Outcome :=
  let registry := Registry.withExtensions settings.extensions
  match command with
  | .languages => { output := String.join (registry.languages.map (languageLine registry)) }
  | .replaceProperties fact properties =>
    let (changes, notices) := PropertyRule.changes fact properties
    let list : Json := .list (changes.map PropertyChange.json)
    { output := String.ofList (list.render ++ ['\n']), notices }
  | .parseProject name trunkKey base files =>
    match registry.find? name with
    | none => { failure := some (.unknownLanguage name) }
    | some language =>
      let plan : RunPlan := { language, settings, selected := files }
      let done := plan.run .records world.disk base trunkKey {}
      { output := done.sink.text
        notices := done.notices
        failure := match done.result with
          | .ok _ => none
          | .error failure => some failure }

/-- Runs the program with its arguments. -/
def run (world : World) (args : List String) : Result :=
  match parse args with
  | .error .usage => { exitCode := 2 }
  | .error (.help topic) => { output := helpText topic }
  | .ok invocation =>
    match settings world invocation.config with
    | .error e => { exitCode := 1, reports := ["Error: " ++ e.message] }
    | .ok settings =>
      let log := logFilter world (invocation.logLevel.getD settings.logLevel)
      let done := runCommand world settings invocation.command
      match done.failure with
      | none => { output := done.output, notices := done.notices, log }
      | some failure =>
        { exitCode := 1
          output := done.output
          notices := done.notices ++ [.failed failure.message]
          log
          reports := ["Error: " ++ failure.message] }

end FactStream.CommandLine
