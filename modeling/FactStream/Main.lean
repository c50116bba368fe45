import FactStream.CommandLine.Listing
import FactStream.CommandLine.Run

/-!
# The command line program

Runs a command on the workspace that is listed on standard input. The facts go to standard output,
all else to standard error.
-/

namespace FactStream.CommandLine

/-- The rest of a stream. -/
partial def readRest (stream : IO.FS.Stream) (sofar : String := "") : IO String := do
  let line ← stream.getLine
  if line.isEmpty then pure sofar else readRest stream (sofar ++ line)

/-- The variables that count. -/
def variableNames : List String :=
  ["ASTFACTS_SYNTAX_ERRORS", "ASTFACTS_MAX_DEPTH", "ASTFACTS_MAX_FILE_SIZE", "ASTFACTS_LOG_LEVEL",
   "RUST_LOG"]

/-- The settings of the environment. -/
def readEnvironment : IO Settings.Environment :=
  variableNames.foldlM (fun environment name => do
    match ← IO.getEnv name with
    | some value => pure (environment.insert name value)
    | none => pure environment) .empty

/-- The settings file of the user. -/
def readUserFile : IO (Except ReadError ByteArray) := do
  let home := (← IO.getEnv "HOME").map (· ++ "/.config")
  match (← IO.getEnv "XDG_CONFIG_HOME").or home with
  | none => pure (.error .notFound)
  | some folder =>
    try pure (.ok (← IO.FS.readBinFile (folder ++ "/astfacts/config.toml")))
    catch _ => pure (.error .notFound)

end FactStream.CommandLine

open FactStream in
/-- Runs the program. -/
def main (args : List String) : IO UInt32 := do
  match CommandLine.Listing.read? (← CommandLine.readRest (← IO.getStdin)) with
  | none =>
    IO.eprintln "Error: the listing of the workspace cannot be read"
    pure 1
  | some disk =>
    let world : CommandLine.World :=
      { disk := { disk with location := (← IO.getEnv "PWD").getD "" }
        environment := ← CommandLine.readEnvironment
        userFile := ← CommandLine.readUserFile }
    let result := CommandLine.run world args
    IO.print result.output
    for message in result.messages do
      IO.eprintln message
    pure result.exitCode.toUInt32
