import FactStream.Ignore.Fault
import FactStream.ReadError
import FactStream.Sink
import FactStream.Text.Slice

/-!
# Failures

Why a run failed, and the wording of it.
-/

namespace FactStream

/-- Why there are no settings. -/
inductive SettingsError where
  /-- The settings file cannot be read. -/
  | unreadable (cause : ReadError)
  /-- The settings file is not TOML, or a value in it has the wrong type. -/
  | malformed
  /-- There is no such way to treat syntax errors. -/
  | unknownTolerance (given : String)
  deriving DecidableEq, Repr

/-- The wording of a settings error. -/
def SettingsError.message : SettingsError → String
  | unreadable cause => "Failed to read config file: " ++ cause.message
  | malformed => "Failed to parse config file"
  | unknownTolerance given =>
    "Invalid configuration: syntax_errors must be \"skip\" or \"tolerate\", got \"" ++ given ++
      "\""

/-- Why a run failed. -/
inductive Failure where
  /-- The trunk key is neither a number nor two numbers with an underscore between them. -/
  | badTrunk (trunkKey : String)
  /-- The project directory or a file of it cannot be read. -/
  | unreadable (path : String) (cause : ReadError)
  /-- The project directory cannot be scanned. -/
  | unscannable (path : String) (cause : ReadError)
  /-- There are faults in the ignore files above the project directory. -/
  | faultyIgnoreFiles (faults : List Ignore.Fault)
  /-- No language has the name. -/
  | unknownLanguage (name : String)
  /-- The sink refused a fact. -/
  | refused (r : Refusal)
  /-- There are no settings. -/
  | settings (e : SettingsError)
  deriving DecidableEq, Repr

/-- The wording of a refusal. -/
def Refusal.message : Refusal → String
  | emit message => "Failed to emit fact: " ++ message
  | record message => "JSON serialization error: " ++ message

/-- The wording of a failure. -/
def Failure.message : Failure → String
  | badTrunk trunkKey => "invalid trunk key format: " ++ trunkKey
  | unreadable path cause => "IO error at " ++ path ++ ": " ++ cause.message
  | unscannable path cause =>
    "Directory walk failed at " ++ path ++ ": " ++ path ++ ": IO error for operation on " ++ path ++
      ": " ++ cause.message
  | faultyIgnoreFiles faults =>
    let place := match faults with
      | [fault] => fault.path
      | _ => ""
    "Directory walk failed at " ++ place ++ ": " ++ Text.join "\n" (faults.map (·.message))
  | unknownLanguage name => "Unknown language: " ++ name
  | refused r => r.message
  | settings e => e.message

end FactStream
