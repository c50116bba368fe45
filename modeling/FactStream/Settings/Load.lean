import FactStream.Disk
import FactStream.Number.Integer
import FactStream.Settings.File
import FactStream.Text.Ascii

/-!
# Loading settings

The settings come from one file, or from none, and environment variables win over it. Without a
file given, that of the project counts, and without one that of the user.
-/

namespace FactStream.Settings

/-- The environment variables. -/
abbrev Environment := Dictionary String

/-- The settings file of a project. -/
def projectFile : String := "astfacts.toml"

/-- A number of 64 bits in a variable. -/
def readVariable (value : String) : Option Nat :=
  Number.readBelow? (Nat.pow 2 64) 10 value.toList

/-- The settings with those of the environment. A number that cannot be read is passed over, a
tolerance that does not exist is not. -/
def withEnvironment (settings : Settings) (environment : Environment) :
    Except SettingsError Settings := do
  let tolerance ← match environment.get? "ASTFACTS_SYNTAX_ERRORS" with
    | none => pure settings.parse.syntaxErrors
    | some given =>
      let word := Text.lowerAsciiText given
      match toleranceOf? word with
      | some tolerance => pure tolerance
      | none => throw (.unknownTolerance word)
  let depth := (environment.get? "ASTFACTS_MAX_DEPTH").bind readVariable
  let size := (environment.get? "ASTFACTS_MAX_FILE_SIZE").bind readVariable
  let level := environment.get? "ASTFACTS_LOG_LEVEL"
  pure
    { settings with
      scan := { settings.scan with maxFileSize := size.or settings.scan.maxFileSize }
      parse := { syntaxErrors := tolerance, maxDepth := depth.getD settings.parse.maxDepth }
      logLevel := level.getD settings.logLevel }

/-- The settings of a file that could be read or not, with those of the environment. -/
def ofReadFile (file : Except ReadError ByteArray) (environment : Environment) :
    Except SettingsError Settings :=
  match file with
  | .error cause => throw (.unreadable cause)
  | .ok bytes => do (← ofBytes bytes).withEnvironment environment

/-- The settings of the first of some files that is there, or those without a file. -/
def load (files : List (Except ReadError ByteArray)) (environment : Environment) :
    Except SettingsError Settings :=
  let isThere (file : Except ReadError ByteArray) : Bool := match file with
    | .error cause => !cause.findsNothing
    | .ok _ => true
  match files.find? isThere with
  | some file => ofReadFile file environment
  | none => ({} : Settings).withEnvironment environment

end FactStream.Settings
