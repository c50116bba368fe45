import FactStream.Dictionary

/-!
# Settings

What a run can be told about how to scan a project, how to treat its files and which extensions the
languages have.
-/

namespace FactStream

/-- How a directory is scanned. -/
structure ScanSettings where
  /-- Whether ignore files count. -/
  respectIgnoreFiles : Bool := false
  /-- Whether entries with a dot in front are left out. -/
  skipHidden : Bool := false
  /-- Names of directories that are left out. -/
  excludedFolders : List String := []
  /-- Files with more bytes are skipped, if there is a limit. -/
  maxFileSize : Option Nat := none
  deriving DecidableEq, Repr

/-- What becomes of a file with a syntax error. -/
inductive ErrorTolerance where
  /-- It gives no facts. -/
  | skip
  /-- The rest of it gives facts. -/
  | tolerate
  deriving DecidableEq, Repr

/-- The word for a tolerance. -/
def ErrorTolerance.word : ErrorTolerance → String
  | skip => "skip"
  | tolerate => "tolerate"

/-- How a file is treated. -/
structure ParseSettings where
  syntaxErrors : ErrorTolerance := .skip
  /-- The greatest depth of a node that is walked. -/
  maxDepth : Nat := 1024
  deriving DecidableEq, Repr

/-- All settings. -/
structure Settings where
  scan : ScanSettings := {}
  parse : ParseSettings := {}
  /-- The level from which on notices are shown. -/
  logLevel : String := "warn"
  /-- Other file extensions for languages, by name. -/
  extensions : Dictionary (List String) := .empty
  deriving DecidableEq

end FactStream
