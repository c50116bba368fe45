import FactStream.Failure
import FactStream.Settings.Basic
import FactStream.Toml.Document

/-!
# Settings files

A settings file is a TOML document with the tables `walk`, `parse`, `log` and `languages`. What it
does not mention keeps its value, and keys that mean nothing are passed over. A value of the wrong
type spoils the whole file.
-/

namespace FactStream.Settings

/-! ## Types -/

/-- A truth value. -/
def readBool : Toml.Value → Option Bool
  | .bool b => some b
  | _ => none

/-- A text. -/
def readText : Toml.Value → Option String
  | .text s => some s
  | _ => none

/-- A number that is not negative. -/
def readCount : Toml.Value → Option Nat
  | .int i => if 0 ≤ i then some i.toNat else none
  | _ => none

/-- A list of texts. -/
def readTexts : Toml.Value → Option (List String)
  | .list items => items.mapM readText
  | _ => none

/-- The tolerance with a name. -/
def toleranceOf? : String → Option ErrorTolerance
  | "skip" => some .skip
  | "tolerate" => some .tolerate
  | _ => none

/-- A tolerance: its name, or a table with the name and nothing in it. -/
def readTolerance : Toml.Value → Option ErrorTolerance
  | .text word => toleranceOf? word
  | .table [(word, .list [])] => toleranceOf? word
  | .table [(word, .table [])] => toleranceOf? word
  | _ => none

/-! ## Sections -/

/-- The entries of a section. A list has the values of the given keys in order, and a date has none
of them. -/
def sectionEntries (keys : List String) : Toml.Value → Option (List (String × Toml.Value))
  | .table entries => some entries
  | .list items => some (keys.zip items)
  | .moment => some []
  | _ => none

/-- The value of a key, or what it is without the key. -/
def entry {α : Type} (entries : List (String × Toml.Value)) (key : String) (start : α)
    (read : Toml.Value → Option α) : Option α :=
  match entries.lookup key with
  | some v => read v
  | none => some start

/-- Reads the section for scanning. -/
def readScan (v : Toml.Value) : Option ScanSettings := do
  let start : ScanSettings := {}
  let entries ←
    sectionEntries ["respect_gitignore", "skip_hidden", "exclude_dirs", "max_file_size"] v
  pure
    { respectIgnoreFiles := ← entry entries "respect_gitignore" start.respectIgnoreFiles readBool
      skipHidden := ← entry entries "skip_hidden" start.skipHidden readBool
      excludedFolders := ← entry entries "exclude_dirs" start.excludedFolders readTexts
      maxFileSize := ← entry entries "max_file_size" start.maxFileSize fun v =>
        (readCount v).map some }

/-- Reads the section for files. -/
def readParse (v : Toml.Value) : Option ParseSettings := do
  let start : ParseSettings := {}
  let entries ← sectionEntries ["syntax_errors", "max_depth"] v
  pure
    { syntaxErrors := ← entry entries "syntax_errors" start.syntaxErrors readTolerance
      maxDepth := ← entry entries "max_depth" start.maxDepth readCount }

/-- Reads the section for notices. -/
def readLog (v : Toml.Value) : Option String := do
  let start : Settings := {}
  let entries ← sectionEntries ["level"] v
  entry entries "level" start.logLevel readText

/-- Reads the section with the extensions of languages. -/
def readExtensions : Toml.Value → Option (Dictionary (List String))
  | .table entries => do
    let lists ← entries.mapM fun e => (readTexts e.2).map fun l => (e.1, l)
    pure (.ofList lists)
  | _ => none

/-- Reads the entries of a settings file. -/
def ofEntries (entries : List (String × Toml.Value)) : Option Settings := do
  let start : Settings := {}
  pure
    { scan := ← entry entries "walk" start.scan readScan
      parse := ← entry entries "parse" start.parse readParse
      logLevel := ← entry entries "log" start.logLevel readLog
      extensions := ← entry entries "languages" start.extensions readExtensions }

/-- The settings in a file. -/
def ofBytes (bytes : ByteArray) : Except SettingsError Settings :=
  match String.fromUTF8? bytes with
  | none => throw (.unreadable .notText)
  | some text =>
    match (Toml.parse? text).bind ofEntries with
    | some settings => pure settings
    | none => throw .malformed

/-! ## Writing -/

/-- A text in quotes. -/
def quote (s : String) : String := "\"" ++ s ++ "\""

/-- A line with a key and its value. -/
def keyLine (key value : String) : String := key ++ " = " ++ value ++ "\n"

/-- The settings file that says what holds without one. -/
def defaultText : String :=
  let s : Settings := {}
  "[walk]\n" ++ keyLine "respect_gitignore" (toString s.scan.respectIgnoreFiles) ++
    keyLine "skip_hidden" (toString s.scan.skipHidden) ++ keyLine "exclude_dirs" "[]" ++
    "\n[parse]\n" ++ keyLine "syntax_errors" (quote s.parse.syntaxErrors.word) ++
    keyLine "max_depth" s.parse.maxDepth.repr ++
    "\n[log]\n" ++ keyLine "level" (quote s.logLevel) ++
    "\n[languages]\n"

end FactStream.Settings
