import FactStream.Disk
import FactStream.Ignore.Rules
import FactStream.Path
import FactStream.Settings.Basic
import FactStream.Text.Ascii

/-!
# Scanning a directory

A scan comes upon the entries below a base directory, one after the other. It keeps the directories
and those files that have one of some extensions. What it keeps is sorted by the names as they are
shown, whatever the order of the entries on the disk.
-/

namespace FactStream

/-- A scanned directory: its directories and its files, both sorted by name. -/
structure Folder where
  folders : List (String × Folder) := []
  files : Dictionary SourceFile := .empty

namespace Folder

instance : Inhabited Folder := ⟨{}⟩

mutual

/-- The number of files in a directory and below. -/
def countFiles : Folder → Nat
  | ⟨folders, files⟩ => files.entries.length + countAll folders

/-- The number of files in some directories. -/
def countAll : List (String × Folder) → Nat
  | [] => 0
  | (_, folder) :: rest => folder.countFiles + countAll rest

end

/-- Changes the directory at the end of a way. Directories that are not there are made. -/
def changeAt (change : Folder → Folder) : List String → Folder → Folder
  | [], here => change here
  | name :: rest, here =>
    let inner := (here.folders.lookup name).getD {}
    { here with folders := Dictionary.place name (changeAt change rest inner) here.folders }

/-- Puts a file in a directory, in the place of one with the same name. -/
def putFile (name : String) (content : SourceFile) (here : Folder) : Folder :=
  { here with files := here.files.insert name content }

end Folder

/-- What is kept in a scan. -/
structure ScanFilter where
  extensions : List String
  settings : ScanSettings

/-- Where a scan is: a directory with those above it and their ignore rules, the innermost first. -/
structure ScanPosition where
  disk : Disk
  /-- How the directory is written, in bytes. -/
  written : List UInt8
  here : Directory
  above : List Directory
  rules : List Ignore.FolderRules

namespace ScanPosition

/-- The names from the top of the disk. -/
def way (position : ScanPosition) : List FileName :=
  ((position.here :: position.above).reverse.map (·.name)).drop 1

/-- The ignore rules of directories that lie above those scanned, the innermost first. -/
def rulesAbove (disk : Disk) : List Directory → List Ignore.FolderRules
  | [] => []
  | here :: above => .of disk none here above :: rulesAbove disk above

/-- The position at the start, in a directory with those above it. -/
def start (disk : Disk) (path : String) (here : Directory) (above : List Directory) :
    ScanPosition where
  disk
  written := path.toUTF8.toList
  here
  above
  rules := .of disk path.toUTF8.toList here above :: rulesAbove disk above

/-- The position in an inner directory. -/
def enter (position : ScanPosition) (name : FileName) (entries : List Entry) : ScanPosition :=
  let written := Path.enter position.written name.bytes
  let here : Directory := ⟨name, entries⟩
  let above := position.here :: position.above
  { disk := position.disk
    written
    here
    above
    rules := .of position.disk written here above :: position.rules }

/-- An entry at a position. -/
def candidate (position : ScanPosition) (name : FileName) (isFolder : Bool) :
    Ignore.Candidate where
  components := position.way ++ [name]
  written := Path.enter position.written name.bytes
  isFolder

end ScanPosition

namespace ScanFilter

/-- Whether a name starts with a dot. -/
def isHidden (name : FileName) : Bool :=
  name.pieces.head? == some (.char '.')

/-- Whether an entry is kept by the settings. An ignore rule that takes it back in also keeps it if
it is hidden. -/
def admits (c : ScanFilter) (here : ScanPosition) (name : FileName) (isFolder : Bool) : Bool :=
  let verdict :=
    if c.settings.respectIgnoreFiles then Ignore.verdict here.rules (here.candidate name isFolder)
    else none
  let kept := match verdict with
    | some .ignored => false
    | some .allowed => true
    | none => !(c.settings.skipHidden && isHidden name)
  kept && !(isFolder && c.settings.excludedFolders.contains name.text)

/-- Whether a file name has one of the extensions, in any case. -/
def endsWithExtension (extensions : List String) (name : FileName) : Bool :=
  name.extension?.any fun e => extensions.any fun a => Text.equalIgnoringAsciiCase a e

mutual

/-- What a scan comes upon at an entry and below it, each with the names on the way to it. -/
def found (c : ScanFilter) (here : ScanPosition) (way : List FileName) :
    Entry → List (List FileName × Entry.Item)
  | .file name content =>
    if c.admits here name false then [(way ++ [name], .file content)] else []
  | .folder name entries =>
    if c.admits here name true then
      (way ++ [name], .folder) :: c.foundAll (here.enter name entries) (way ++ [name]) entries
    else []
  | .link name _ => if c.admits here name false then [(way ++ [name], .link)] else []

/-- What a scan comes upon in a directory, in the order of the entries. -/
def foundAll (c : ScanFilter) (here : ScanPosition) (way : List FileName) :
    List Entry → List (List FileName × Entry.Item)
  | [] => []
  | e :: rest => c.found here way e ++ c.foundAll here way rest

end

/-- Adds what is at the end of a way to a tree, with the directories on the way that are not there.
A file without one of the extensions is left out, and so is a link. -/
def add (c : ScanFilter) (tree : Folder) (found : List FileName × Entry.Item) : Folder :=
  let texts := found.1.map (·.text)
  match found.2 with
  | .folder => tree.changeAt id texts
  | .file content =>
    match found.1.getLast? with
    | some name =>
      if endsWithExtension c.extensions name then
        tree.changeAt (.putFile name.text content) texts.dropLast
      else tree
    | none => tree
  | .link => tree

/-- Scans the directory at a position. -/
def scanDirectory (c : ScanFilter) (position : ScanPosition) : Folder :=
  (c.foundAll position [] position.here.entries).foldl c.add {}

/-- The faults of the ignore files in the directories above, the outermost first. They count only if
ignore files do. -/
def faults (c : ScanFilter) (disk : Disk) (above : List Directory) : List Ignore.Fault :=
  if c.settings.respectIgnoreFiles then
    (ScanPosition.rulesAbove disk above).reverse.flatMap (·.faults)
  else []

/-- Scans the directory that was found at a path. At a dash there is nothing to scan, and there must
be no faults in the ignore files above. -/
def scanFound (c : ScanFilter) (disk : Disk) (path : String) (here : Directory)
    (above : List Directory) : Except Failure Folder :=
  if Path.isDash (disk.shown path) then .ok {}
  else
    match c.faults disk above with
    | [] => .ok (c.scanDirectory (.start disk (disk.shown path) here above))
    | faults => .error (.faultyIgnoreFiles faults)

/-- Scans the directory at a path. At the path of a file there is nothing to scan. -/
def scan (c : ScanFilter) (disk : Disk) (path : String) : Except Failure Folder :=
  match disk.locate path with
  | .ok (.folder here above) => c.scanFound disk path here above
  | .ok (.file _) => .ok {}
  | .error cause => .error (.unscannable (disk.shown path) cause)

end ScanFilter

end FactStream
