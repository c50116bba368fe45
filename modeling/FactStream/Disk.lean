import FactStream.Failure
import FactStream.FileName
import FactStream.Tree.Node

/-!
# The files of a project

A `Disk` is a directory with all that is below it. A source file comes with the syntax tree that a
parser makes of it. The entries of a directory stand in no particular order. A path may lead through
symbolic links.
-/

namespace FactStream

/-- The content of a file. -/
structure SourceFile where
  bytes : ByteArray := .empty
  /-- The syntax tree of the text, if the file was parsed. -/
  tree : Option Node := none

/-- The text of a file, if it is UTF-8. -/
def SourceFile.text? (file : SourceFile) : Option String :=
  String.fromUTF8? file.bytes

/-- An entry of a directory. -/
inductive Entry where
  | file (name : FileName) (content : SourceFile)
  | folder (name : FileName) (entries : List Entry)
  /-- A symbolic link to the path `target`, seen from the directory of the link. -/
  | link (name : FileName) (target : String)

namespace Entry

/-- The name of an entry. -/
def name : Entry → FileName
  | file name _ | folder name _ | link name _ => name

/-- What an entry is, without its name and without what is below it. -/
inductive Item where
  | file (content : SourceFile)
  | folder
  | link

/-- The entry with a name. -/
def find? (entries : List Entry) (name : FileName) : Option Entry :=
  entries.find? fun e => e.name == name

/-! ## Building -/

/-- Puts an entry at the end of a way through directories, which are made if they are not there.
The entry takes the place of one with the same name; a directory does not replace another. -/
def put (way : List FileName) (entry : Entry) (entries : List Entry) : List Entry :=
  match way with
  | [] =>
    match entry, find? entries entry.name with
    | .folder _ [], some (.folder ..) => entries
    | _, _ => entries.filter (fun e => e.name != entry.name) ++ [entry]
  | name :: rest =>
    let inner := match find? entries name with
      | some (.folder _ inner) => inner
      | _ => []
    entries.filter (fun e => e.name != name) ++ [.folder name (put rest entry inner)]

end Entry

/-- A directory on the way from the top of a disk. -/
structure Directory where
  name : FileName
  entries : List Entry

/-- What a path leads to: a file, or a directory with those above it. -/
inductive Place where
  | file (content : SourceFile)
  | folder (here : Directory) (above : List Directory)

/-- Goes along a path, following at most `links` symbolic links. Nothing leads above the top, and
nothing to an absolute path. -/
def Place.follow (links : Nat) (place : Place) (parts : List String) : Except ReadError Place :=
  match parts with
  | [] => .ok place
  | part :: rest =>
    match place with
    | .file _ => .error .blocked
    | .folder here above =>
      if part = "" ∨ part = "." then Place.follow links (.folder here above) rest
      else if part = ".." then
        match above with
        | [] => Place.follow links (.folder here []) rest
        | parent :: above => Place.follow links (.folder parent above) rest
      else if 255 < part.utf8ByteSize then .error .tooLong
      else match Entry.find? here.entries part with
        | none => .error .notFound
        | some (.file _ content) => Place.follow links (.file content) rest
        | some (.folder name entries) =>
          Place.follow links (.folder ⟨name, entries⟩ (here :: above)) rest
        | some (.link _ target) =>
          match links, Path.parts target with
          | 0, _ => .error .tooManyLinks
          | _, "" :: _ => .error .notFound
          | links + 1, way => Place.follow links (.folder here above) (way ++ rest)
termination_by (links, parts.length)

/-- The number of symbolic links that are followed on a path. -/
def maxLinks : Nat := 40

/-- A directory with all that is below it. -/
structure Disk where
  /-- How the directory is called in messages; nothing for the working directory. -/
  title : String := ""
  /-- The absolute path of the directory. -/
  location : String := ""
  entries : List Entry

namespace Disk

/-- Goes one component further in some entries, at the end of a way from the top. A directory that
is not there is made. -/
def enter (found : List FileName × List Entry) (part : String) : List FileName × List Entry :=
  let (way, entries) := found
  match part with
  | "" | "." => (way, entries)
  | ".." => (way.dropLast, entries)
  | name => (way ++ [.ofText name], Entry.put way (.folder name []) entries)

/-- Adds a directory at a path, with those on the way. -/
def addFolder (disk : Disk) (path : String) : Disk :=
  { disk with entries := ((Path.parts path).foldl enter ([], disk.entries)).2 }

/-- Adds an entry at a path, with the directories on the way. -/
def add (disk : Disk) (path : String) (entry : FileName → Entry) : Disk :=
  match (Path.parts path).getLast? with
  | none => disk
  | some name =>
    let (way, entries) := (Path.parts path).dropLast.foldl enter ([], disk.entries)
    { disk with entries := Entry.put way (entry name) entries }

/-- How a path is called in messages. -/
def shown (disk : Disk) (path : String) : String :=
  if disk.title = "" then path else disk.title ++ "/" ++ path

/-- What a path leads to. The empty path leads nowhere. -/
def locate (disk : Disk) (path : String) : Except ReadError Place :=
  if path.contains '\x00' then .error .badName
  else if disk.shown path = "" then .error .notFound
  else Place.follow maxLinks (.folder ⟨"", disk.entries⟩ []) (Path.parts path)

/-- What a path leads to from the working directory, as far as that is on the disk. -/
def locateFromWork (disk : Disk) (path : String) : Except ReadError Place :=
  if disk.title = "" ∧ !path.startsWith "/" then disk.locate path else .error .notFound

/-- The bytes of the file at a path. -/
def read (disk : Disk) (path : String) : Except ReadError ByteArray := do
  match ← disk.locate path with
  | .file content => pure content.bytes
  | .folder .. => throw .isDirectory

end Disk

end FactStream
