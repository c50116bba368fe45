import FactStream.Disk
import FactStream.Ignore.Glob
import FactStream.Text.Blank

/-!
# Ignore files

An ignore file lists globs, one in a line. A path is ignored if the last line that matches it says
so; a line with an exclamation mark takes a path back in. Directories may have a file `.ignore`,
and inside a repository also `.gitignore` and `.git/info/exclude`. The top of a repository has an
entry `.git` or `.jj`.
-/

namespace FactStream.Ignore

/-! ## Lines -/

/-- A line of an ignore file. -/
structure Line where
  glob : Glob
  /-- Whether the line takes paths back in. -/
  allows : Bool
  /-- Whether the line is for directories only. -/
  folderOnly : Bool

/-- What ignore files say about a path. -/
inductive Verdict where
  | ignored | allowed
  deriving DecidableEq, Repr

/-- A line without the blanks at its end, unless the last of them is escaped. -/
def trimLine (line : List Char) : List Char :=
  if (Text.dropEnd? ['\\', ' '] line).isSome then line else Text.trimBlankEnd line

/-- The text of the glob of a line. It matches at any depth if it has no slash but at its end, and
below a directory it does not match the directory itself. -/
def globText (anchored : Bool) (text : List Char) : List Char :=
  let starts := (Text.dropStart? ['*', '*', '/'] text).isSome || text == ['*', '*']
  let text := if anchored || text.contains '/' || starts then text else '*' :: '*' :: '/' :: text
  if (Text.dropEnd? ['/', '*', '*'] text).isSome then text ++ ['/', '*'] else text

/-- Reads a line, with the text it has without blanks at its end. Comments and empty lines say
nothing. -/
def Line.parse? (line : List Char) : Option (List Char × Except GlobError Line) :=
  let line := if line.head? = some '#' then [] else trimLine line
  if line.isEmpty then none
  else
    let (allows, anchored, text) := match line with
      | '\\' :: '!' :: rest => (false, false, '!' :: rest)
      | '\\' :: '#' :: rest => (false, false, '#' :: rest)
      | '!' :: '/' :: rest => (true, true, rest)
      | '!' :: rest => (true, false, rest)
      | '/' :: rest => (false, true, rest)
      | _ => (false, false, line)
    let (folderOnly, text) := match Text.dropEnd? ['/'] text with
      | some rest => (true, (Text.dropEnd? ['\\'] rest).getD rest)
      | none => (false, text)
    some (line, (Glob.parse (globText anchored text)).map fun glob => { glob, allows, folderOnly })

/-- The verdict of lines on a path: that of the last line that matches. -/
def judge (lines : List Line) (path : List UInt8) (isFolder : Bool) : Option Verdict :=
  (lines.reverse.find? fun l => (isFolder || !l.folderOnly) && l.glob.matches path).map fun l =>
    if l.allows then .allowed else .ignored

/-! ## Files -/

/-- The lines of a file: its text, or `none` if it is not UTF-8. -/
def textLines (bytes : ByteArray) : List (Option (List Char)) :=
  (split bytes.toList).map fun piece => (String.fromUTF8? piece.toByteArray).map fun text =>
    (Text.dropEnd? ['\r'] text.toList).getD text.toList
where
  /-- The pieces between line feeds. -/
  split : List UInt8 → List (List UInt8)
    | [] => [[]]
    | b :: rest =>
      if b = 10 then [] :: split rest
      else match split rest with
        | [] => [[b]]
        | piece :: pieces => (b :: piece) :: pieces

/-- What an ignore file says. -/
structure Listed where
  lines : List Line := []
  flaws : List Flaw := []

/-- Reads the lines of an ignore file from the one with the given number on, up to the first that is
not text. -/
def Listed.ofLines (number : Nat) : List (Option (List Char)) → Listed
  | [] => {}
  | none :: _ => { flaws := [.unreadable (some number) .notText] }
  | some line :: rest =>
    let after := ofLines (number + 1) rest
    match Line.parse? line with
    | none => after
    | some (_, .ok l) => { after with lines := l :: after.lines }
    | some (text, .error cause) =>
      { after with flaws := .badGlob number (String.ofList text) cause :: after.flaws }

/-- Reads an ignore file. A byte order mark at its start does not count, and it is no flaw that only
a part of it is text. -/
def Listed.ofBytes (bytes : ByteArray) : Listed :=
  let lines := match textLines bytes with
    | some first :: rest => some (first.dropWhile (· = '\ufeff')) :: rest
    | lines => lines
  let listed := ofLines 1 lines
  match listed.flaws with
  | [.unreadable ..] => { listed with flaws := [] }
  | _ => listed

/-! ## Directories -/

/-- The first line of a file, if it has one: its text, or `none` if it is not UTF-8. -/
def firstLine? (bytes : ByteArray) : Option (Option String) :=
  if bytes.isEmpty then none
  else (textLines bytes).head?.map fun line => line.map String.ofList

/-- The directory of a repository whose `.git` is a file. That file, at `path`, names a directory,
and a file `commondir` there names the directory that is asked for. -/
def sharedFolder? (disk : Disk) (path : String) (bytes : ByteArray) :
    Except Fault (Option String) :=
  match firstLine? bytes with
  | none => .ok none
  | some none => .error ⟨path, .unreadable none .notText⟩
  | some (some line) =>
    match Text.dropStart? "gitdir: ".toList line.toList with
    | none => .ok none
    | some named =>
      let folder := String.ofList named
      let path := Path.join folder "commondir"
      match disk.locateFromWork path with
      | .error _ => .ok none
      | .ok (.folder ..) => .error ⟨path, .unreadable none .isDirectory⟩
      | .ok (.file content) =>
        match firstLine? content.bytes with
        | none => .ok none
        | some none => .error ⟨path, .unreadable none .notText⟩
        | some (some common) =>
          .ok (some (if common.startsWith "." then Path.join folder common else common))

/-- The ignore rules of a directory. -/
structure FolderRules where
  /-- The number of components from the top of the disk to the directory. -/
  depth : Nat
  /-- How the directory is written, in bytes, if it is one of those that are scanned. -/
  written : Option (List UInt8)
  /-- The lines of `.ignore`. -/
  plain : List Line
  /-- The lines of `.gitignore`. -/
  git : List Line
  /-- The lines of `.git/info/exclude`. -/
  exclude : List Line
  /-- Whether the directory is the top of a repository. -/
  repository : Bool
  /-- What is wrong in the files. -/
  faults : List Fault

/-- The ignore rules of a directory on a disk, with those above it. -/
def FolderRules.of (disk : Disk) (written : Option (List UInt8)) (here : Directory)
    (above : List Directory) : FolderRules :=
  let way := ((here :: above).reverse.map (·.name.text)).drop 1
  let called (path : String) : String := Text.join "/" (disk.location :: way ++ [path])
  let find (path : String) : Except ReadError Place :=
    Place.follow maxLinks (.folder here above) (Path.parts path)
  let listed (found : Except ReadError Place) (path : String) : List Line × List Fault :=
    match found with
    | .ok (.file content) =>
      let l := Listed.ofBytes content.bytes
      (l.lines, l.flaws.map fun flaw => ⟨path, flaw⟩)
    | _ => ([], [])
  let plain := listed (find ".ignore") (called ".ignore")
  let git := listed (find ".gitignore") (called ".gitignore")
  let exclude : List Line × List Fault :=
    match find ".git" with
    | .ok (.folder ..) => listed (find ".git/info/exclude") (called ".git/info/exclude")
    | .ok (.file content) =>
      match sharedFolder? disk (called ".git") content.bytes with
      | .ok (some folder) =>
        let path := Path.join folder "info/exclude"
        listed (disk.locateFromWork path) path
      | .ok none => ([], [])
      | .error fault => ([], [fault])
    | .error _ => ([], [])
  { depth := above.length
    written := written.map Path.dropDot
    plain := plain.1
    git := git.1
    exclude := exclude.1
    repository := (find ".git").isOk || (find ".jj").isOk
    faults := plain.2 ++ git.2 ++ exclude.2 }

/-! ## Verdicts -/

/-- An entry that is judged. -/
structure Candidate where
  /-- The components of its path from the top of the disk. -/
  components : List FileName
  /-- Its path as written from the directory on that is scanned, in bytes. -/
  written : List UInt8
  isFolder : Bool

/-- The path of a candidate as seen from a directory above it, in bytes. -/
def FolderRules.sees (r : FolderRules) (c : Candidate) : List UInt8 :=
  match r.written with
  | some folder => Path.below folder (Path.dropDot (Path.dropDot c.written))
  | none => [47].intercalate ((c.components.drop r.depth).map (·.bytes))

/-- The first verdict of directories, from the innermost out. -/
def firstVerdict (rules : List FolderRules) (lines : FolderRules → List Line) (c : Candidate) :
    Option Verdict :=
  rules.findSome? fun r => judge (lines r) (r.sees c) c.isFolder

/-- The directories up to and with the first that is the top of a repository; none if there is no
repository. -/
def inRepository (rules : List FolderRules) : List FolderRules :=
  if rules.any (·.repository) then
    rules.takeWhile (!·.repository) ++ (rules.find? (·.repository)).toList
  else []

/-- What the rules of the directories above a candidate say about it, the innermost directory first.
The three kinds of files are asked one after the other. -/
def verdict (rules : List FolderRules) (c : Candidate) : Option Verdict :=
  let here := inRepository rules
  ((firstVerdict rules (·.plain) c).or (firstVerdict here (·.git) c)).or
    (firstVerdict here (·.exclude) c)

end FactStream.Ignore
