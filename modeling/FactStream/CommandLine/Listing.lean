import FactStream.Disk
import FactStream.Number.Integer
import FactStream.Text.Escape

/-!
# Listings of a workspace

A parser outside of this library lists the files of a workspace with their syntax trees, one record
a line, with tabs between the fields:

* `folder`, path;
* `link`, path, target;
* `file`, path, bytes in hexadecimal;
* `node`, kind, marks, start offset, row and column, end offset, row and column, label, number of
  children: a node of the tree of the last file, in document order. The marks are the letters `n`
  for named, `x` for extra, `m` for missing, `e` for error and `h` for an error below; an empty
  label is none.

In texts a tab, a line feed and a backslash are escaped.
-/

namespace FactStream.CommandLine

/-- A record of a listing. -/
inductive Record where
  | folder (path : String)
  | link (path target : String)
  | file (path : String) (bytes : ByteArray)
  | node (row : Node.Row)

namespace Record

/-- A text field. -/
def readField (field : List Char) : String :=
  String.ofList (Text.unescape Text.javaScriptEscapes field)

/-- A field of bytes in hexadecimal. -/
def readBytes : List Char → Option (List UInt8)
  | [] => some []
  | high :: low :: rest => do
    let byte ← Number.readNat? 16 [high, low]
    pure (byte.toUInt8 :: (← readBytes rest))
  | [_] => none

/-- The fields of a node. -/
def readNode : List (List Char) → Option Node.Row
  | [kind, marks, so, sr, sc, eo, er, ec, label, count] => do
    let number := Number.readNat? 10
    let label := readField label
    pure
      { head :=
          { kind := readField kind
            named := marks.contains 'n'
            extra := marks.contains 'x'
            missing := marks.contains 'm'
            error := marks.contains 'e'
            hasError := marks.contains 'h'
            span :=
              { startOffset := ← number so, startLine := ← number sr, startColumn := ← number sc
                endOffset := ← number eo, endLine := ← number er, endColumn := ← number ec }
            label := if label = "" then none else some label }
        childCount := ← number count }
  | _ => none

/-- Reads a line. -/
def parse? (line : List Char) : Option Record :=
  match Text.split (· = '\t') line with
  | kind :: fields =>
    match String.ofList kind, fields with
    | "folder", [path] => some (.folder (readField path))
    | "link", [path, target] => some (.link (readField path) (readField target))
    | "file", [path, hex] =>
      (readBytes hex).map fun bytes => .file (readField path) bytes.toByteArray
    | "node", fields => (readNode fields).map .node
    | _, _ => none
  | [] => none

end Record

/-- A listing as far as it was read, with the file whose nodes are coming. -/
structure Listing where
  disk : Disk := { entries := [] }
  path : Option String := none
  bytes : ByteArray := .empty
  /-- The rows of the file, the last one first. -/
  rows : List Node.Row := []

namespace Listing

/-- Puts the current file on the disk. -/
def close (l : Listing) : Listing :=
  match l.path with
  | none => l
  | some path =>
    let content : SourceFile := { bytes := l.bytes, tree := Node.ofRows? l.rows.reverse }
    { disk := l.disk.add path fun name => .file name content }

/-- Takes in a record. -/
def add (l : Listing) : Record → Listing
  | .folder path => let l := l.close; { l with disk := l.disk.addFolder path }
  | .link path target =>
    let l := l.close
    { l with disk := l.disk.add path fun name => .link name target }
  | .file path bytes => { l.close with path := some path, bytes }
  | .node row => { l with rows := row :: l.rows }

/-- The disk of a listing. -/
def read? (text : String) : Option Disk :=
  ((Text.lines text.toList).mapM Record.parse?).map fun records =>
    (records.foldl add {}).close.disk

end Listing

end FactStream.CommandLine
